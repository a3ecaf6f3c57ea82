import Catlink.Codecs.ArgbPixels

/-! When byte swapping keeps the picture. -/

namespace Catlink.Codecs.Argb

open Accesses BigEndian Rows

/-! ### Colours -/

/-- The top 8 bits of each channel. -/
structure Colour where
  red : UInt8
  green : UInt8
  blue : UInt8
  alpha : Option UInt8

/-- Bytes per pixel. -/
def PixelFormat.size : PixelFormat → Nat
  | .BGR565 | .LA => 2
  | .RGB => 3
  | .L => 1
  | .other _ => 0
  | _ => 4

/-- What the row stride has to be a multiple of. -/
def PixelFormat.strideUnit : PixelFormat → Nat
  | .BGR565 => 2
  | .RGB => 3
  | _ => 4

/-- A pixel that has a colour. -/
def colour : PixelFormat → Bytes → Option Colour
  | .r210, [a, b, c, d] =>
      let v := word [a, b, c, d]
      some ⟨r210Red v, r210Green v, r210Blue v, none⟩
  | .BGR565, [a, b] =>
      let v := word [a, b]
      some ⟨bgr565Red v, bgr565Green v, bgr565Blue v, none⟩
  | .BGRX, [b, g, r, _] => some ⟨r, g, b, none⟩
  | .BGRA, [b, g, r, a] => some ⟨r, g, b, some a⟩
  | .XRGB, [_, r, g, b] => some ⟨r, g, b, none⟩
  | .ARGB, [a, r, g, b] => some ⟨r, g, b, some a⟩
  | .RGBA, [r, g, b, a] => some ⟨r, g, b, some a⟩
  | .RGBX, [r, g, b, _] => some ⟨r, g, b, none⟩
  | .RGB, [r, g, b] => some ⟨r, g, b, none⟩
  | _, _ => none

def Colour.grey (c : Colour) : UInt8 := luminance c.red c.green c.blue

/-- The luminance with red and blue exchanged. -/
def Colour.exchanged (c : Colour) : UInt8 := luminance c.blue c.green c.red

/-- Red, green and blue are the same, and alpha where both have it. -/
structure Colour.Same (c c' : Colour) : Prop where
  red : c'.red = c.red
  green : c'.green = c.green
  blue : c'.blue = c.blue
  alpha : ∀ a a', c.alpha = some a → c'.alpha = some a' → a' = a

/-- A pixel of some format shows a colour. -/
def Shows (format : PixelFormat) (data : Bytes) (c : Colour) : Prop :=
  match format with
  | .L => data = [c.grey]
  | .LA => ∃ a, data = [c.grey, a] ∧ ∀ alpha, c.alpha = some alpha → a = alpha
  | format => ∃ c', colour format data = some c' ∧ c.Same c'

/-! ### Pictures -/

/-- A packed image with all its rows, whose stride passes the check. The lengths are such that no
`int` overflows. -/
structure Image.Packed (image : Image) : Prop where
  width : 0 < image.width
  height : 0 < image.height
  row : image.width * image.pixelFormat.size ≤ image.rowstride
  stride : image.rowstride % image.pixelFormat.strideUnit = 0
  pixels : image.pixels.length = image.height * image.rowstride
  fits : image.pixels.length * 3 < 2 ^ 31

def Image.pixel (image : Image) (i j : Nat) : Bytes :=
  slice image.pixels (j * image.rowstride + i * image.pixelFormat.size) image.pixelFormat.size

/-- The pixels of the new image show the colours of the old one. -/
def Swapped.Keeps (swapped : Swapped) (image : Image) : Prop :=
  ∀ i < image.width, ∀ j < image.height, ∃ out data c, swapped.pixels = some out ∧
    out.readAt (j * swapped.rowstride + i * swapped.pixelFormat.size) swapped.pixelFormat.size =
      some data ∧
    colour image.pixelFormat (image.pixel i j) = some c ∧ Shows swapped.pixelFormat data c

def KeepsPicture (image : Image) (rgbFormats : List PixelFormat) (supportsTransparency : Bool) : Prop :=
  ∀ swapped, argbSwap image rgbFormats supportsTransparency = .ok (some swapped) → swapped.Keeps image

/-! ### Pixels in rows -/

section Rows

variable {image : Image} {rgbFormats : List PixelFormat} {supportsTransparency : Bool}
  {swapped : Swapped}

theorem swapTo_ok {out : MemBuf} {format : PixelFormat} {rowstride : Nat} :
    swapTo (.ok (some out)) format rowstride = .ok (some ⟨format, rowstride, some out⟩) := rfl

theorem keepsPicture_iff
    (result : argbSwap image rgbFormats supportsTransparency = .ok (some swapped)) :
    KeepsPicture image rgbFormats supportsTransparency ↔ swapped.Keeps image := by
  constructor
  · intro keeps
    exact keeps swapped result
  · intro keeps other same
    rw [result] at same
    cases same
    exact keeps

theorem keepsPicture_none (result : argbSwap image rgbFormats supportsTransparency = .ok none) :
    KeepsPicture image rgbFormats supportsTransparency := by
  intro swapped same
  rw [result] at same
  cases same

/-- Pixel `i` of row `j`, in rows of `q` pixels. -/
theorem index_lt {w h q i j : Nat} (row : w ≤ q) (column : i < w) (line : j < h) :
    j * q + i < h * q := by
  have next : (j + 1) * q ≤ h * q := Nat.mul_le_mul_right _ line
  rw [Nat.succ_mul] at next
  omega

/-- A conversion whose target has the stride of its source, in pixels. -/
theorem steady_keeps {size outSize : Nat} {pixel : Bytes → Bytes} {place : Nat → Nat} {n q : Nat}
    {accesses : List (Access UInt8)} {format : PixelFormat} (target : format.size = outSize)
    (fills : Fills (pixelByte place size outSize pixel image.pixels) 0 (outSize * n) accesses)
    (inside : ∀ i < image.width, ∀ j < image.height, j * q + i < n ∧
      slice image.pixels (place (j * q + i)) size = image.pixel i j)
    (sized : ∀ i < image.width, ∀ j < image.height, (pixel (image.pixel i j)).length = outSize) :
    Swapped.Keeps ⟨format, q * outSize, some ⟨n * outSize, accesses⟩⟩ image ↔
      ∀ i < image.width, ∀ j < image.height, ∃ c, colour image.pixelFormat (image.pixel i j) = some c ∧
        Shows format (pixel (image.pixel i j)) c := by
  have read : ∀ i < image.width, ∀ j < image.height,
      MemBuf.readAt ⟨n * outSize, accesses⟩ (j * (q * outSize) + i * outSize) outSize =
        some (pixel (image.pixel i j)) := by
    intro i column j line
    obtain ⟨within, same⟩ := inside i column j line
    have found := pixel_read fills within (by rw [same]; exact sized i column j line)
    rw [same] at found
    rw [← found]
    congr 1
    ring
  constructor
  · intro keeps i column j line
    obtain ⟨out, data, c, there, found, seen, shows'⟩ := keeps i column j line
    cases there
    dsimp only at found
    rw [target, read i column j line] at found
    cases found
    exact ⟨c, seen, shows'⟩
  · intro keeps i column j line
    obtain ⟨c, seen, shows'⟩ := keeps i column j line
    refine ⟨_, _, c, rfl, ?_, seen, shows'⟩
    dsimp only
    rw [target]
    exact read i column j line

/-- The stride of the image, in pixels. -/
structure Pitch (image : Image) (q : Nat) : Prop where
  rowstride : image.rowstride = q * image.pixelFormat.size
  width : image.width ≤ q
  filled : 0 < image.height * q
  pixels : image.pixels.length = image.height * q * image.pixelFormat.size

theorem Image.Packed.pitch (packed : image.Packed)
    (unit : image.pixelFormat.strideUnit = image.pixelFormat.size)
    (positive : 0 < image.pixelFormat.size) : Pitch image (image.rowstride / image.pixelFormat.size) := by
  have stride := packed.stride
  rw [unit] at stride
  have pitch := (Nat.div_mul_cancel (Nat.dvd_of_mod_eq_zero stride)).symm
  generalize image.rowstride / image.pixelFormat.size = q at pitch
  have row := packed.row
  rw [pitch] at row
  have width := Nat.le_of_mul_le_mul_right row positive
  refine ⟨pitch, width, ?_, ?_⟩
  · exact Nat.mul_pos packed.height (Nat.lt_of_lt_of_le packed.width width)
  · rw [packed.pixels, pitch, Nat.mul_assoc]

theorem Pitch.inside {q : Nat} (pitch : Pitch image q) : ∀ i < image.width, ∀ j < image.height,
    j * q + i < image.height * q ∧
      slice image.pixels (image.pixelFormat.size * (j * q + i)) image.pixelFormat.size =
        image.pixel i j := by
  intro i column j line
  refine ⟨index_lt pitch.width column line, ?_⟩
  rw [Image.pixel, pitch.rowstride]
  congr 1
  ring

theorem Pitch.pixel_length {q i j : Nat} (pitch : Pitch image q) (column : i < image.width)
    (line : j < image.height) : (image.pixel i j).length = image.pixelFormat.size := by
  obtain ⟨within, same⟩ := pitch.inside i column j line
  rw [← same]
  apply slice_full
  have next : (j * q + i + 1) * image.pixelFormat.size ≤
      image.height * q * image.pixelFormat.size := Nat.mul_le_mul_right _ within
  rw [pitch.pixels, Nat.mul_comm image.pixelFormat.size]
  rwa [Nat.succ_mul] at next

/-- What is made of all the pixels. -/
theorem Pitch.converted {q : Nat} (pitch : Pitch image q) (packed : image.Packed)
    (positive : 0 < image.pixelFormat.size) {outSize : Nat} (nothing : Option MemBuf)
    {pixel : Bytes → Bytes}
    (sized : ∀ data : Bytes, data.length = image.pixelFormat.size → (pixel data).length = outSize) :
    ∃ accesses, eachPixel image.pixelFormat.size outSize nothing pixel image.pixels =
        .ok (some ⟨image.height * q * outSize, accesses⟩) ∧
      Fills (pixelByte (image.pixelFormat.size * ·) image.pixelFormat.size outSize pixel image.pixels) 0
        (outSize * (image.height * q)) accesses := by
  have fits := packed.fits
  obtain ⟨accesses, made, fills, -⟩ :=
    eachPixel_ok nothing pitch.filled positive pitch.pixels (by omega) sized
  exact ⟨accesses, made, fills⟩

/-- A conversion of all the pixels, with the stride that goes with it. -/
theorem converted_keeps (packed : image.Packed) {inSize outSize rowstride : Nat} {format : PixelFormat}
    {nothing : Option MemBuf} {pixel : Bytes → Bytes} {converted : Converted}
    (result : argbSwap image rgbFormats supportsTransparency = swapTo converted format rowstride)
    (conversion : converted = eachPixel inSize outSize nothing pixel image.pixels)
    (positive : 0 < inSize) (unit : image.pixelFormat.strideUnit = inSize)
    (size : image.pixelFormat.size = inSize) (target : format.size = outSize)
    (sized : ∀ data : Bytes, data.length = inSize → (pixel data).length = outSize)
    (steady : rowstride = image.rowstride / inSize * outSize) :
    KeepsPicture image rgbFormats supportsTransparency ↔
      ∀ i < image.width, ∀ j < image.height, ∃ c, colour image.pixelFormat (image.pixel i j) = some c ∧
        Shows format (pixel (image.pixel i j)) c := by
  subst size target
  have pitch := packed.pitch unit positive
  obtain ⟨accesses, made, fills⟩ := pitch.converted packed positive nothing sized
  rw [conversion, made, swapTo_ok, steady] at result
  rw [keepsPicture_iff result]
  apply steady_keeps rfl fills pitch.inside
  intro i column j line
  exact sized _ (pitch.pixel_length column line)

/-- A buffer does not reach beyond its size. -/
theorem readAt_inside {buf : MemBuf} {pos n : Nat} {data : Bytes} (some : 0 < n)
    (read : buf.readAt pos n = .some data) : pos < buf.size := by
  by_contra outside
  obtain ⟨more, rfl⟩ := Nat.exists_eq_succ_of_ne_zero some.ne'
  have none : buf.byte? (pos + 0) = none := if_neg outside
  rw [MemBuf.readAt, List.range_succ_eq_map, List.mapM_cons, none] at read
  cases read

/-- With a single row the stride does not matter. -/
theorem one_row_keeps (one : image.height = 1) {format : PixelFormat} {rowstride rowstride' : Nat}
    {out : Option MemBuf} (keeps : Swapped.Keeps ⟨format, rowstride, out⟩ image) :
    Swapped.Keeps ⟨format, rowstride', out⟩ image := by
  intro i column j line
  have first : j = 0 := by omega
  have found := keeps i column j line
  subst first
  dsimp only at found ⊢
  rwa [Nat.zero_mul] at found ⊢

/-- The stride of the image is too long for smaller pixels: the last row is outside. -/
theorem unset_keeps (packed : image.Packed) {outSize : Nat} {format : PixelFormat}
    {nothing : Option MemBuf} {pixel : Bytes → Bytes} {converted : Converted}
    (result : argbSwap image rgbFormats supportsTransparency =
      swapTo converted format image.rowstride)
    (conversion : converted = eachPixel 4 outSize nothing pixel image.pixels)
    (unit : image.pixelFormat.strideUnit = 4) (four : image.pixelFormat.size = 4)
    (target : format.size = outSize) (some : 0 < outSize) (half : outSize ≤ 2)
    (sized : ∀ data : Bytes, data.length = 4 → (pixel data).length = outSize) :
    KeepsPicture image rgbFormats supportsTransparency ↔ image.height = 1 ∧
      ∀ i < image.width, ∃ c, colour image.pixelFormat (image.pixel i 0) = .some c ∧
        Shows format (pixel (image.pixel i 0)) c := by
  subst target
  have positive : 0 < image.pixelFormat.size := by omega
  rw [← four] at sized conversion unit
  have pitch := packed.pitch unit positive
  obtain ⟨accesses, made, fills⟩ := pitch.converted packed positive nothing sized
  have target : format.size = format.size := rfl
  have steady := steady_keeps target fills pitch.inside
    fun i column j line => sized _ (pitch.pixel_length column line)
  rw [conversion, made, swapTo_ok] at result
  rw [keepsPicture_iff result]
  constructor
  · intro keeps
    have one : image.height = 1 := by
      obtain ⟨out, data, c, there, read, -⟩ :=
        keeps 0 packed.width (image.height - 1) (Nat.sub_lt packed.height Nat.one_pos)
      cases there
      have inside := readAt_inside some read
      dsimp only at inside
      have stride := pitch.rowstride
      generalize image.rowstride / image.pixelFormat.size = q at inside stride
      rw [stride, four, Nat.zero_mul, Nat.add_zero] at inside
      by_contra several
      have rows : image.height ≤ (image.height - 1) * 2 := by
        have height := packed.height
        omega
      have below : image.height * q * format.size ≤ (image.height - 1) * (q * 4) := by
        calc image.height * q * format.size ≤ (image.height - 1) * 2 * q * 2 :=
              Nat.mul_le_mul (Nat.mul_le_mul_right q rows) half
          _ = (image.height - 1) * (q * 4) := by ring
      omega
    refine ⟨one, ?_⟩
    intro i column
    exact steady.mp (one_row_keeps one keeps) i column 0 packed.height
  · rintro ⟨one, shows'⟩
    apply one_row_keeps one
    apply steady.mpr
    intro i column j line
    have first : j = 0 := by omega
    rw [first]
    exact shows' i column

end Rows

/-! ### The formats -/

section Formats

variable {image : Image} {rgbFormats : List PixelFormat} {supportsTransparency : Bool}

theorem Image.Packed.checked (packed : image.Packed) {div : Nat}
    (unit : image.pixelFormat.strideUnit = div) : checkstride image div = .ok () := by
  have stride := packed.stride
  rw [unit] at stride
  rw [checkstride, if_neg (not_not.mpr stride)]

theorem Image.Packed.there (packed : image.Packed) (some : 0 < image.pixelFormat.size) :
    image.pixels ≠ [] := by
  intro empty
  have length := packed.pixels
  have row := packed.row
  rw [empty, List.length_nil] at length
  have stride : 0 < image.rowstride :=
    Nat.lt_of_lt_of_le (Nat.mul_pos packed.width some) row
  have all := Nat.mul_pos packed.height stride
  omega

theorem four_bytes {data : Bytes} (size : data.length = 4) : ∃ a b c d, data = [a, b, c, d] := by
  match data, size with
  | [a, b, c, d], _ => exact ⟨a, b, c, d, rfl⟩

theorem three_bytes {data : Bytes} (size : data.length = 3) : ∃ a b c, data = [a, b, c] := by
  match data, size with
  | [a, b, c], _ => exact ⟨a, b, c, rfl⟩

theorem two_bytes {data : Bytes} (size : data.length = 2) : ∃ a b, data = [a, b] := by
  match data, size with
  | [a, b], _ => exact ⟨a, b, rfl⟩

/-- A conversion that keeps every colour keeps the picture. -/
theorem faithful_keeps (packed : image.Packed) {inSize outSize rowstride : Nat} {format : PixelFormat}
    {nothing : Option MemBuf} {pixel : Bytes → Bytes} {converted : Converted}
    (result : argbSwap image rgbFormats supportsTransparency = swapTo converted format rowstride)
    (conversion : converted = eachPixel inSize outSize nothing pixel image.pixels)
    (positive : 0 < inSize) (unit : image.pixelFormat.strideUnit = inSize)
    (size : image.pixelFormat.size = inSize) (target : format.size = outSize)
    (faithful : ∀ data : Bytes, data.length = inSize → (pixel data).length = outSize ∧
      ∃ c, colour image.pixelFormat data = some c ∧ Shows format (pixel data) c)
    (steady : rowstride = image.rowstride / inSize * outSize) :
    KeepsPicture image rgbFormats supportsTransparency := by
  rw [converted_keeps packed result conversion positive unit size target
    (fun data length => (faithful data length).1) steady]
  intro i column j line
  subst size
  exact (faithful _ ((packed.pitch unit positive).pixel_length column line)).2

/-- The two pixels are of the same colour. -/
theorem shows_of_same {format : PixelFormat} {data : Bytes} {c c' : Colour}
    (seen : colour format data = some c') (same : c.Same c') : Shows format data c := by
  cases format with
  | L => cases seen
  | LA => cases seen
  | _ => exact ⟨c', seen, same⟩

/-- Four bytes per pixel. -/
theorem four_size {format : PixelFormat} (same : image.pixelFormat = format) (four : format.size = 4)
    (unit : format.strideUnit = 4) :
    image.pixelFormat.size = 4 ∧ image.pixelFormat.strideUnit = 4 ∧ 0 < image.pixelFormat.size := by
  rw [same, four, unit]
  exact ⟨rfl, rfl, by decide⟩

theorem Image.Packed.three_quarters (packed : image.Packed) (unit : image.pixelFormat.strideUnit = 4) :
    image.rowstride * 3 / 4 = image.rowstride / 4 * 3 ∧ image.rowstride = image.rowstride / 4 * 4 := by
  have stride := packed.stride
  rw [unit] at stride
  omega

theorem xrgb_keeps (format : image.pixelFormat = .XRGB) (packed : image.Packed) :
    KeepsPicture image rgbFormats supportsTransparency := by
  obtain ⟨size, unit, positive⟩ := four_size format rfl rfl
  obtain ⟨three, -⟩ := packed.three_quarters unit
  have start : argbSwap image rgbFormats supportsTransparency =
      if .RGB ∈ rgbFormats then swapTo (argbToRgb image.pixels) .RGB (image.rowstride * 3 / 4)
      else .ok none := by
    rw [argbSwap, if_neg (packed.there positive), packed.checked unit]
    simp only [format]
    rfl
  split at start
  · refine faithful_keeps packed start rfl (by decide) unit size rfl ?_ three
    intro data length
    obtain ⟨x, r, g, b, rfl⟩ := four_bytes length
    rw [argbToRgbPixel_eq, format]
    exact ⟨rfl, _, rfl, shows_of_same rfl ⟨rfl, rfl, rfl, nofun⟩⟩
  · exact keepsPicture_none start

theorem argb_keeps (format : image.pixelFormat = .ARGB) (packed : image.Packed) :
    KeepsPicture image rgbFormats supportsTransparency := by
  obtain ⟨size, unit, positive⟩ := four_size format rfl rfl
  obtain ⟨three, four⟩ := packed.three_quarters unit
  have start : argbSwap image rgbFormats supportsTransparency =
      if supportsTransparency = true ∧ .RGBA ∈ rgbFormats then
        swapTo (argbToRgba image.pixels) .RGBA image.rowstride
      else if .RGB ∈ rgbFormats then swapTo (argbToRgb image.pixels) .RGB (image.rowstride * 3 / 4)
      else .ok none := by
    rw [argbSwap, if_neg (packed.there positive), packed.checked unit]
    simp only [format]
    rfl
  split at start
  · refine faithful_keeps packed start rfl (by decide) unit size rfl ?_ four
    intro data length
    obtain ⟨a, r, g, b, rfl⟩ := four_bytes length
    rw [argbToRgbaPixel_eq, format]
    refine ⟨rfl, _, rfl, shows_of_same rfl ⟨rfl, rfl, rfl, ?_⟩⟩
    rintro _ _ ⟨⟩ ⟨⟩
    rfl
  split at start
  · refine faithful_keeps packed start rfl (by decide) unit size rfl ?_ three
    intro data length
    obtain ⟨a, r, g, b, rfl⟩ := four_bytes length
    rw [argbToRgbPixel_eq, format]
    exact ⟨rfl, _, rfl, shows_of_same rfl ⟨rfl, rfl, rfl, nofun⟩⟩
  · exact keepsPicture_none start

theorem rgbx_keeps (format : image.pixelFormat = .RGBX) (packed : image.Packed) :
    KeepsPicture image rgbFormats supportsTransparency := by
  obtain ⟨size, unit, positive⟩ := four_size format rfl rfl
  obtain ⟨three, -⟩ := packed.three_quarters unit
  have start : argbSwap image rgbFormats supportsTransparency =
      if .RGB ∈ rgbFormats then swapTo (bgrxToRgb image.pixels) .RGB (image.rowstride * 3 / 4)
      else .ok none := by
    rw [argbSwap, if_neg (packed.there positive), packed.checked unit]
    simp only [format]
    rfl
  split at start
  · refine faithful_keeps packed start rfl (by decide) unit size rfl ?_ three
    intro data length
    obtain ⟨r, g, b, x, rfl⟩ := four_bytes length
    rw [bgrxToRgbPixel_eq, format]
    exact ⟨rfl, _, rfl, shows_of_same rfl ⟨rfl, rfl, rfl, nofun⟩⟩
  · exact keepsPicture_none start

theorem bgr565_keeps (format : image.pixelFormat = .BGR565) (packed : image.Packed) :
    KeepsPicture image rgbFormats supportsTransparency := by
  have size : image.pixelFormat.size = 2 := by rw [format]; rfl
  have unit : image.pixelFormat.strideUnit = 2 := by rw [format]; rfl
  have positive : 0 < image.pixelFormat.size := by omega
  have stride := packed.stride
  rw [unit] at stride
  have start : argbSwap image rgbFormats supportsTransparency =
      if .RGB ∈ rgbFormats then swapTo (bgr565ToRgb image.pixels) .RGB (image.rowstride * 3 / 2)
      else if .RGBX ∈ rgbFormats then swapTo (bgr565ToRgbx image.pixels) .RGBX (image.rowstride * 2)
      else .ok none := by
    rw [argbSwap, if_neg (packed.there positive), packed.checked unit]
    simp only [format]
    rfl
  split at start
  · refine faithful_keeps packed start rfl (by decide) unit size rfl ?_ (by omega)
    intro data length
    obtain ⟨a, b, rfl⟩ := two_bytes length
    rw [bgr565ToRgbPixel_eq, format]
    exact ⟨rfl, _, rfl, shows_of_same rfl ⟨rfl, rfl, rfl, nofun⟩⟩
  split at start
  · refine faithful_keeps packed start rfl (by decide) unit size rfl ?_ (by omega)
    intro data length
    obtain ⟨a, b, rfl⟩ := two_bytes length
    rw [bgr565ToRgbxPixel_eq, format]
    exact ⟨rfl, _, rfl, shows_of_same rfl ⟨rfl, rfl, rfl, nofun⟩⟩
  · exact keepsPicture_none start

/-- Without luminance, BGRX and BGRA are reordered. -/
theorem bgra_colour {format : PixelFormat} (b g r a : UInt8) (bgr : format = .BGRX ∨ format = .BGRA) :
    ∃ alpha, colour format [b, g, r, a] = some ⟨r, g, b, alpha⟩ := by
  rcases bgr with rfl | rfl
  · exact ⟨none, rfl⟩
  · exact ⟨some a, rfl⟩

theorem bgr_keeps (bgr : image.pixelFormat = .BGRX ∨ image.pixelFormat = .BGRA) (packed : image.Packed)
    (start : argbSwap image rgbFormats supportsTransparency =
      if .RGB ∈ rgbFormats then swapTo (bgraToRgb image.pixels) .RGB (image.rowstride * 3 / 4)
      else if .RGBX ∈ rgbFormats then swapTo (bgraToRgbx image.pixels) .RGBX image.rowstride
      else .ok none) : KeepsPicture image rgbFormats supportsTransparency := by
  obtain ⟨size, unit, positive⟩ : image.pixelFormat.size = 4 ∧ image.pixelFormat.strideUnit = 4 ∧
      0 < image.pixelFormat.size := by
    rcases bgr with format | format
    · exact four_size format rfl rfl
    · exact four_size format rfl rfl
  obtain ⟨three, four⟩ := packed.three_quarters unit
  split at start
  · refine faithful_keeps packed start rfl (by decide) unit size rfl ?_ three
    intro data length
    obtain ⟨b, g, r, a, rfl⟩ := four_bytes length
    obtain ⟨alpha, seen⟩ := bgra_colour b g r a bgr
    rw [bgraToRgbPixel_eq]
    exact ⟨rfl, _, seen, shows_of_same rfl ⟨rfl, rfl, rfl, nofun⟩⟩
  split at start
  · refine faithful_keeps packed start rfl (by decide) unit size rfl ?_ four
    intro data length
    obtain ⟨b, g, r, a, rfl⟩ := four_bytes length
    obtain ⟨alpha, seen⟩ := bgra_colour b g r a bgr
    rw [bgraToRgbxPixel_eq]
    exact ⟨rfl, _, seen, shows_of_same rfl ⟨rfl, rfl, rfl, nofun⟩⟩
  · exact keepsPicture_none start

/-- The rows of r210 are converted by their width. -/
theorem rows_keep (packed : image.Packed) (size : image.pixelFormat.size = 4) {outSize : Nat}
    {format : PixelFormat} {pixel : Bytes → Bytes} {converted : Converted}
    (result : argbSwap image rgbFormats supportsTransparency =
      swapTo converted format (image.width * outSize))
    (conversion : converted = r210Rows outSize pixel image.pixels image.width image.height
      image.rowstride (image.width * outSize))
    (target : format.size = outSize) (sized : ∀ data : Bytes, (pixel data).length = outSize)
    (faithful : ∀ data : Bytes, data.length = 4 →
      ∃ c, colour image.pixelFormat data = some c ∧ Shows format (pixel data) c) :
    KeepsPicture image rgbFormats supportsTransparency := by
  have row := packed.row
  have length := packed.pixels
  rw [size] at row
  obtain ⟨accesses, made, fills⟩ := r210Rows_ok row (Nat.le_of_eq length.symm) sized
  have inside : ∀ i < image.width, ∀ j < image.height, j * image.width + i < image.height * image.width ∧
      slice image.pixels ((j * image.width + i) / image.width * image.rowstride +
        4 * ((j * image.width + i) % image.width)) 4 = image.pixel i j := by
    intro i column j line
    refine ⟨index_lt (Nat.le_refl _) column line, ?_⟩
    have above : (j * image.width + i) / image.width = j := by
      rw [Nat.mul_comm, Nat.mul_add_div packed.width, Nat.div_eq_of_lt column, Nat.add_zero]
    have along : (j * image.width + i) % image.width = i := by
      rw [Nat.mul_comm, Nat.mul_add_mod, Nat.mod_eq_of_lt column]
    rw [above, along, Image.pixel, size, Nat.mul_comm 4]
  rw [conversion, made, swapTo_ok] at result
  rw [keepsPicture_iff result, steady_keeps target fills inside fun i _ j _ => sized _]
  intro i column j line
  apply faithful
  rw [← (inside i column j line).2]
  apply slice_full
  have within := index_lt row (by omega : i * 4 + 3 < image.width * 4) line
  rw [← length] at within
  have above : (j * image.width + i) / image.width = j := by
    rw [Nat.mul_comm, Nat.mul_add_div packed.width, Nat.div_eq_of_lt column, Nat.add_zero]
  have along : (j * image.width + i) % image.width = i := by
    rw [Nat.mul_comm, Nat.mul_add_mod, Nat.mod_eq_of_lt column]
  rw [above, along]
  omega

theorem r210_keeps (format : image.pixelFormat = .r210) (packed : image.Packed) :
    KeepsPicture image rgbFormats supportsTransparency := by
  obtain ⟨size, unit, positive⟩ := four_size format rfl rfl
  have start : argbSwap image rgbFormats supportsTransparency =
      if .RGB ∈ rgbFormats then
        swapTo (r210ToRgb image.pixels image.width image.height image.rowstride (image.width * 3)) .RGB
          (image.width * 3)
      else if .RGBX ∈ rgbFormats then
        swapTo (r210ToRgbx image.pixels image.width image.height image.rowstride (image.width * 4))
          .RGBX (image.width * 4)
      else .ok none := by
    rw [argbSwap, if_neg (packed.there positive), packed.checked unit]
    simp only [format]
    rfl
  split at start
  · refine rows_keep packed size start rfl rfl (fun _ => rfl) ?_
    intro data length
    obtain ⟨a, b, c, d, rfl⟩ := four_bytes length
    rw [r210ToRgbPixel_eq, format]
    exact ⟨_, rfl, shows_of_same rfl ⟨rfl, rfl, rfl, nofun⟩⟩
  split at start
  · refine rows_keep packed size start rfl rfl (fun data => by rw [r210ToRgbxPixel_eq]; rfl) ?_
    intro data length
    obtain ⟨a, b, c, d, rfl⟩ := four_bytes length
    rw [r210ToRgbxPixel_eq, format]
    exact ⟨_, rfl, shows_of_same rfl ⟨rfl, rfl, rfl, nofun⟩⟩
  · exact keepsPicture_none start

/-! ### The formats that some targets spoil -/

/-- The luminance of no pixel of the first row changes when red and blue are exchanged. -/
def Image.Exchangeable (image : Image) : Prop :=
  ∀ i < image.width, ∀ c, colour image.pixelFormat (image.pixel i 0) = some c → c.exchanged = c.grey

/-- Red is blue in every pixel. -/
def Image.Purple (image : Image) : Prop :=
  ∀ i < image.width, ∀ j < image.height, ∀ c, colour image.pixelFormat (image.pixel i j) = some c →
    c.red = c.blue

theorem Image.Packed.pixel_four (packed : image.Packed) (size : image.pixelFormat.size = 4)
    (unit : image.pixelFormat.strideUnit = 4) {i j : Nat} (column : i < image.width)
    (line : j < image.height) : ∃ a b c d, image.pixel i j = [a, b, c, d] := by
  have pitch := packed.pitch (by rw [size, unit]) (by omega)
  exact four_bytes ((pitch.pixel_length column line).trans size)

theorem bgrx_keeps_iff (format : image.pixelFormat = .BGRX) (packed : image.Packed) :
    KeepsPicture image rgbFormats supportsTransparency ↔
      (.L ∈ rgbFormats → image.height = 1 ∧ image.Exchangeable) := by
  obtain ⟨size, unit, positive⟩ := four_size format rfl rfl
  have start : argbSwap image rgbFormats supportsTransparency =
      if .L ∈ rgbFormats then swapTo (bgrxToL image.pixels) .L image.rowstride
      else if .RGB ∈ rgbFormats then swapTo (bgraToRgb image.pixels) .RGB (image.rowstride * 3 / 4)
      else if .RGBX ∈ rgbFormats then swapTo (bgraToRgbx image.pixels) .RGBX image.rowstride
      else .ok none := by
    rw [argbSwap, if_neg (packed.there positive), packed.checked unit]
    simp only [format]
    rfl
  split at start
  · next grey =>
      rw [unset_keeps packed start rfl unit size rfl (by decide) (by decide) (fun _ _ => rfl)]
      have same : (∀ i < image.width, ∃ c, colour image.pixelFormat (image.pixel i 0) = some c ∧
          Shows .L (bgrxToLPixel (image.pixel i 0)) c) ↔ image.Exchangeable := by
        apply forall_congr'
        intro i
        apply forall_congr'
        intro column
        obtain ⟨b, g, r, x, bytes⟩ := packed.pixel_four size unit column packed.height
        rw [bytes, bgrxToLPixel_eq, format]
        constructor
        · rintro ⟨c, seen, shows'⟩ other same
          cases seen
          cases same
          exact (List.cons.inj shows').1
        · intro same
          have grey : luminance b g r = luminance r g b := same ⟨r, g, b, none⟩ rfl
          refine ⟨_, rfl, ?_⟩
          change [luminance b g r] = [luminance r g b]
          rw [grey]
      rw [same]
      exact ⟨fun both _ => both, fun both => both grey⟩
  · next coloured =>
      exact ⟨fun _ grey => absurd grey coloured, fun _ => bgr_keeps (.inl format) packed start⟩

theorem bgra_keeps_iff (format : image.pixelFormat = .BGRA) (packed : image.Packed) :
    KeepsPicture image rgbFormats supportsTransparency ↔
      (.LA ∈ rgbFormats → image.height = 1 ∧ image.Exchangeable) := by
  obtain ⟨size, unit, positive⟩ := four_size format rfl rfl
  obtain ⟨-, four⟩ := packed.three_quarters unit
  have start : argbSwap image rgbFormats supportsTransparency =
      if .LA ∈ rgbFormats then swapTo (bgraToLa image.pixels) .LA image.rowstride
      else if supportsTransparency = true ∧ .RGBA ∈ rgbFormats then
        swapTo (bgraToRgba image.pixels) .RGBA image.rowstride
      else if .RGB ∈ rgbFormats then swapTo (bgraToRgb image.pixels) .RGB (image.rowstride * 3 / 4)
      else if .RGBX ∈ rgbFormats then swapTo (bgraToRgbx image.pixels) .RGBX image.rowstride
      else .ok none := by
    rw [argbSwap, if_neg (packed.there positive), packed.checked unit]
    simp only [format]
    rfl
  split at start
  · next grey =>
      rw [unset_keeps packed start rfl unit size rfl (by decide) (by decide) (fun _ _ => rfl)]
      have same : (∀ i < image.width, ∃ c, colour image.pixelFormat (image.pixel i 0) = some c ∧
          Shows .LA (bgraToLaPixel (image.pixel i 0)) c) ↔ image.Exchangeable := by
        apply forall_congr'
        intro i
        apply forall_congr'
        intro column
        obtain ⟨b, g, r, a, bytes⟩ := packed.pixel_four size unit column packed.height
        rw [bytes, bgraToLaPixel_eq, format]
        constructor
        · rintro ⟨c, seen, alpha, shows', -⟩ other same
          cases seen
          cases same
          exact (List.cons.inj shows').1
        · intro same
          have grey : luminance b g r = luminance r g b := same ⟨r, g, b, some a⟩ rfl
          refine ⟨_, rfl, a, ?_, ?_⟩
          · change [luminance b g r, a] = [luminance r g b, a]
            rw [grey]
          · rintro _ ⟨⟩
            rfl
      rw [same]
      exact ⟨fun both _ => both, fun both => both grey⟩
  · next coloured =>
      refine ⟨fun _ grey => absurd grey coloured, fun _ => ?_⟩
      split at start
      · refine faithful_keeps packed start rfl (by decide) unit size rfl ?_ four
        intro data length
        obtain ⟨b, g, r, a, rfl⟩ := four_bytes length
        rw [bgraToRgbaPixel_eq, format]
        refine ⟨rfl, _, rfl, shows_of_same rfl ⟨rfl, rfl, rfl, ?_⟩⟩
        rintro _ _ ⟨⟩ ⟨⟩
        rfl
      · exact bgr_keeps (.inr format) packed start

theorem rgb_keeps_iff (format : image.pixelFormat = .RGB) (packed : image.Packed) :
    KeepsPicture image rgbFormats supportsTransparency ↔ (.BGRX ∈ rgbFormats → image.Purple) := by
  have size : image.pixelFormat.size = 3 := by rw [format]; rfl
  have unit : image.pixelFormat.strideUnit = 3 := by rw [format]; rfl
  have positive : 0 < image.pixelFormat.size := by omega
  have start : argbSwap image rgbFormats supportsTransparency =
      if .BGRX ∈ rgbFormats then swapTo (rgbToBgrx image.pixels) .BGRX (image.rowstride / 3 * 4)
      else .ok none := by
    rw [argbSwap, if_neg (packed.there positive), packed.checked unit]
    simp only [format]
    rfl
  split at start
  · next bgrx =>
      rw [converted_keeps packed start rfl (by decide) unit size rfl
        (fun _ _ => store_length false 4 _) rfl]
      have same : (∀ i < image.width, ∀ j < image.height,
          ∃ c, colour image.pixelFormat (image.pixel i j) = some c ∧
            Shows .BGRX (rgbToBgrxPixel (image.pixel i j)) c) ↔ image.Purple := by
        apply forall_congr'
        intro i
        apply forall_congr'
        intro column
        apply forall_congr'
        intro j
        apply forall_congr'
        intro line
        have pitch := packed.pitch (by rw [size, unit]) positive
        obtain ⟨r, g, b, bytes⟩ := three_bytes ((pitch.pixel_length column line).trans size)
        rw [bytes, rgbToBgrxPixel_eq, format]
        constructor
        · rintro ⟨c, seen, c', seen', same⟩ other again
          cases seen
          cases seen'
          cases again
          exact same.blue
        · intro same
          have purple : r = b := same _ rfl
          exact ⟨_, rfl, _, rfl, purple.symm, rfl, purple, nofun⟩
      rw [same]
      exact ⟨fun purple _ => purple, fun purple => purple bgrx⟩
  · next other =>
      exact ⟨fun _ bgrx => absurd bgrx other, fun _ => keepsPicture_none start⟩

/-- Where the bytes of swapped pixels come from. -/
def swapIndex (k : Nat) : Nat := if k % 4 = 0 then k + 2 else if k % 4 = 2 then k - 2 else k

/-- Every pixel of the swapped data stands also where three quarters of the row stride say. -/
def Image.Repeats (image : Image) : Prop :=
  ∀ i < image.width, ∀ j < image.height, ∀ k < 4,
    image.pixels.getD (swapIndex (j * (image.rowstride * 3 / 4) + i * 4 + k)) 0 =
      image.pixels.getD (swapIndex (j * image.rowstride + i * 4 + k)) 0

theorem slice_four {data : Bytes} {pos : Nat} (inside : pos + 4 ≤ data.length) :
    slice data pos 4 = [data.getD pos 0, data.getD (pos + 1) 0, data.getD (pos + 2) 0,
      data.getD (pos + 3) 0] := by
  have byte : ∀ k < 4, (slice data pos 4)[k]? = some (data.getD (pos + k) 0) := by
    intro k below
    rw [slice, List.getElem?_take_of_lt below, List.getElem?_drop, List.getD_eq_getElem?_getD,
      List.getElem?_eq_getElem (by omega)]
    rfl
  obtain ⟨a, b, c, d, bytes⟩ := four_bytes (slice_full inside)
  have zero := byte 0 (by decide)
  have one := byte 1 (by decide)
  have two := byte 2 (by decide)
  have three := byte 3 (by decide)
  rw [bytes] at zero one two three ⊢
  cases zero
  cases one
  cases two
  cases three
  rfl

theorem getD_swapped {data : Bytes} {q k : Nat} (below : k < 4) (inside : 4 * q + 4 ≤ data.length) :
    (bgraToRgbaPixel (slice data (4 * q) 4)).getD k 0 = data.getD (swapIndex (4 * q + k)) 0 := by
  rw [slice_four inside, bgraToRgbaPixel_eq, swapIndex, Nat.mul_add_mod, Nat.mod_eq_of_lt below]
  match k, below with
  | 0, _ => rfl
  | 1, _ => rfl
  | 2, _ => rfl
  | 3, _ => rfl

/-- A pixel of RGBA that is read as BGRA. -/
theorem bgra_shows {buf : MemBuf} {pos : Nat} {d e f h r g b a : UInt8}
    (read : buf.readAt pos 4 = some [d, e, f, h]) :
    (∃ out data c, some buf = some out ∧ out.readAt pos 4 = some data ∧
      colour .RGBA [r, g, b, a] = some c ∧ Shows .BGRA data c) ↔ d = b ∧ e = g ∧ f = r ∧ h = a := by
  constructor
  · rintro ⟨out, data, c, there, found, seen, c', seen', same⟩
    cases there
    rw [read] at found
    cases found
    cases seen
    cases seen'
    exact ⟨same.blue, same.green, same.red, same.alpha a h rfl rfl⟩
  · rintro ⟨rfl, rfl, rfl, rfl⟩
    refine ⟨_, _, _, rfl, read, rfl, _, rfl, rfl, rfl, rfl, ?_⟩
    rintro _ _ ⟨⟩ ⟨⟩
    rfl

theorem moved_keeps {q rowstride : Nat} {accesses : List (Access UInt8)}
    (format : image.pixelFormat = .RGBA) (size : image.pixelFormat.size = 4) (pitch : Pitch image q)
    (fills : Fills (pixelByte (4 * ·) 4 4 bgraToRgbaPixel image.pixels) 0 (4 * (image.height * q))
      accesses) (three : rowstride = q * 3) :
    Swapped.Keeps ⟨.BGRA, rowstride, some ⟨image.height * q * 4, accesses⟩⟩ image ↔
      ∀ i < image.width, ∀ j < image.height, ∀ k < 4,
        image.pixels.getD (swapIndex (j * rowstride + i * 4 + k)) 0 =
          image.pixels.getD (swapIndex (j * image.rowstride + i * 4 + k)) 0 := by
  have length := pitch.pixels
  have stride := pitch.rowstride
  rw [size] at length stride
  have byte : ∀ m < image.height * q * 4, MemBuf.byte? ⟨image.height * q * 4, accesses⟩ m =
      some (image.pixels.getD (swapIndex m) 0) := by
    intro m inside
    have whole : 4 * (m / 4) + m % 4 = m := Nat.div_add_mod m 4
    have below : m % 4 < 4 := Nat.mod_lt _ (by decide)
    have found := pixel_byte fills (by omega : m / 4 < image.height * q) below
    rwa [getD_swapped below (by omega), whole] at found
  apply forall_congr'
  intro i
  apply forall_congr'
  intro column
  apply forall_congr'
  intro j
  apply forall_congr'
  intro line
  have within := index_lt pitch.width column line
  have less : j * (q * 3) ≤ j * (q * 4) := Nat.mul_le_mul_left _ (by omega)
  have rows : j * (q * 4) = j * q * 4 := by ring
  have read : MemBuf.readAt ⟨image.height * q * 4, accesses⟩ (j * rowstride + i * 4) 4 =
      some [image.pixels.getD (swapIndex (j * rowstride + i * 4)) 0,
        image.pixels.getD (swapIndex (j * rowstride + i * 4 + 1)) 0,
        image.pixels.getD (swapIndex (j * rowstride + i * 4 + 2)) 0,
        image.pixels.getD (swapIndex (j * rowstride + i * 4 + 3)) 0] := by
    refine readAt_of_bytes rfl ?_
    intro k below
    rw [three, byte _ (by omega)]
    match k, below with
    | 0, _ => rfl
    | 1, _ => rfl
    | 2, _ => rfl
    | 3, _ => rfl
  have here : image.pixel i j = [image.pixels.getD (j * image.rowstride + i * 4) 0,
      image.pixels.getD (j * image.rowstride + i * 4 + 1) 0,
      image.pixels.getD (j * image.rowstride + i * 4 + 2) 0,
      image.pixels.getD (j * image.rowstride + i * 4 + 3) 0] := by
    rw [Image.pixel, size, slice_four (by rw [stride, rows]; omega)]
  have aligned : (j * image.rowstride + i * 4) % 4 = 0 := by
    rw [stride, rows]
    omega
  have zero : swapIndex (j * image.rowstride + i * 4 + 0) = j * image.rowstride + i * 4 + 2 := if_pos aligned
  have one : swapIndex (j * image.rowstride + i * 4 + 1) = j * image.rowstride + i * 4 + 1 := by
    rw [swapIndex, if_neg (by omega), if_neg (by omega)]
  have two : swapIndex (j * image.rowstride + i * 4 + 2) = j * image.rowstride + i * 4 := by
    rw [swapIndex, if_neg (by omega), if_pos (by omega), Nat.add_sub_cancel]
  have last : swapIndex (j * image.rowstride + i * 4 + 3) = j * image.rowstride + i * 4 + 3 := by
    rw [swapIndex, if_neg (by omega), if_neg (by omega)]
  rw [format, here]
  refine (bgra_shows read).trans ?_
  constructor
  · rintro ⟨blue, green, red, alpha⟩ k below
    match k, below with
    | 0, _ => rwa [zero]
    | 1, _ => rwa [one]
    | 2, _ => rwa [two]
    | 3, _ => rwa [last]
  · intro same
    have blue := same 0 (by decide)
    have green := same 1 (by decide)
    have red := same 2 (by decide)
    have alpha := same 3 (by decide)
    rw [zero] at blue
    rw [one] at green
    rw [two] at red
    rw [last] at alpha
    exact ⟨blue, green, red, alpha⟩

theorem rgba_keeps_iff (format : image.pixelFormat = .RGBA) (packed : image.Packed) :
    KeepsPicture image rgbFormats supportsTransparency ↔
      (.BGRA ∈ rgbFormats ∧ supportsTransparency = true → image.Repeats) := by
  obtain ⟨size, unit, positive⟩ := four_size format rfl rfl
  obtain ⟨three, four⟩ := packed.three_quarters unit
  have start : argbSwap image rgbFormats supportsTransparency =
      if .BGRA ∈ rgbFormats ∧ supportsTransparency = true then
        swapTo (rgbaToBgra image.pixels) .BGRA (image.rowstride * 3 / 4)
      else if .RGB ∈ rgbFormats then swapTo (bgrxToRgb image.pixels) .RGB (image.rowstride * 3 / 4)
      else .ok none := by
    rw [argbSwap, if_neg (packed.there positive), packed.checked unit]
    simp only [format]
    rfl
  split at start
  · next swapped =>
      have pitch := packed.pitch (by rw [size, unit]) positive
      have sized : ∀ data : Bytes, data.length = image.pixelFormat.size →
          (bgraToRgbaPixel data).length = 4 := fun _ _ => store_length false 4 _
      obtain ⟨accesses, made, fills⟩ := pitch.converted packed positive (some emptymem) sized
      rw [size] at made fills pitch
      change argbSwap image rgbFormats supportsTransparency = swapTo (eachPixel 4 4 (some emptymem)
        bgraToRgbaPixel image.pixels) .BGRA (image.rowstride * 3 / 4) at start
      rw [made, swapTo_ok] at start
      rw [keepsPicture_iff start, forall_prop_of_true swapped]
      exact moved_keeps format size pitch fills three
  · next other =>
      refine ⟨fun _ swapped => absurd swapped other, fun _ => ?_⟩
      split at start
      · refine faithful_keeps packed start rfl (by decide) unit size rfl ?_ three
        intro data length
        obtain ⟨r, g, b, a, rfl⟩ := four_bytes length
        rw [bgrxToRgbPixel_eq, format]
        exact ⟨rfl, _, rfl, shows_of_same rfl ⟨rfl, rfl, rfl, nofun⟩⟩
      · exact keepsPicture_none start

end Formats

/-- What the targets that spoil the picture ask of it. -/
def Image.Survives (image : Image) (rgbFormats : List PixelFormat) (supportsTransparency : Bool) : Prop :=
  match image.pixelFormat with
  | .BGRX => .L ∈ rgbFormats → image.height = 1 ∧ image.Exchangeable
  | .BGRA => .LA ∈ rgbFormats → image.height = 1 ∧ image.Exchangeable
  | .RGBA => .BGRA ∈ rgbFormats ∧ supportsTransparency = true → image.Repeats
  | .RGB => .BGRX ∈ rgbFormats → image.Purple
  | _ => True

theorem argb_swap_keeps_iff (image : Image) (packed : image.Packed) (rgbFormats : List PixelFormat)
    (supportsTransparency : Bool) :
    KeepsPicture image rgbFormats supportsTransparency ↔
      image.Survives rgbFormats supportsTransparency := by
  have unhandled (returns : ∀ swapped, argbSwap image rgbFormats supportsTransparency ≠ .ok (some swapped)) :
      KeepsPicture image rgbFormats supportsTransparency ↔ True :=
    ⟨fun _ => trivial, fun _ swapped made => absurd made (returns swapped)⟩
  unfold Image.Survives
  cases format : image.pixelFormat with
  | r210 => exact iff_of_true (r210_keeps format packed) trivial
  | BGR565 => exact iff_of_true (bgr565_keeps format packed) trivial
  | BGRX => exact bgrx_keeps_iff format packed
  | BGRA => exact bgra_keeps_iff format packed
  | XRGB => exact iff_of_true (xrgb_keeps format packed) trivial
  | ARGB => exact iff_of_true (argb_keeps format packed) trivial
  | RGBA => exact rgba_keeps_iff format packed
  | RGBX => exact iff_of_true (rgbx_keeps format packed) trivial
  | RGB => exact rgb_keeps_iff format packed
  | L | LA | other =>
      apply unhandled
      intro swapped made
      unfold argbSwap at made
      simp only [format] at made
      split at made
      · cases made
      · cases made

theorem packed_pixel {format : PixelFormat} {pixels : Bytes} (size : pixels.length = format.size)
    (unit : format.strideUnit = format.size) (small : format.size ≤ 4) :
    Image.Packed ⟨format, 1, 1, format.size, pixels⟩ :=
  ⟨Nat.one_pos, Nat.one_pos, by rw [Nat.one_mul], by rw [unit, Nat.mod_self], by rw [size, Nat.one_mul],
    by rw [size]; omega⟩

/-- Two rows of a pixel, each padded to eight bytes. -/
def paddedRows : Image := ⟨.BGRA, 1, 2, 8, [1, 2, 3, 4, 0, 0, 0, 0, 5, 6, 7, 8, 0, 0, 0, 0]⟩

theorem argb_swap_keeps_rows :
    KeepsPicture paddedRows [.RGB] false ↔ Image.Survives paddedRows [.RGB] false :=
  argb_swap_keeps_iff paddedRows ⟨by decide, by decide, by decide, by decide, by decide, by decide⟩ [.RGB] false

/-- One pixel of RGB, to BGRX: red and blue are exchanged. -/
theorem not_argb_swap_keeps :
    ¬ ∀ (image : Image) (rgbFormats : List PixelFormat) (supportsTransparency : Bool),
      image.Packed → KeepsPicture image rgbFormats supportsTransparency := by
  intro all
  have packed : Image.Packed ⟨.RGB, 1, 1, 3, [1, 2, 3]⟩ := packed_pixel rfl rfl (by decide)
  have purple := (rgb_keeps_iff rfl packed).mp (all _ [.BGRX] false packed) (by decide)
  exact absurd (purple 0 Nat.one_pos 0 Nat.one_pos ⟨1, 2, 3, none⟩ rfl) (by decide)

end Catlink.Codecs.Argb
