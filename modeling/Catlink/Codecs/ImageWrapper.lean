import Catlink.Lib.Rows
import Catlink.Python

/-! Image wrappers: sub-images, and changes of the rowstride. -/

namespace Catlink.Codecs

open Rows

inductive PlanarFormat
  | packed
  | planar2
  | planar3
  | planar4
  | invalid
  deriving DecidableEq, Repr

structure ImageWrapper where
  x : Int
  y : Int
  targetX : Int
  targetY : Int
  width : Nat
  height : Nat
  pixels : Bytes
  pixelFormat : String
  depth : Nat
  rowstride : Nat
  bytesperpixel : Nat
  planes : PlanarFormat
  threadSafe : Bool
  freed : Bool
  palette : PyVal
  fullRange : Bool

/-- What the constructor uses when it is not told. -/
def defaultBytesperpixel : Nat := 4

namespace ImageWrapper

def init (x y : Int) (width height : Nat) (pixels : Bytes) (pixelFormat : String) (depth rowstride : Nat)
    (bytesperpixel : Nat) (planes : PlanarFormat) (threadSafe : Bool) (palette : PyVal)
    (fullRange : Bool) : Except Exn ImageWrapper :=
  if width = 0 ∨ height = 0 then
    .error (.valueError s!"invalid geometry {x},{y},{width},{height}")
  else
    .ok ⟨x, y, x, y, width, height, pixels, pixelFormat, depth, rowstride, bytesperpixel, planes,
      threadSafe, false, palette, fullRange⟩

variable (image : ImageWrapper)

def getSubImage (x y w h : Nat) : Except Exn ImageWrapper :=
  if w = 0 ∨ h = 0 then .error (.valueError s!"invalid sub-image size: {w}x{h}")
  else if x + w > image.width then
    .error (.valueError
      s!"invalid sub-image width: {x}+{w} greater than image width {image.width}")
  else if y + h > image.height then
    .error (.valueError
      s!"invalid sub-image height: {y}+{h} greater than image height {image.height}")
  else if image.planes ≠ .packed then .error (.other "cannot sub-divide a planar image!")
  else if x = 0 ∧ y = 0 ∧ w = image.width ∧ h = image.height then .ok image
  else
    let pos := y * image.rowstride + x * image.bytesperpixel
    let newstride := w * image.bytesperpixel
    let lines := rows image.pixels image.rowstride newstride h pos
    -- the bytes per pixel are not passed on
    match init (image.x + x) (image.y + y) w h lines.flatten image.pixelFormat image.depth newstride
        defaultBytesperpixel image.planes true image.palette image.fullRange with
    | .ok sub => .ok { sub with targetX := image.targetX + x, targetY := image.targetY + y }
    | .error e => .error e

/-- A line as long as the rowstride. -/
def padLine (rowstride : Nat) (line : Bytes) : Bytes := line ++ List.replicate (rowstride - line.length) 0

/-- The lines from the last one on, as far as one that is long enough. -/
def padLines (rowstride : Nat) : List Bytes → List Bytes
  | [] => []
  | line :: before =>
      if line.length < rowstride then padLine rowstride line :: padLines rowstride before
      else line :: before

def restride (rowstride : Nat) : Except Exn (ImageWrapper × Bool) :=
  if image.freed then .error (.runtimeError "image wrapper has already been freed")
  else if image.planes ≠ .packed ∧ image.planes ≠ .invalid then .ok (image, false)
  else if image.pixels = [] then .error (.assertionError "no pixel data to restride")
  else
    let lines := rows image.pixels image.rowstride rowstride image.height 0
    let padded :=
      if 0 < image.height ∧ image.rowstride < rowstride then (padLines rowstride lines.reverse).reverse
      else lines
    .ok ({ image with rowstride, pixels := padded.flatten }, true)

/-- `(n + m - 1) & ~(m - 1)` -/
def roundup (n m : Nat) : Nat := (n + m - 1) - ((n + m - 1) &&& (m - 1))

def mayRestride : Except Exn (ImageWrapper × Bool) :=
  let newstride := roundup (image.width * image.bytesperpixel) 4
  if image.rowstride > newstride then image.restride newstride else .ok (image, false)

/-- The bytes of a pixel, by the image's own rowstride and bytes per pixel. -/
def pixel (i j : Nat) : Option Bytes :=
  readAt image.pixels (j * image.rowstride + i * image.bytesperpixel) image.bytesperpixel

/-- A packed image with its pixels, of which the last line may lack its padding. -/
structure Packed : Prop where
  planes : image.planes = .packed
  unfreed : image.freed = false
  width : 0 < image.width
  height : 0 < image.height
  bytesperpixel : 0 < image.bytesperpixel
  rowstride : image.width * image.bytesperpixel ≤ image.rowstride
  pixels : (image.height - 1) * image.rowstride + image.width * image.bytesperpixel ≤ image.pixels.length

/-- A rectangle of the image. -/
structure Inside (x y w h : Nat) : Prop where
  width : 0 < w
  height : 0 < h
  right : x + w ≤ image.width
  bottom : y + h ≤ image.height

/-- All of it. -/
def Whole (x y w h : Nat) : Prop := x = 0 ∧ y = 0 ∧ w = image.width ∧ h = image.height

end ImageWrapper

namespace ImageWrapper

variable {image : ImageWrapper} {x y w h : Nat}

/-! ### Rows of pixels -/

/-- Part of a row of pixels is within the buffer. -/
theorem Packed.row_inside (packed : image.Packed) {i j n : Nat} (column : i + n ≤ image.width)
    (row : j < image.height) :
    j * image.rowstride + i * image.bytesperpixel + n * image.bytesperpixel ≤ image.pixels.length := by
  have above : j * image.rowstride ≤ (image.height - 1) * image.rowstride :=
    Nat.mul_le_mul_right _ (by omega)
  have within : (i + n) * image.bytesperpixel ≤ image.width * image.bytesperpixel :=
    Nat.mul_le_mul_right _ column
  have enough := packed.pixels
  rw [Nat.add_mul] at within
  omega

theorem Packed.pixel_some (packed : image.Packed) {i j : Nat} (column : i < image.width)
    (row : j < image.height) :
    image.pixel i j = some (slice image.pixels (j * image.rowstride + i * image.bytesperpixel)
      image.bytesperpixel) := by
  apply readAt_some
  have inside := packed.row_inside (n := 1) column row
  rwa [Nat.one_mul] at inside

theorem pixel_length {i j : Nat} {found : Bytes} (read : image.pixel i j = some found) :
    found.length = image.bytesperpixel := readAt_length read

/-! ### Sub-images -/

/-- The lines that a sub-image takes. -/
def subLines (image : ImageWrapper) (x y w h : Nat) : List Bytes :=
  rows image.pixels image.rowstride (w * image.bytesperpixel) h
    (y * image.rowstride + x * image.bytesperpixel)

def subImage (image : ImageWrapper) (x y w h : Nat) : ImageWrapper :=
  { x := image.x + x, y := image.y + y, targetX := image.targetX + x, targetY := image.targetY + y
    width := w, height := h, pixels := (image.subLines x y w h).flatten
    pixelFormat := image.pixelFormat, depth := image.depth, rowstride := w * image.bytesperpixel
    bytesperpixel := defaultBytesperpixel, planes := image.planes, threadSafe := true, freed := false
    palette := image.palette, fullRange := image.fullRange }

theorem getSubImage_whole (packed : image.planes = .packed) (inside : image.Inside x y w h)
    (whole : image.Whole x y w h) : image.getSubImage x y w h = .ok image := by
  obtain ⟨width, height, right, bottom⟩ := inside
  unfold Whole at whole
  rw [getSubImage, if_neg (by omega), if_neg (by omega), if_neg (by omega), if_neg (not_not.mpr packed),
    if_pos whole]

theorem getSubImage_part (packed : image.planes = .packed) (inside : image.Inside x y w h)
    (part : ¬ image.Whole x y w h) : image.getSubImage x y w h = .ok (image.subImage x y w h) := by
  obtain ⟨width, height, right, bottom⟩ := inside
  unfold Whole at part
  rw [getSubImage, if_neg (by omega), if_neg (by omega), if_neg (by omega), if_neg (not_not.mpr packed),
    if_neg part]
  simp only [init, if_neg (show ¬ (w = 0 ∨ h = 0) by omega)]
  rfl

theorem subLines_full (packed : image.Packed) (inside : image.Inside x y w h) {j : Nat} {line : Bytes}
    (there : (image.subLines x y w h)[j]? = some line) : line.length = w * image.bytesperpixel := by
  obtain ⟨short, -⟩ := List.getElem?_eq_some_iff.mp there
  rw [subLines, rows_length] at short
  rw [subLines, rows_getElem _ _ _ short] at there
  cases there
  have row := packed.row_inside (j := y + j) inside.right (by have := inside.bottom; omega)
  rw [slice_length]
  rw [Nat.add_mul] at row
  omega

/-- What stands in a row of the sub-image's bytes. -/
theorem subLines_read (packed : image.Packed) (inside : image.Inside x y w h) {i j n : Nat}
    (column : i + n ≤ w) (row : j < h) :
    readAt (image.subLines x y w h).flatten
        (j * (w * image.bytesperpixel) + i * image.bytesperpixel) (n * image.bytesperpixel) =
      some (slice image.pixels ((y + j) * image.rowstride + (x + i) * image.bytesperpixel)
        (n * image.bytesperpixel)) := by
  have line : (image.subLines x y w h)[j]? = _ := rows_getElem _ _ _ row
  refine readAt_flatten line (fun k _ l there => subLines_full packed inside there) ?_
  have place : y * image.rowstride + x * image.bytesperpixel + j * image.rowstride +
      i * image.bytesperpixel = (y + j) * image.rowstride + (x + i) * image.bytesperpixel := by ring
  apply readAt_slice
  · rw [place]
    apply readAt_some
    apply packed.row_inside
    · have right := inside.right
      omega
    · have bottom := inside.bottom
      omega
  · rw [← Nat.add_mul]
    exact Nat.mul_le_mul_right _ column

theorem subImage_pixel (packed : image.Packed) (inside : image.Inside x y w h)
    (four : image.bytesperpixel = defaultBytesperpixel) {i j : Nat} (column : i < w) (row : j < h) :
    (image.subImage x y w h).pixel i j = image.pixel (x + i) (y + j) := by
  have right := inside.right
  have bottom := inside.bottom
  rw [packed.pixel_some (by omega) (by omega)]
  have read := subLines_read packed inside (n := 1) column row
  rw [Nat.one_mul] at read
  rw [pixel, subImage, ← four]
  exact read

/-- Its pixels are taken to have four bytes. -/
theorem subImage_pixel_differs (packed : image.Packed) (inside : image.Inside x y w h)
    (other : image.bytesperpixel ≠ defaultBytesperpixel) {i j : Nat} (column : i < w) (row : j < h) :
    (image.subImage x y w h).pixel i j ≠ image.pixel (x + i) (y + j) := by
  have right := inside.right
  have bottom := inside.bottom
  intro same
  have original := packed.pixel_some (i := x + i) (j := y + j) (by omega) (by omega)
  have length := pixel_length original
  have length' := pixel_length (same.trans original)
  exact other (length.symm.trans length')

theorem subImage_subImage (packed : image.Packed) (inside : image.Inside x y w h)
    (four : image.bytesperpixel = defaultBytesperpixel) {x' y' w' h' : Nat}
    (nested : (image.subImage x y w h).Inside x' y' w' h') :
    (image.subImage x y w h).subImage x' y' w' h' = image.subImage (x + x') (y + y') w' h' := by
  have lines : (image.subImage x y w h).subLines x' y' w' h' = image.subLines (x + x') (y + y') w' h' := by
    have bytes : (image.subImage x y w h).bytesperpixel = image.bytesperpixel := four.symm
    rw [subLines, subLines, bytes]
    apply rows_congr
    intro k row
    have bottom : y' + h' ≤ h := nested.bottom
    have read := subLines_read packed inside (i := x') (n := w') (j := y' + k) nested.right (by omega)
    have same := (readAt_eq_some.mp read).2
    calc
      _ = slice (image.subLines x y w h).flatten
          ((y' + k) * (w * image.bytesperpixel) + x' * image.bytesperpixel)
          (w' * image.bytesperpixel) := by
        simp only [subImage]
        congr 1
        ring
      _ = _ := same
      _ = _ := by
        congr 1
        ring
  rw [subImage, lines, subImage, subImage]
  simp only [four, Nat.cast_add, Int.add_assoc]

theorem getSubImage_subImage (packed : image.Packed) (inside : image.Inside x y w h)
    (part : ¬ image.Whole x y w h) (four : image.bytesperpixel = defaultBytesperpixel)
    {x' y' w' h' : Nat} (nested : (image.subImage x y w h).Inside x' y' w' h') :
    (image.subImage x y w h).getSubImage x' y' w' h' =
      image.getSubImage (x + x') (y + y') w' h' := by
  have right : x' + w' ≤ w := nested.right
  have bottom : y' + h' ≤ h := nested.bottom
  have rightmost := inside.right
  have lowest := inside.bottom
  have composed : image.Inside (x + x') (y + y') w' h' :=
    ⟨nested.width, nested.height, by omega, by omega⟩
  have less : ¬ image.Whole (x + x') (y + y') w' h' := by
    rintro ⟨left, top, width, height⟩
    exact part ⟨by omega, by omega, by omega, by omega⟩
  rw [getSubImage_part packed.planes composed less]
  have planes : (image.subImage x y w h).planes = .packed := packed.planes
  by_cases all : (image.subImage x y w h).Whole x' y' w' h'
  · rw [getSubImage_whole planes nested all]
    obtain ⟨rfl, rfl, rfl, rfl⟩ := all
    rfl
  · rw [getSubImage_part planes nested all, subImage_subImage packed inside four nested]

/-! ### Restriding -/

theorem padLine_length {rowstride : Nat} {line : Bytes} (short : line.length ≤ rowstride) :
    (padLine rowstride line).length = rowstride := by
  rw [padLine, List.length_append, List.length_replicate]
  omega

theorem padLine_full {rowstride : Nat} {line : Bytes} (full : line.length = rowstride) :
    padLine rowstride line = line := by
  rw [padLine, full, Nat.sub_self, List.replicate_zero, List.append_nil]

/-- As the lines only get longer towards the first, the others need no padding. -/
theorem padLines_eq_map {rowstride : Nat} {lines : List Bytes}
    (short : ∀ line ∈ lines, line.length ≤ rowstride)
    (longer : lines.Pairwise fun line before => line.length ≤ before.length) :
    padLines rowstride lines = lines.map (padLine rowstride) := by
  induction lines with
  | nil => rfl
  | cons line before ih =>
      obtain ⟨first, rest⟩ := List.pairwise_cons.mp longer
      have shorts := fun other member => short other (List.mem_cons_of_mem line member)
      rw [padLines]
      split
      · rw [ih shorts rest, List.map_cons]
      · rename_i full
        have whole : ∀ other ∈ line :: before, padLine rowstride other = other := by
          intro other member
          apply padLine_full
          rcases List.mem_cons.mp member with rfl | member
          · have bound := short other List.mem_cons_self
            omega
          · have bound := shorts other member
            have more := first other member
            omega
        rw [List.map_congr_left whole, List.map_id']

/-- The lines of the new buffer. -/
def newLines (image : ImageWrapper) (rowstride : Nat) : List Bytes :=
  let lines := rows image.pixels image.rowstride rowstride image.height 0
  if image.rowstride < rowstride then lines.map (padLine rowstride) else lines

theorem restride_eq (packed : image.Packed) (rowstride : Nat) :
    image.restride rowstride =
      .ok ({ image with rowstride, pixels := (image.newLines rowstride).flatten }, true) := by
  have some : image.pixels ≠ [] := by
    intro none
    have enough := packed.pixels
    have bytes := Nat.mul_pos packed.width packed.bytesperpixel
    rw [none, List.length_nil] at enough
    omega
  have planar : ¬ (image.planes ≠ .packed ∧ image.planes ≠ .invalid) := fun both => both.1 packed.planes
  rw [restride, packed.unfreed, if_neg Bool.false_ne_true, if_neg planar, if_neg some, newLines]
  by_cases wider : image.rowstride < rowstride
  · have reversed : (padLines rowstride
        (rows image.pixels image.rowstride rowstride image.height 0).reverse).reverse =
        (rows image.pixels image.rowstride rowstride image.height 0).map (padLine rowstride) := by
      rw [padLines_eq_map, List.map_reverse, List.reverse_reverse]
      · intro line member
        exact rows_short (List.mem_reverse.mp member)
      · rw [List.pairwise_reverse]
        exact rows_longer _ _ _ _ _
    simp only [if_pos wider, if_pos (And.intro packed.height wider), reversed]
  · simp only [if_neg wider, if_neg fun both : 0 < image.height ∧ _ => wider both.2]

theorem newLines_getElem {rowstride j : Nat} (row : j < image.height) :
    (image.newLines rowstride)[j]? =
      some (if image.rowstride < rowstride then
        padLine rowstride (slice image.pixels (j * image.rowstride) rowstride)
      else slice image.pixels (j * image.rowstride) rowstride) := by
  have there : (rows image.pixels image.rowstride rowstride image.height 0)[j]? = _ :=
    rows_getElem _ _ _ row
  rw [Nat.zero_add] at there
  rw [newLines]
  split
  · rw [List.getElem?_map, there]
    rfl
  · exact there

/-- The new lines before another one are as long as the new rowstride. -/
theorem newLines_full (packed : image.Packed) {rowstride j k : Nat} (before : k < j)
    (row : j < image.height) {line : Bytes} (there : (image.newLines rowstride)[k]? = some line) :
    line.length = rowstride := by
  rw [newLines_getElem (before.trans row)] at there
  cases there
  split
  · apply padLine_length
    rw [slice_length]
    exact Nat.min_le_left _ _
  · rename_i narrow
    have above : (k + 1) * image.rowstride ≤ (image.height - 1) * image.rowstride :=
      Nat.mul_le_mul_right _ (by omega)
    have enough := packed.pixels
    rw [Nat.succ_mul] at above
    rw [slice_length]
    omega

/-- What stands in a row is there after the change too. -/
theorem newLines_read (packed : image.Packed) {rowstride i j n : Nat} {found : Bytes}
    (row : j < image.height) (within : i + n ≤ rowstride)
    (read : readAt image.pixels (j * image.rowstride + i) n = some found) :
    readAt (image.newLines rowstride).flatten (j * rowstride + i) n = some found := by
  refine readAt_flatten (newLines_getElem row)
    (fun k before line there => newLines_full packed before row there) ?_
  have sliced := readAt_slice read within
  split
  · exact readAt_append_left sliced _
  · exact sliced

theorem restride_pixel (packed : image.Packed) {rowstride : Nat}
    (wide : image.width * image.bytesperpixel ≤ rowstride) :
    ∃ changed, image.restride rowstride = .ok (changed, true) ∧ changed.Packed ∧
      ∀ i < image.width, ∀ j < image.height, changed.pixel i j = image.pixel i j := by
  refine ⟨_, restride_eq packed rowstride, ?_, ?_⟩
  · refine ⟨packed.planes, packed.unfreed, packed.width, packed.height, packed.bytesperpixel, wide, ?_⟩
    have height := packed.height
    have last : (image.height - 1) * image.rowstride + 0 + image.width * image.bytesperpixel ≤
        image.pixels.length := packed.pixels
    have read : readAt (image.newLines rowstride).flatten _ _ = _ :=
      newLines_read packed (Nat.sub_one_lt_of_lt height) (by rwa [Nat.zero_add]) (readAt_some last)
    rw [Nat.add_zero] at read
    exact (readAt_eq_some.mp read).1
  · intro i column j row
    rw [packed.pixel_some column row, pixel]
    apply newLines_read packed row
    · calc
        i * image.bytesperpixel + image.bytesperpixel = (i + 1) * image.bytesperpixel := (Nat.succ_mul _ _).symm
        _ ≤ image.width * image.bytesperpixel := Nat.mul_le_mul_right _ column
        _ ≤ rowstride := wide
    · exact packed.pixel_some column row

theorem mayRestride_pixel (packed : image.Packed) :
    ∃ changed done, image.mayRestride = .ok (changed, done) ∧ changed.Packed ∧
      ∀ i < image.width, ∀ j < image.height, changed.pixel i j = image.pixel i j := by
  unfold mayRestride
  dsimp only
  split
  · have wide : image.width * image.bytesperpixel ≤ roundup (image.width * image.bytesperpixel) 4 := by
      have rest := Nat.and_two_pow_sub_one_eq_mod (image.width * image.bytesperpixel + 4 - 1) 2
      rw [roundup, show (4 - 1 : Nat) = 2 ^ 2 - 1 from rfl, rest]
      omega
    obtain ⟨changed, done, still, same⟩ := restride_pixel packed wide
    exact ⟨changed, true, done, still, same⟩
  · exact ⟨image, false, rfl, packed, fun _ _ _ _ => rfl⟩

/-! ### What is preserved -/

/-- Sub-images, sub-images of these and a new rowstride all leave the pixels as they were. -/
structure Preserved (image : ImageWrapper) (x y w h x' y' w' h' rowstride : Nat) : Prop where
  subImage : ∃ sub, image.getSubImage x y w h = .ok sub ∧
    (∀ i < w, ∀ j < h, sub.pixel i j = image.pixel (x + i) (y + j)) ∧
    sub.targetX = image.targetX + x ∧ sub.targetY = image.targetY + y ∧
    sub.getSubImage x' y' w' h' = image.getSubImage (x + x') (y + y') w' h'
  restrided : ∃ changed, image.restride rowstride = .ok (changed, true) ∧
    ∀ i < image.width, ∀ j < image.height, changed.pixel i j = image.pixel i j

/-- The sub-image is not told the bytes per pixel: they are right if they are four, or if it is the
image itself. -/
theorem sub_images_preserved_iff (packed : image.Packed) (inside : image.Inside x y w h)
    {x' y' w' h' rowstride : Nat} (width : 0 < w') (height : 0 < h') (right : x' + w' ≤ w)
    (bottom : y' + h' ≤ h) (wide : image.width * image.bytesperpixel ≤ rowstride) :
    Preserved image x y w h x' y' w' h' rowstride ↔
      image.bytesperpixel = 4 ∨ (x = 0 ∧ y = 0 ∧ w = image.width ∧ h = image.height) := by
  obtain ⟨changed, done, -, same⟩ := restride_pixel packed wide
  by_cases whole : image.Whole x y w h
  · refine ⟨fun _ => .inr whole, fun _ => ⟨⟨image, getSubImage_whole packed.planes inside whole, ?_⟩,
      changed, done, same⟩⟩
    obtain ⟨rfl, rfl, -, -⟩ := whole
    simp only [Nat.zero_add, Nat.cast_zero, Int.add_zero, implies_true, and_self]
  · have part := getSubImage_part packed.planes inside whole
    constructor
    · rintro ⟨⟨sub, taken, pixels, -⟩, -⟩
      rw [part] at taken
      cases taken
      by_contra other
      push Not at other
      exact subImage_pixel_differs packed inside other.1 inside.width inside.height
        (pixels 0 inside.width 0 inside.height)
    · rintro (four | all)
      · exact ⟨⟨_, part, fun i column j row => subImage_pixel packed inside four column row, rfl, rfl,
          getSubImage_subImage packed inside whole four ⟨width, height, right, bottom⟩⟩, changed, done, same⟩
      · exact absurd all whole

/-- A red and a green pixel, without the padding of their line. -/
def rgbImage (bytesperpixel : Nat) (pixels : Bytes) : ImageWrapper :=
  ⟨10, 20, 10, 20, 2, 1, pixels, "RGB", 24, 8, bytesperpixel, .packed, true, false, .none, true⟩

theorem sub_images_preserved_rgbx :
    Preserved (rgbImage 4 [255, 0, 0, 0, 0, 255, 0, 0]) 1 0 1 1 0 0 1 1 12 :=
  (sub_images_preserved_iff ⟨rfl, rfl, by decide, by decide, by decide, by decide, by decide⟩
    ⟨by decide, by decide, by decide, by decide⟩ (by decide) (by decide) (by decide) (by decide)
    (by decide)).mpr (.inl rfl)

theorem not_sub_images_preserved :
    ¬ ∀ (image : ImageWrapper) (x y w h x' y' w' h' rowstride : Nat), image.Packed →
      image.Inside x y w h → 0 < w' → 0 < h' → x' + w' ≤ w → y' + h' ≤ h →
      image.width * image.bytesperpixel ≤ rowstride →
      Preserved image x y w h x' y' w' h' rowstride := by
  intro claim
  obtain ⟨⟨sub, taken, pixels, -⟩, -⟩ := claim (rgbImage 3 [255, 0, 0, 0, 255, 0]) 0 0 1 1 0 0 1 1 6
    ⟨rfl, rfl, by decide, by decide, by decide, by decide, by decide⟩
    ⟨by decide, by decide, by decide, by decide⟩ (by decide) (by decide) (by decide) (by decide)
    (by decide)
  have part : (rgbImage 3 [255, 0, 0, 0, 255, 0]).getSubImage 0 0 1 1 =
      .ok ((rgbImage 3 [255, 0, 0, 0, 255, 0]).subImage 0 0 1 1) := rfl
  rw [part] at taken
  cases taken
  exact absurd (pixels 0 (by decide) 0 (by decide)) (by decide)

end ImageWrapper

end Catlink.Codecs
