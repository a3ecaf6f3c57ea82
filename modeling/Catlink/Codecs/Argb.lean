import Catlink.Lib.Accesses
import Catlink.Lib.BigEndian
import Catlink.Lib.Rows
import Catlink.Python

/-! The RGB conversions: loops over the pixels of a buffer, and the choice between them. -/

namespace Catlink.Codecs.Argb

open Accesses BigEndian Rows

/-! ### Buffers -/

/-- A length that is passed as an `int`. -/
def cInt (n : Nat) : Int :=
  if n % 2 ^ 32 < 2 ^ 31 then ((n % 2 ^ 32 : Nat) : Int) else ((n % 2 ^ 32 : Nat) : Int) - 2 ^ 32

/-- `getbuf(size, 0)`, and what is written to it. -/
structure MemBuf where
  size : Nat
  accesses : List (Access UInt8)
  deriving DecidableEq

def emptymem : MemBuf := ⟨0, []⟩

/-- A byte of the buffer, if it was written. -/
def MemBuf.byte? (buf : MemBuf) (k : Nat) : Option UInt8 :=
  if k < buf.size then written buf.accesses k else none

/-- What a conversion returns: a buffer or `None`. -/
abbrev Converted := Except Exn (Option MemBuf)

/-- Bytes written one after another, all from what was read. -/
def stores (reads : List Nat) (index : Nat) (data : Bytes) : List (Access UInt8) :=
  (List.range data.length).map fun k => ⟨reads, index + k, data.getD k 0⟩

/-! ### Pixels of a fixed size -/

/-- Pixel `i` is converted, and written to its place in the output. -/
def pixelAccesses (inSize outSize : Nat) (pixel : Bytes → Bytes) (buf : Bytes) (i : Nat) :
    List (Access UInt8) :=
  stores ((List.range inSize).map (inSize * i + ·)) (outSize * i) (pixel (slice buf (inSize * i) inSize))

/-- The shape of most conversions. `nothing` is returned for a length that is not positive. -/
def eachPixel (inSize outSize : Nat) (nothing : Option MemBuf) (pixel : Bytes → Bytes) (buf : Bytes) :
    Converted :=
  if buf.length % inSize ≠ 0 then
    .error (.assertionError s!"invalid buffer size: {buf.length} is not a multiple of {inSize}")
  else if cInt buf.length ≤ 0 then .ok nothing
  else if cInt buf.length % inSize ≠ 0 then
    .error (.assertionError s!"invalid buffer size: {cInt buf.length} is not a multiple of {inSize}")
  else
    let mi := (cInt buf.length).toNat / inSize
    .ok (some ⟨mi * outSize, (List.range mi).flatMap (pixelAccesses inSize outSize pixel buf)⟩)

/-- A word of a little-endian machine. -/
def word (data : Bytes) : Nat := load false data

/-- `n & 0xFF`, in an `unsigned char`. -/
def low (n : Nat) : UInt8 := UInt8.ofNat (n &&& 0xFF)

/-- `(r*3+b+g*4)>>3` -/
def luminance (r g b : UInt8) : UInt8 := UInt8.ofNat ((r.toNat * 3 + b.toNat + g.toNat * 4) >>> 3)

def bgr565ToRgbxPixel (data : Bytes) : Bytes :=
  let v := word data
  store false 4 (0xff000000 ||| ((((v &&& 0xF800) >>> 8) ||| ((v &&& 0x07E0) <<< 5)) |||
    ((v &&& 0x001F) <<< 19)))

def bgr565ToRgbx : Bytes → Converted := eachPixel 2 4 (some emptymem) bgr565ToRgbxPixel

def bgr565ToRgbPixel (data : Bytes) : Bytes :=
  let v := word data
  [UInt8.ofNat ((v &&& 0xF800) >>> 8), UInt8.ofNat ((v &&& 0x07E0) >>> 3),
    UInt8.ofNat ((v &&& 0x001F) <<< 3)]

def bgr565ToRgb : Bytes → Converted := eachPixel 2 3 (some emptymem) bgr565ToRgbPixel

def bgrxToRgbPixel (data : Bytes) : Bytes :=
  let p := word data
  [low p, low (p >>> 8), low (p >>> 16)]

def bgrxToRgb : Bytes → Converted := eachPixel 4 3 none bgrxToRgbPixel

def rgbToBgrxPixel (rgb : Bytes) : Bytes :=
  store false 4 ((rgb.getD 0 0).toNat + ((rgb.getD 1 0).toNat <<< 8) + ((rgb.getD 2 0).toNat <<< 16))

def rgbToBgrx : Bytes → Converted := eachPixel 3 4 none rgbToBgrxPixel

def bgrxToLPixel (data : Bytes) : Bytes :=
  let p := word data
  let r := low p
  let g := low (p >>> 8)
  let b := low (p >>> 16)
  [luminance r g b]

def bgrxToL : Bytes → Converted := eachPixel 4 1 (some emptymem) bgrxToLPixel

def bgraToLaPixel (data : Bytes) : Bytes :=
  let p := word data
  let r := low p
  let g := low (p >>> 8)
  let b := low (p >>> 16)
  let a := low (p >>> 24)
  [luminance r g b, a]

def bgraToLa : Bytes → Converted := eachPixel 4 2 (some emptymem) bgraToLaPixel

def argbToRgbaPixel (data : Bytes) : Bytes :=
  let p := word data
  store false 4 ((p >>> 8) ||| ((p &&& 0xff) <<< 24))

def argbToRgba : Bytes → Converted := eachPixel 4 4 (some emptymem) argbToRgbaPixel

def argbToRgbPixel (data : Bytes) : Bytes :=
  let p := word data
  [low (p >>> 8), low (p >>> 16), low (p >>> 24)]

def argbToRgb : Bytes → Converted := eachPixel 4 3 (some emptymem) argbToRgbPixel

def bgraToRgbPixel (data : Bytes) : Bytes :=
  let p := word data
  [low (p >>> 16), low (p >>> 8), low p]

def bgraToRgb : Bytes → Converted := eachPixel 4 3 (some emptymem) bgraToRgbPixel

def bgraToRgbaPixel (data : Bytes) : Bytes :=
  let p := word data
  store false 4 (((((p >>> 16) &&& 0xff) ||| (p &&& 0xff00)) ||| ((p &&& 0xff) <<< 16)) |||
    (p &&& 0xff000000))

def bgraToRgba : Bytes → Converted := eachPixel 4 4 (some emptymem) bgraToRgbaPixel

/-- Just a swap. -/
def rgbaToBgra : Bytes → Converted := bgraToRgba

def bgraToRgbxPixel (bgra : Bytes) : Bytes := [bgra.getD 2 0, bgra.getD 1 0, bgra.getD 0 0, 0xff]

def bgraToRgbx : Bytes → Converted := eachPixel 4 4 (some emptymem) bgraToRgbxPixel

/-! ### Luminance of three bytes -/

/-- The loop of `rgbdata_to_l`, with `fuel` for its turns. -/
def lumaLoop (rgb : Bytes) (rindex gindex bindex mi : Nat) : Nat → Nat → List (Access UInt8)
  | 0, _ => []
  | fuel + 1, i =>
      if i < mi then
        ⟨[i + rindex, i + gindex, i + bindex], i,
          luminance (rgb.getD (i + rindex) 0) (rgb.getD (i + gindex) 0) (rgb.getD (i + bindex) 0)⟩ ::
            lumaLoop rgb rindex gindex bindex mi fuel (i + 3)
      else []

def rgbdataToL (rindex gindex bindex : Nat) (rgb : Bytes) : Converted :=
  if rgb.length % 3 ≠ 0 then
    .error (.assertionError s!"invalid buffer size: {rgb.length} is not a multiple of 3")
  else if cInt rgb.length ≤ 0 then .ok none
  else if cInt rgb.length % 3 ≠ 0 then
    .error (.assertionError s!"invalid buffer size: {cInt rgb.length} is not a multiple of 3")
  else
    let mi := (cInt rgb.length).toNat / 3
    .ok (some ⟨mi, lumaLoop rgb rindex gindex bindex mi mi 0⟩)

def bgrToL : Bytes → Converted := rgbdataToL 2 1 0

def rgbToL : Bytes → Converted := rgbdataToL 0 1 2

/-! ### Rows of r210 -/

/-- Every row is converted, from one stride to another. -/
def r210Rows (outSize : Nat) (pixel : Bytes → Bytes) (buf : Bytes) (w h srcStride dstStride : Nat) :
    Converted :=
  if srcStride < w * 4 then
    .error (.assertionError s!"invalid source stride {srcStride} for width {w}")
  else if dstStride < w * outSize then
    .error (.assertionError s!"invalid destination stride {dstStride} for width {w}")
  else if buf.length < h * srcStride then
    .error (.assertionError
      s!"source buffer is {buf.length} bytes, which is too small for {srcStride}x{h}")
  else
    .ok (some ⟨h * dstStride, (List.range h).flatMap fun y => (List.range w).flatMap fun x =>
      stores ((List.range 4).map (y * srcStride + 4 * x + ·)) (y * dstStride + outSize * x)
        (pixel (slice buf (y * srcStride + 4 * x) 4))⟩)

def r210ToRgbxPixel (data : Bytes) : Bytes :=
  let v := word data
  store false 4 ((((v &&& 0x3fc00000) >>> 22 ||| (v &&& 0x000ff000) >>> 4) |||
    (v &&& 0x000003fc) <<< 14) ||| 0xff000000)

def r210ToRgbx : Bytes → Nat → Nat → Nat → Nat → Converted := r210Rows 4 r210ToRgbxPixel

def r210ToRgbPixel (data : Bytes) : Bytes :=
  let v := word data
  [UInt8.ofNat ((v &&& 0x3ff00000) >>> 22), UInt8.ofNat ((v &&& 0x000ffc00) >>> 12),
    UInt8.ofNat ((v &&& 0x000003ff) >>> 2)]

def r210ToRgb : Bytes → Nat → Nat → Nat → Nat → Converted := r210Rows 3 r210ToRgbPixel

/-! ### The choice -/

inductive PixelFormat
  | r210
  | BGR565
  | BGRX
  | BGRA
  | XRGB
  | ARGB
  | RGBA
  | RGBX
  | RGB
  | L
  | LA
  | other (name : String)
  deriving DecidableEq

def PixelFormat.name : PixelFormat → String
  | r210 => "r210"
  | BGR565 => "BGR565"
  | BGRX => "BGRX"
  | BGRA => "BGRA"
  | XRGB => "XRGB"
  | ARGB => "ARGB"
  | RGBA => "RGBA"
  | RGBX => "RGBX"
  | RGB => "RGB"
  | L => "L"
  | LA => "LA"
  | other name => name

/-- What `argb_swap` looks at. -/
structure Image where
  pixelFormat : PixelFormat
  width : Nat
  height : Nat
  rowstride : Nat
  pixels : Bytes

/-- What it sets. -/
structure Swapped where
  pixelFormat : PixelFormat
  rowstride : Nat
  pixels : Option MemBuf

def checkstride (image : Image) (div : Nat) : Except Exn Unit :=
  if image.rowstride % div ≠ 0 then
    .error (.valueError s!"invalid rowstride for {image.pixelFormat.name}, {image.rowstride} is not a multiple of {div}")
  else .ok ()

/-- The pixels, the pixel format and the row stride are set, and `True` is returned. -/
def swapTo (converted : Converted) (pixelFormat : PixelFormat) (rowstride : Nat) :
    Except Exn (Option Swapped) := do
  let pixels ← converted
  .ok (some ⟨pixelFormat, rowstride, pixels⟩)

/-- Nothing when it returns `False`. -/
def argbSwap (image : Image) (rgbFormats : List PixelFormat) (supportsTransparency : Bool) :
    Except Exn (Option Swapped) :=
  let pixels := image.pixels
  let rs := image.rowstride
  if pixels = [] then .error (.assertionError "failed to get pixels")
  else
    match image.pixelFormat with
    | .r210 => do
        checkstride image 4
        let w := image.width
        let h := image.height
        if .RGB ∈ rgbFormats then swapTo (r210ToRgb pixels w h rs (w * 3)) .RGB (w * 3)
        else if .RGBX ∈ rgbFormats then swapTo (r210ToRgbx pixels w h rs (w * 4)) .RGBX (w * 4)
        else .ok none
    | .BGR565 => do
        checkstride image 2
        if .RGB ∈ rgbFormats then swapTo (bgr565ToRgb pixels) .RGB (rs * 3 / 2)
        else if .RGBX ∈ rgbFormats then swapTo (bgr565ToRgbx pixels) .RGBX (rs * 2)
        else .ok none
    | .BGRX => do
        checkstride image 4
        -- the row stride is not set
        if .L ∈ rgbFormats then swapTo (bgrxToL pixels) .L rs
        else if .RGB ∈ rgbFormats then swapTo (bgraToRgb pixels) .RGB (rs * 3 / 4)
        else if .RGBX ∈ rgbFormats then swapTo (bgraToRgbx pixels) .RGBX rs
        else .ok none
    | .BGRA => do
        checkstride image 4
        if .LA ∈ rgbFormats then swapTo (bgraToLa pixels) .LA rs
        else if supportsTransparency = true ∧ .RGBA ∈ rgbFormats then
          swapTo (bgraToRgba pixels) .RGBA rs
        else if .RGB ∈ rgbFormats then swapTo (bgraToRgb pixels) .RGB (rs * 3 / 4)
        else if .RGBX ∈ rgbFormats then swapTo (bgraToRgbx pixels) .RGBX rs
        else .ok none
    | .XRGB => do
        checkstride image 4
        if .RGB ∈ rgbFormats then swapTo (argbToRgb pixels) .RGB (rs * 3 / 4) else .ok none
    | .ARGB => do
        checkstride image 4
        if supportsTransparency = true ∧ .RGBA ∈ rgbFormats then
          swapTo (argbToRgba pixels) .RGBA rs
        else if .RGB ∈ rgbFormats then swapTo (argbToRgb pixels) .RGB (rs * 3 / 4)
        else .ok none
    | .RGBA => do
        checkstride image 4
        if .BGRA ∈ rgbFormats ∧ supportsTransparency = true then
          swapTo (rgbaToBgra pixels) .BGRA (rs * 3 / 4)
        else if .RGB ∈ rgbFormats then swapTo (bgrxToRgb pixels) .RGB (rs * 3 / 4)
        else .ok none
    | .RGBX => do
        checkstride image 4
        if .RGB ∈ rgbFormats then swapTo (bgrxToRgb pixels) .RGB (rs * 3 / 4) else .ok none
    | .RGB => do
        checkstride image 3
        if .BGRX ∈ rgbFormats then swapTo (rgbToBgrx pixels) .BGRX (rs / 3 * 4) else .ok none
    | _ => .ok none

end Catlink.Codecs.Argb
