import Catlink.Python
import Mathlib.Data.Nat.Bitwise
import Mathlib.Tactic

/-! The rectangles of a bitmap: the scan of its rows, a byte or a bit at a time. -/

namespace Catlink.Codecs.Bitmap

/-- `round8up`, of an `unsigned int` -/
def round8up (n : Nat) : Nat := (n + 7) % 2 ^ 32 / 8 * 8

/-- `(start, y, end-start, 1)` -/
structure Rectangle where
  x : Nat
  y : Nat
  w : Nat
  h : Nat
  deriving DecidableEq, Repr

/-- `b & (1<<(7-x%8))` -/
def bitAt (b x : Nat) : Bool := b.testBit (7 - x % 8)

/-- `b & ~(1<<(7-x%8))`, of a byte -/
def clearBit (b x : Nat) : Nat := b &&& (255 ^^^ 1 <<< (7 - x % 8))

/-! ### The inner loops -/

/-- `while x<w and bitdata[y*rowstride+x//8]==value: x += 8`, with the bytes that are read. A turn for
each column is more than enough. -/
def skipBytes (byte : Nat → Nat) (w value : Nat) : Nat → Nat → Nat × List Nat
  | 0, x => (x, [])
  | fuel + 1, x =>
      if x < w then
        if byte (x / 8) = value then
          let (after, reads) := skipBytes byte w value fuel (x + 8)
          (after, x / 8 :: reads)
        else (x, [x / 8])
      else (x, [])

/-- `while (b & (1<<(7-x%8)))==0: x += 1`; a bit that is not found among eight never is. -/
def findBlack (b : Nat) : Nat → Nat → Option Nat
  | 0, _ => none
  | fuel + 1, x => if bitAt b x then some x else findBlack b fuel (x + 1)

/-- `while (x%8)>0`: the search for the end of a run in its first byte. The end is 0 when the byte has
no end. -/
def runInByte : Nat → Nat → Nat → Nat × Nat × Nat
  | 0, x, b => (x, b, 0)
  | fuel + 1, x, b =>
      if 0 < x % 8 then
        if bitAt b x = false then (x, b, x)
        else runInByte fuel (x + 1) (clearBit b x)
      else (x, b, 0)

/-- `while b & (1<<(7-x%8))`: the bits of a run are cleared. -/
def clearRun : Nat → Nat → Nat → Nat × Nat
  | 0, x, b => (x, b)
  | fuel + 1, x, b => if bitAt b x then clearRun fuel (x + 1) (clearBit b x) else (x, b)

/-! ### The loop over a row -/

structure Scan where
  x : Nat := 0
  b : Nat := 0
  reads : List Nat := []
  rectangles : List Rectangle := []

/-- Where a run that does not end in its first byte ends: `x`, `b`, the end, and what is read. -/
def runInBytes (byte : Nat → Nat) (w x b : Nat) : Nat × Nat × Nat × List Nat :=
  let (x, reads) := skipBytes byte w 0xff w x
  if x ≥ w then (w, b, w, reads)
  else
    let (after, b) := clearRun 8 x (byte (x / 8))
    let stop := if after > w then w else after
    (if b = 0 then round8up stop else stop, b, stop, reads ++ [x / 8])

/-- The rest of a turn, from the first bit of a run on. -/
def takeRun (byte : Nat → Nat) (w y start : Nat) (s : Scan) : Scan :=
  let (x, b, stop) := runInByte 8 (start + 1) s.b
  let (x, stop) := if x ≥ w then (w, w) else (x, stop)
  let (x, b, stop, reads) := if stop = 0 then runInBytes byte w x b else (x, b, stop, [])
  { x, b, reads := s.reads ++ reads
    rectangles :=
      if start < stop then s.rectangles ++ [⟨start, y, stop - start, 1⟩] else s.rectangles }

/-- `if b==0`: the next byte that is not white, if there is one. -/
def nextByte (byte : Nat → Nat) (w : Nat) (s : Scan) : Scan × Bool :=
  if s.b = 0 then
    let (x, reads) := skipBytes byte w 0 w s.x
    if x ≥ w then ({ s with x, reads := s.reads ++ reads }, false)
    else ({ s with x, b := byte (x / 8), reads := s.reads ++ reads ++ [x / 8] }, true)
  else (s, true)

/-- One turn of the loop, and whether there may be another. Nothing when the search for a bit does not
end. -/
def turn (byte : Nat → Nat) (w y : Nat) (s : Scan) : Option (Scan × Bool) :=
  match nextByte byte w s with
  | (s, false) => some (s, false)
  | (s, true) =>
      match findBlack s.b 8 s.x with
      | none => none
      | some x => if x ≥ w then some ({ s with x }, false) else some (takeRun byte w y x s, true)

/-- `while x<w`, for some turns. -/
def scanRow (byte : Nat → Nat) (w y : Nat) : Nat → Scan → Option Scan
  | 0, s => if s.x < w then none else some s
  | fuel + 1, s =>
      if s.x < w then
        match turn byte w y s with
        | none => none
        | some (s, false) => some s
        | some (s, true) => scanRow byte w y fuel s
      else some s

/-! ### The bitmap -/

/-- `bitdata[y*rowstride+j]`, the index an `unsigned int` -/
def rowByte (bitdata : Bytes) (rowstride y j : Nat) : Nat :=
  (bitdata.getD ((y * rowstride + j) % 2 ^ 32) 0).toNat

/-- The rectangles, and the indices of the bytes that are read; `none` when it does not return. -/
def bitdataToRectangles (bitdata : Bytes) (w h : Nat) : Option (List Rectangle × List Nat) :=
  let rowstride := round8up w / 8
  (List.range h).foldlM (fun (rectangles, reads) y => do
    let row ← scanRow (rowByte bitdata rowstride y) w y w {}
    some (rectangles ++ row.rectangles,
      reads ++ row.reads.map fun j => (y * rowstride + j) % 2 ^ 32)) ([], [])

end Catlink.Codecs.Bitmap
