import Catlink.Python
import Catlink.Lib.Dict
import Catlink.Lib.Stretches
import Catlink.Util.Rectangle

/-! Scroll detection between the line checksums of two pictures. -/

namespace Catlink.Window

open Util Stretches

/-- Packed pixels with padding after each row; no pixels at all when there is nothing to read. -/
structure ImageWrapper where
  targetX : Int
  targetY : Int
  width : Nat
  height : Nat
  bytesperpixel : Nat
  rowstride : Nat
  pixels : Bytes
  valid : 0 < width ∧ 0 < height
  enough : pixels ≠ [] → width * bytesperpixel ≤ rowstride ∧ rowstride * height ≤ pixels.length

/-- The bytes of a row without its padding. -/
def ImageWrapper.row (image : ImageWrapper) (line : Nat) : Bytes :=
  (image.pixels.drop (line * image.rowstride)).take (image.width * image.bytesperpixel)

/-- Checksums by line; zero is for a line that is not to be matched. -/
abbrev Checksums := List UInt64

/-- `{start: count, ...}` -/
abbrev Lines := List (Nat × Nat)

/-- `{distance: {start: count, ...}, ...}` -/
abbrev Scrolls := List (Int × Lines)

structure ScrollData where
  /-- hits by distance, zero in the middle -/
  distances : Option (List UInt16)
  /-- checksums of the reference picture -/
  a1 : Option Checksums
  /-- checksums of the latest picture -/
  a2 : Option Checksums
  x : Int
  y : Int
  width : Nat
  height : Nat
  sized : (∀ a ∈ a1, a.length = height) ∧ (∀ a ∈ a2, a.length = height)

def minLineCount : Nat := 2

def maxMatches : Nat := 20

/-- What a `uint16_t` keeps. -/
def uint16 (n : Int) : Nat := (n % 2 ^ 16).toNat

/-- What an `int16_t` keeps. -/
def int16 (n : Int) : Int := n.bmod (2 ^ 16)

/-- `for i in range(n)` with an `int16_t` index: it never ends when the index overflows first. -/
def int16Range (n : Nat) : Option (List Nat) :=
  if n < 2 ^ 15 then some (List.range n) else none

namespace ScrollData

def new : ScrollData :=
  ⟨none, none, none, 0, 0, 0, 0, by simp⟩

def free (self : ScrollData) : ScrollData :=
  { self with distances := none, a1 := none, a2 := none, sized := by simp }

/-- Adds a new image to compare with: its rows are checksummed into `a2`, and existing values, if
they are for the same size, are pushed into `a1`. -/
def update (xxh3 : Bytes → UInt64) (self : ScrollData) (image : ImageWrapper) : ScrollData :=
  let a2 := (List.range image.height).map fun i => xxh3 (image.row i)
  if same : image.height = self.height ∧ image.width = self.width then
    { self with
      a1 := self.a2
      a2 := some a2
      x := image.targetX
      y := image.targetY
      sized := ⟨self.sized.2, by simp [a2, same.1]⟩ }
  else
    { distances := none
      a1 := none
      a2 := some a2
      x := image.targetX
      y := image.targetY
      width := image.width
      height := image.height
      sized := ⟨by simp, by simp [a2]⟩ }

/-- The hits of one line, at `y2` in the latest picture. -/
def countHits (a1 : Checksums) (l maxDistance : Nat) (distances : List UInt16) (y2 : Nat)
    (a2v : UInt64) : List UInt16 :=
  let miny := if y2 > maxDistance then y2 - maxDistance else 0
  let maxy := if y2 + maxDistance < l then y2 + maxDistance else l
  if a2v = 0 then distances
  else
    (List.range' miny (maxy - miny)).foldl
      (fun distances y1 =>
        if a1.getD y1 0 = a2v then
          distances.modify ((l : Int) - ((y1 : Int) - y2)).toNat (· + 1)
        else distances)
      distances

/-- Finds all the distances that would move lines from `a1` to `a2`. -/
def calculate (self : ScrollData) (maxDistance : Nat) : ScrollData :=
  match self.a1, self.a2 with
  | some a1, some a2 =>
      let l := self.height
      { self with
        distances := some <| (List.range l).foldl
          (fun distances y2 => countHits a1 l maxDistance distances y2 (a2.getD y2 0))
          (List.replicate (2 * l) 0) }
  | _, _ => self

/-- The arrays `m_arr` and `s_arr`, entry by entry: a number of hits and its distance. -/
structure Best where
  slots : List (Nat × Int)
  /-- the lowest number of hits there is -/
  low : Int

/-- The loop stops early when it finds zero. -/
def lowest (low : Int) : List (Nat × Int) → Int
  | [] => low
  | slot :: slots =>
      if (slot.1 : Int) < low then
        if slot.1 = 0 then 0 else lowest slot.1 slots
      else lowest low slots

/-- Replaces the lowest score by the hits at index `i`, if these are more. -/
def Best.offer (minHits l : Nat) (distances : List UInt16) (best : Best) (i : Nat) : Best :=
  let hits := int16 (distances.getD i 0).toNat
  if hits > best.low ∧ hits > minHits then
    let j := best.slots.findIdx fun slot => (slot.1 : Int) = best.low
    let slots := best.slots.set (min j (maxMatches - 1)) (uint16 hits, int16 ((i : Int) - l))
    { slots, low := lowest hits slots }
  else best

/-- `{hits: [distance, ...], ...}` -/
def scrollHits (minHits : Nat) (slots : List (Nat × Int)) : List (Nat × List Int) :=
  slots.foldl (fun hits slot => if slot.1 > minHits then Dict.appendTo hits slot.1 slot.2 else hits) []

/-- The distances, starting with the highest matches. -/
def candidates (hits : List (Nat × List Int)) : List Int :=
  (hits.mergeSort fun e f => f.1 ≤ e.1).flatMap Prod.snd

/-- Line `i1` of the reference picture is also in the latest one, at this distance. -/
def matchAt (a1 a2 : Checksums) (distance : Int) (i1 : Nat) : Bool :=
  let i2 := uint16 (i1 + distance)
  let v := a1.getD i1 0
  v = a2.getD i2 0 && v ≠ 0

/-- Marks the targets of the lines as dealt with. -/
def clearLines (lineState : List Bool) (distance : Int) (lineDefs : Lines) : List Bool :=
  lineDefs.foldl
    (fun lineState line =>
      (List.range line.2).foldl
        (fun lineState (i1 : Nat) => lineState.set ((line.1 : Int) + distance + i1).toNat true) lineState)
    lineState

/-- The lines that match the given distance; a line that is dealt with does not start a match. -/
def matchDistance (height : Nat) (a1 a2 : Checksums) (lineState : List Bool) (distance : Int)
    (minLineCount : Nat) : Except Exn (Lines × List Bool) :=
  if distance.natAbs > height then
    .error (.assertionError s!"invalid distance {distance} for size {height}")
  else
    let rstart := if distance < 0 then uint16 (-distance) else 0
    let rend := if distance < 0 then height else uint16 (height - distance)
    -- the starts of the matches grow, so each is a new key
    let lineDefs := stretches (matchAt a1 a2 distance)
      (fun i1 => lineState.getD (uint16 (i1 + distance)) false) minLineCount rstart rend
    .ok (lineDefs, clearLines lineState distance lineDefs)

/-- `for scroll in v: ...`, over all the distances. -/
def matchAll (height : Nat) (a1 a2 : Checksums) :
    List Int → Scrolls × List Bool → Except Exn (Scrolls × List Bool)
  | [], found => .ok found
  | scroll :: rest, (scrolls, lineState) => do
      let (lineDefs, lineState) ← matchDistance height a1 a2 lineState scroll minLineCount
      matchAll height a1 a2 rest
        (if lineDefs = [] then scrolls else Dict.set scrolls scroll lineDefs, lineState)

/-- How to go from `a1` to `a2`: the scrolls, and everything else, to be repainted. Nothing is
returned when an index overflows, or when the distances have not been calculated. -/
def getScrollValues (self : ScrollData) (minHits : Nat) :
    Option (Except Exn (Option (Scrolls × Lines))) :=
  match self.a1, self.a2 with
  | some a1, some a2 => do
      let distances ← self.distances
      let l := self.height
      let indexes ← int16Range (2 * l)
      let best := indexes.foldl (Best.offer minHits l distances) ⟨List.replicate maxMatches (0, 0), 0⟩
      let scroll := candidates (scrollHits minHits best.slots)
      return do
        let (scrolls, lineState) ← matchAll l a1 a2 scroll ([], List.replicate l false)
        let lineDefs := stretches (fun i => !lineState.getD i false) (fun _ => false) 0 0 l
        return some (scrolls, lineDefs)
  | _, _ => some (.ok none)

/-- `(distance, hits)` -/
def getBestMatch (self : ScrollData) : Int × Nat :=
  match self.a1, self.a2 with
  | some _, some _ =>
      (List.range (2 * self.height)).foldl
        (fun best i =>
          let hits := ((self.distances.getD []).getD i 0).toNat
          if hits > best.2 then ((i : Int) - self.height, hits) else best)
        (0, 0)
  | _, _ => (0, 0)

/-- Zeroes the checksums of the lines that an update at this place overlaps. -/
def invalidate (self : ScrollData) (x y : Int) (w h : Nat) : ScrollData :=
  match present : self.a2 with
  | none => self
  | some a2 =>
      let rect : Rectangle := ⟨self.x, self.y, self.width, self.height, by omega⟩
      match rect.intersection x y w h with
      | none => self
      | some inter =>
          let startY := (inter.y - rect.y).toNat
          let a2' := (List.range' startY inter.height.toNat).foldl (fun a2 i => a2.set i 0) a2
          let nonzero := (a2'.filter (· ≠ 0)).length
          -- if more than half has already been invalidated, drop it completely
          if nonzero ≤ self.height / 2 then self.free
          else
            { self with
              a2 := some a2'
              sized := ⟨self.sized.1, by
                have length : ∀ (lines : List Nat) (a : Checksums),
                    (lines.foldl (fun a i => a.set i 0) a).length = a.length := by
                  intro lines
                  induction lines with
                  | nil => exact fun a => rfl
                  | cons i lines ih => exact fun a => (ih _).trans List.length_set
                intro a member
                cases member
                exact (length _ a2).trans (self.sized.2 a2 present)⟩ }

end ScrollData

end Catlink.Window
