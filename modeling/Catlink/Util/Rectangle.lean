import Catlink.Python
import Catlink.Lib.Cover
import Mathlib.Data.Int.Interval

/-! Rectangles of pixels. Edges and areas are taken to fit the integers that hold them. -/

namespace Catlink.Util

open Cover

structure Rectangle where
  x : Int
  y : Int
  width : Int
  height : Int
  valid : 0 ≤ width ∧ 0 ≤ height
  deriving DecidableEq

/-- The constructor. -/
def rectangle (x y w h : Int) : Except Exn Rectangle :=
  if valid : 0 ≤ w ∧ 0 ≤ h then .ok ⟨x, y, w, h, valid⟩
  else .error (.valueError s!"invalid dimensions: {w}x{h}")

namespace Rectangle

def intersects (self : Rectangle) (x y w h : Int) : Bool :=
  let ix := max self.x x
  let iw := min (self.x + self.width) (x + w) - ix
  if iw ≤ 0 then false
  else
    let iy := max self.y y
    let ih := min (self.y + self.height) (y + h) - iy
    ih > 0

def intersectsRect (self rect : Rectangle) : Bool :=
  self.intersects rect.x rect.y rect.width rect.height

/-- The rectangle containing the intersection with the given area, or nothing. -/
def intersection (self : Rectangle) (x y w h : Int) : Option Rectangle :=
  let ix := max self.x x
  let iw := min (self.x + self.width) (x + w) - ix
  if hw : iw ≤ 0 then none
  else
    let iy := max self.y y
    let ih := min (self.y + self.height) (y + h) - iy
    if hh : ih ≤ 0 then none else some ⟨ix, iy, iw, ih, by omega⟩

def intersectionRect (self rect : Rectangle) : Option Rectangle :=
  self.intersection rect.x rect.y rect.width rect.height

def contains (self : Rectangle) (x y w h : Int) : Bool :=
  self.x ≤ x && self.y ≤ y && x + w ≤ self.x + self.width && y + h ≤ self.y + self.height

def containsRect (self rect : Rectangle) : Bool :=
  self.contains rect.x rect.y rect.width rect.height

/-- The rectangles remaining when one subtracts the given area: wide ones above and below it,
and what is left of its rows on both sides. -/
def subtract (self : Rectangle) (x y w h : Int) : List Rectangle :=
  if w = 0 ∨ h = 0 ∨ self.width = 0 ∨ self.height = 0 then [self]
  else if self.x + self.width ≤ x ∨ self.y + self.height ≤ y ∨ x + w ≤ self.x ∨ y + h ≤ self.y then
    [self]
  else if x ≤ self.x ∧ y ≤ self.y ∧ x + w ≥ self.x + self.width ∧ y + h ≥ self.y + self.height then []
  else
    have valid := self.valid
    let top := if above : self.y < y then
      [Rectangle.mk self.x self.y self.width (y - self.y) (by omega)] else []
    let sy := max self.y y
    let sh := min (self.y + self.height) (y + h) - sy
    let sides :=
      if sides : sh > 0 then
        (if left : self.x < x then [Rectangle.mk self.x sy (x - self.x) sh (by omega)] else []) ++
        (if right : self.x + self.width > x + w then
          [Rectangle.mk (x + w) sy (self.x + self.width - (x + w)) sh (by omega)] else [])
      else []
    let bottom := if below : self.y + self.height > y + h then
      [Rectangle.mk self.x (y + h) self.width (self.y + self.height - (y + h)) (by omega)] else []
    top ++ sides ++ bottom

def subtractRect (self rect : Rectangle) : List Rectangle :=
  self.subtract rect.x rect.y rect.width rect.height

end Rectangle

/-! ### Lists of rectangles -/

/-- What `add_rectangle` finds in the rectangles there are. -/
inductive Hit
  | contained
  | intersects (r : Rectangle)
  | clear

/-- The loop up to the first rectangle that contains or intersects the region. -/
def firstHit (region : Rectangle) : List Rectangle → Hit
  | [] => .clear
  | r :: regions =>
      if r.x ≤ region.x ∧ r.y ≤ region.y ∧ r.x + r.width ≥ region.x + region.width ∧
          r.y + r.height ≥ region.y + region.height then .contained
      else if r.intersects region.x region.y region.width region.height then .intersects r
      else firstHit region regions

/-- `for sub in ...: total += add_rectangle(regions, sub)` -/
def addAll (add : List Rectangle → Rectangle → Option (Int × List Rectangle)) :
    List Rectangle → List Rectangle → Option (Int × List Rectangle)
  | regions, [] => some (0, regions)
  | regions, sub :: subs => do
      let (added, regions) ← add regions sub
      let (total, regions) ← addAll add regions subs
      some (added + total, regions)

/-- The number of pixels added, and the list as it is left; with a bound on the depth. -/
def addRectangle : Nat → List Rectangle → Rectangle → Option (Int × List Rectangle)
  | 0, _, _ => none
  | depth + 1, regions, region =>
      match firstHit region regions with
      | .contained => some (0, regions)
      | .intersects r => addAll (addRectangle depth) regions (region.subtractRect r)
      | .clear => some (region.width * region.height, regions ++ [region])

def removeRectangle (regions : List Rectangle) (region : Rectangle) : List Rectangle :=
  regions.flatMap fun r => r.subtract region.x region.y region.width region.height

/-! ### Pixels -/

noncomputable def pixels (r : Rectangle) : Finset (Int × Int) :=
  Finset.Ico r.x (r.x + r.width) ×ˢ Finset.Ico r.y (r.y + r.height)

/-- A rectangle with pixels. -/
def Rectangle.Nonempty (r : Rectangle) : Prop := 0 < r.width ∧ 0 < r.height

theorem mem_pixels {r : Rectangle} {p : Int × Int} :
    p ∈ pixels r ↔ r.x ≤ p.1 ∧ p.1 < r.x + r.width ∧ r.y ≤ p.2 ∧ p.2 < r.y + r.height := by
  simp [pixels, and_assoc]

theorem pixels_nonempty {r : Rectangle} : (pixels r).Nonempty ↔ r.Nonempty := by
  constructor
  · rintro ⟨p, inside⟩
    rw [mem_pixels] at inside
    constructor
    · omega
    · omega
  · rintro ⟨wide, high⟩
    refine ⟨(r.x, r.y), mem_pixels.mpr ?_⟩
    dsimp only
    omega

theorem card_pixels (r : Rectangle) : ((pixels r).card : Int) = r.width * r.height := by
  have width := r.valid.1
  have height := r.valid.2
  rw [pixels, Finset.card_product, Int.card_Ico, Int.card_Ico]
  push_cast
  rw [show r.x + r.width - r.x = r.width by omega, show r.y + r.height - r.y = r.height by omega,
    Int.toNat_of_nonneg width, Int.toNat_of_nonneg height]

theorem intersects_iff {self rect : Rectangle} :
    self.intersectsRect rect = true ↔ ¬Disjoint (pixels self) (pixels rect) := by
  rw [Finset.not_disjoint_iff]
  simp only [Rectangle.intersectsRect, Rectangle.intersects]
  constructor
  · intro crosses
    split at crosses
    · cases crosses
    · have high := of_decide_eq_true crosses
      refine ⟨(max self.x rect.x, max self.y rect.y), ?_, ?_⟩
      · rw [mem_pixels]
        dsimp only
        omega
      · rw [mem_pixels]
        dsimp only
        omega
  · rintro ⟨p, inSelf, inRect⟩
    rw [mem_pixels] at inSelf inRect
    rw [if_neg (by omega)]
    apply decide_eq_true
    omega

theorem covered_subtractRect (self rect : Rectangle) (filled : rect.Nonempty) :
    covered pixels (self.subtractRect rect) = pixels self \ pixels rect := by
  obtain ⟨wide, high⟩ := filled
  have valid := self.valid
  ext p
  rw [Finset.mem_sdiff, mem_pixels, mem_pixels]
  unfold Rectangle.subtractRect Rectangle.subtract
  split
  · rw [covered_cons, covered_nil, Finset.union_empty, mem_pixels]
    omega
  split
  · rw [covered_cons, covered_nil, Finset.union_empty, mem_pixels]
    omega
  split
  · simp only [covered_nil, Finset.notMem_empty, false_iff]
    omega
  have rows : min (self.y + self.height) (rect.y + rect.height) - max self.y rect.y > 0 := by omega
  dsimp only
  rw [dif_pos rows]
  simp only [covered_append, Finset.mem_union, mem_covered_optional, mem_pixels, exists_prop]
  omega

theorem apart_subtractRect (self rect : Rectangle) (filled : self.Nonempty) :
    Apart pixels (self.subtractRect rect) := by
  have whole := Apart.singleton (pixels_nonempty.mpr filled)
  obtain ⟨wide, high⟩ := filled
  have valid := rect.valid
  unfold Rectangle.subtractRect Rectangle.subtract
  split
  · exact whole
  split
  · exact whole
  split
  · exact Apart.nil
  have rows : min (self.y + self.height) (rect.y + rect.height) - max self.y rect.y > 0 := by omega
  dsimp only
  rw [dif_pos rows]
  apply Apart.append
  · apply Apart.append
    · -- above
      apply Apart.optional
      intro above
      exact pixels_nonempty.mpr ⟨wide, by dsimp only; omega⟩
    · -- on both sides, in the same rows
      apply Apart.append
      · apply Apart.optional
        intro left
        exact pixels_nonempty.mpr ⟨by dsimp only; omega, rows⟩
      · apply Apart.optional
        intro right
        exact pixels_nonempty.mpr ⟨by dsimp only; omega, rows⟩
      · rw [Finset.disjoint_left]
        intro p inLeft inRight
        obtain ⟨_, inLeft⟩ := mem_covered_optional.mp inLeft
        obtain ⟨_, inRight⟩ := mem_covered_optional.mp inRight
        rw [mem_pixels] at inLeft inRight
        dsimp only at inLeft inRight
        omega
    · rw [Finset.disjoint_left]
      intro p inTop inSides
      obtain ⟨_, inTop⟩ := mem_covered_optional.mp inTop
      rw [covered_append, Finset.mem_union, mem_covered_optional, mem_covered_optional] at inSides
      simp only [mem_pixels] at inTop inSides
      omega
  · -- below
    apply Apart.optional
    intro below
    exact pixels_nonempty.mpr ⟨wide, by dsimp only; omega⟩
  · rw [Finset.disjoint_left]
    intro p inRest inBottom
    obtain ⟨_, inBottom⟩ := mem_covered_optional.mp inBottom
    rw [covered_append, covered_append, Finset.mem_union, Finset.mem_union, mem_covered_optional,
      mem_covered_optional, mem_covered_optional] at inRest
    simp only [mem_pixels] at inBottom inRest
    omega

end Catlink.Util
