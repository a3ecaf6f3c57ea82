import Catlink.Python
import Catlink.Lib.Paint
import Mathlib.Tactic

/-! The pixels of a window backing that is resized, and where those painted for the old size go. -/

namespace Catlink.Client

open Paint

namespace Gravity

def northWest : Int := 1
def north : Int := 2
def northEast : Int := 3
def west : Int := 4
def center : Int := 5
def east : Int := 6
def southWest : Int := 7
def south : Int := 8
def southEast : Int := 9

end Gravity

/-- `center_x` and `center_y` when copying: where the source starts, and where it is pasted. -/
def copyCenter (old size : Int) : Int × Int :=
  if size ≥ old then (0, (size - old) / 2) else ((old - size) / 2, 0)

/-- `east_x` and `south_y` when copying. -/
def copyFar (old size : Int) : Int × Int :=
  if size ≥ old then (0, size - old) else (old - size, 0)

/-- `west_x` and `north_y` when copying. -/
def copyNear : Int × Int := (0, 0)

/-- The rectangle of the old pixels that is copied. -/
structure CopyCoords where
  sx : Int
  sy : Int
  dx : Int
  dy : Int
  w : Int
  h : Int
  deriving DecidableEq

def gravityCopyCoords (g oldw oldh bw bh : Int) : CopyCoords :=
  let centerX := copyCenter oldw bw
  let centerY := copyCenter oldh bh
  let eastX := copyFar oldw bw
  let southY := copyFar oldh bh
  let westX := copyNear
  let northY := copyNear
  let (x, y) :=
    if g = 0 ∨ g = Gravity.northWest then (westX, northY)
    else if g = Gravity.north then (centerX, northY)
    else if g = Gravity.northEast then (eastX, northY)
    else if g = Gravity.west then (westX, centerY)
    else if g = Gravity.center then (centerX, centerY)
    else if g = Gravity.east then (eastX, centerY)
    else if g = Gravity.southWest then (westX, southY)
    else if g = Gravity.south then (centerX, southY)
    else if g = Gravity.southEast then (eastX, southY)
    -- `static` only warns
    else ((0, 0), (0, 0))
  ⟨x.1, y.1, x.2, y.2, min bw oldw, min bh oldh⟩

namespace CopyCoords

/-- The pixel is in the rectangle that is copied. -/
def copies (c : CopyCoords) (p : Int × Int) : Prop :=
  (c.sx ≤ p.1 ∧ p.1 < c.sx + c.w) ∧ c.sy ≤ p.2 ∧ p.2 < c.sy + c.h

/-- Where the pixel is pasted. -/
def pasted (c : CopyCoords) (p : Int × Int) : Int × Int :=
  (p.1 - c.sx + c.dx, p.2 - c.sy + c.dy)

/-- The pixel is in the rectangle that is pasted. -/
def covers (c : CopyCoords) (q : Int × Int) : Prop :=
  (c.dx ≤ q.1 ∧ q.1 < c.dx + c.w) ∧ c.dy ≤ q.2 ∧ q.2 < c.dy + c.h

/-- Where the pixel comes from. -/
def source (c : CopyCoords) (q : Int × Int) : Int × Int :=
  (q.1 - c.dx + c.sx, q.2 - c.dy + c.sy)

instance (c : CopyCoords) (q : Int × Int) : Decidable (c.covers q) :=
  inferInstanceAs (Decidable (_ ∧ _))

theorem copies_source {c : CopyCoords} {q : Int × Int} : c.copies (c.source q) ↔ c.covers q := by
  unfold copies source covers
  dsimp only
  omega

theorem eq_pasted {c : CopyCoords} {p q : Int × Int} : q = c.pasted p ↔ c.source q = p := by
  obtain ⟨p1, p2⟩ := p
  obtain ⟨q1, q2⟩ := q
  simp only [pasted, source, Prod.mk.injEq]
  omega

end CopyCoords

/-- `center_x` and `center_y` when painting. -/
def adjustCenter (old size v : Int) : Int :=
  if size ≥ old then v + (size - old) / 2 else v - (old - size) / 2

/-- `east_x` and `south_y` when painting. -/
def adjustFar (old size v : Int) : Int :=
  if size ≥ old then v + (size - old) else v - (old - size)

/-- `west_x` and `north_y` when painting. -/
def adjustNear (v : Int) : Int := v

/-- The last part of `gravity_adjust`, for a window size `oldw` by `oldh` that is not the current
one. -/
def adjustResized (g : Int) (size : Int × Int) (oldw oldh x y : Int) : Int × Int :=
  let centerX := adjustCenter oldw size.1 x
  let centerY := adjustCenter oldh size.2 y
  let eastX := adjustFar oldw size.1 x
  let southY := adjustFar oldh size.2 y
  let westX := adjustNear x
  let northY := adjustNear y
  if g = Gravity.north then (centerX, northY)
  else if g = Gravity.northEast then (eastX, northY)
  else if g = Gravity.west then (westX, centerY)
  else if g = Gravity.center then (centerX, centerY)
  else if g = Gravity.east then (eastX, centerY)
  else if g = Gravity.southWest then (westX, southY)
  else if g = Gravity.south then (centerX, southY)
  else if g = Gravity.southEast then (eastX, southY)
  else (x, y)

/-- `windowSize` is the option of the paint packet as a tuple, empty when it has none. -/
def gravityAdjust (g : Int) (size : Int × Int) (x y : Int) (windowSize : List Int) :
    Except Exn (Int × Int) :=
  if windowSize = [] then .ok (x, y)
  else if windowSize = [size.1, size.2] then .ok (x, y)
  else if g = 0 ∨ g = Gravity.northWest then .ok (x, y)
  else
    match windowSize with
    | [oldw, oldh] => .ok (adjustResized g size oldw oldh x y)
    | _ => .error (.valueError "wrong number of values to unpack")

/-! One axis at a time: what is copied, and how painting moves. -/

/-- The pixels from `s` are copied to `d`, painting moves along by `move`. -/
structure Shift (old size s d : Int) (move : Int → Int) : Prop where
  source : 0 ≤ s ∧ s + min size old ≤ old
  target : 0 ≤ d ∧ d + min size old ≤ size
  moves : ∀ v, move v = v - s + d
  lost : ∀ v, 0 ≤ v → v < old → ¬ (s ≤ v ∧ v < s + min size old) → move v < 0 ∨ size ≤ move v

theorem shift_center {old size : Int} :
    Shift old size (copyCenter old size).1 (copyCenter old size).2 (adjustCenter old size) := by
  unfold copyCenter adjustCenter
  split
  · constructor <;> dsimp only <;> omega
  · constructor <;> dsimp only <;> omega

theorem shift_far {old size : Int} :
    Shift old size (copyFar old size).1 (copyFar old size).2 (adjustFar old size) := by
  unfold copyFar adjustFar
  split
  · constructor <;> dsimp only <;> omega
  · constructor <;> dsimp only <;> omega

theorem shift_near {old size : Int} : Shift old size copyNear.1 copyNear.2 adjustNear := by
  unfold copyNear adjustNear
  constructor <;> dsimp only <;> omega

/-- Nothing moves where the size stays. -/
theorem Shift.steady {size s d : Int} {move : Int → Int} (shift : Shift size size s d move) :
    Shift size size s d id := by
  have source := shift.source
  have target := shift.target
  constructor
  · exact source
  · exact target
  · intro v
    rw [id]
    omega
  · intro v above below outside
    omega

/-- For every gravity, painting chooses for each axis what copying chooses. -/
theorem gravity_moves (g : Int) (oldw oldh bw bh : Int) :
    ∃ movex movey : Int → Int,
      Shift oldw bw (gravityCopyCoords g oldw oldh bw bh).sx
        (gravityCopyCoords g oldw oldh bw bh).dx movex ∧
      Shift oldh bh (gravityCopyCoords g oldw oldh bw bh).sy
        (gravityCopyCoords g oldw oldh bw bh).dy movey ∧
      ∀ x y, (if g = 0 ∨ g = Gravity.northWest then (x, y)
        else adjustResized g (bw, bh) oldw oldh x y) = (movex x, movey y) := by
  by_cases unset : g = 0 ∨ g = Gravity.northWest
  · rcases unset with rfl | rfl
    · exact ⟨_, _, shift_near, shift_near, fun _ _ => rfl⟩
    · exact ⟨_, _, shift_near, shift_near, fun _ _ => rfl⟩
  by_cases g = Gravity.north
  · subst g
    exact ⟨_, _, shift_center, shift_near, fun _ _ => rfl⟩
  by_cases g = Gravity.northEast
  · subst g
    exact ⟨_, _, shift_far, shift_near, fun _ _ => rfl⟩
  by_cases g = Gravity.west
  · subst g
    exact ⟨_, _, shift_near, shift_center, fun _ _ => rfl⟩
  by_cases g = Gravity.center
  · subst g
    exact ⟨_, _, shift_center, shift_center, fun _ _ => rfl⟩
  by_cases g = Gravity.east
  · subst g
    exact ⟨_, _, shift_far, shift_center, fun _ _ => rfl⟩
  by_cases g = Gravity.southWest
  · subst g
    exact ⟨_, _, shift_near, shift_far, fun _ _ => rfl⟩
  by_cases g = Gravity.south
  · subst g
    exact ⟨_, _, shift_center, shift_far, fun _ _ => rfl⟩
  by_cases g = Gravity.southEast
  · subst g
    exact ⟨_, _, shift_far, shift_far, fun _ _ => rfl⟩
  -- the static gravity and any unknown one
  have copied : gravityCopyCoords g oldw oldh bw bh = ⟨0, 0, 0, 0, min bw oldw, min bh oldh⟩ := by
    simp only [gravityCopyCoords, *, if_false]
  have painted : ∀ x y, adjustResized g (bw, bh) oldw oldh x y = (x, y) := by
    intro x y
    simp only [adjustResized, *, if_false]
  rw [copied]
  refine ⟨_, _, shift_near, shift_near, fun x y => ?_⟩
  rw [if_neg unset, painted]
  rfl

/-- The same for `gravity_adjust` as a whole, told the old size. -/
theorem gravity_shifts (g : Int) (oldw oldh bw bh : Int) :
    ∃ movex movey : Int → Int,
      Shift oldw bw (gravityCopyCoords g oldw oldh bw bh).sx
        (gravityCopyCoords g oldw oldh bw bh).dx movex ∧
      Shift oldh bh (gravityCopyCoords g oldw oldh bw bh).sy
        (gravityCopyCoords g oldw oldh bw bh).dy movey ∧
      ∀ x y, gravityAdjust g (bw, bh) x y [oldw, oldh] = .ok (movex x, movey y) := by
  obtain ⟨movex, movey, shiftx, shifty, moves⟩ := gravity_moves g oldw oldh bw bh
  by_cases same : [oldw, oldh] = [bw, bh]
  · simp only [List.cons.injEq, and_true] at same
    obtain ⟨rfl, rfl⟩ := same
    refine ⟨id, id, shiftx.steady, shifty.steady, fun x y => ?_⟩
    rw [gravityAdjust, if_neg (by simp), if_pos rfl]
    rfl
  · refine ⟨movex, movey, shiftx, shifty, fun x y => ?_⟩
    rw [gravityAdjust, if_neg (by simp), if_neg same, ← moves]
    split
    · rfl
    · rfl

section Backing

variable {C : Type}

/-- A window backing. A pixel has no colour before it is painted. -/
structure Backing (C : Type) where
  gravity : Int
  size : Int × Int
  pixels : Int × Int → Option C

namespace Backing

def inside (backing : Backing C) (p : Int × Int) : Prop :=
  (0 ≤ p.1 ∧ p.1 < backing.size.1) ∧ 0 ≤ p.2 ∧ p.2 < backing.size.2

instance (backing : Backing C) (p : Int × Int) : Decidable (backing.inside p) :=
  inferInstanceAs (Decidable (_ ∧ _))

/-- Nothing is painted outside of the backing. -/
def paint (backing : Backing C) (p : Int × Int) (colour : C) : Backing C :=
  let stroke : Stroke (Int × Int) (Option C) := ⟨fun q => q = p ∧ backing.inside p, fun _ => some colour⟩
  { backing with pixels := stroke.apply backing.pixels }

def copyCoords (backing : Backing C) (bw bh : Int) : CopyCoords :=
  gravityCopyCoords backing.gravity backing.size.1 backing.size.2 bw bh

/-- A new surface, with the pixels of the old one as `gravity_copy_coords` has them copied. -/
def resize (backing : Backing C) (bw bh : Int) : Backing C :=
  let c := backing.copyCoords bw bh
  let copy : Stroke (Int × Int) (Option C) :=
    ⟨fun q => c.covers q, fun q => backing.pixels (c.source q)⟩
  { backing with size := (bw, bh), pixels := copy.apply fun _ => none }

end Backing

theorem Backing.resize_inside (backing : Backing C) (bw bh : Int) (p : Int × Int) :
    (backing.resize bw bh).inside p ↔ (0 ≤ p.1 ∧ p.1 < bw) ∧ 0 ≤ p.2 ∧ p.2 < bh := Iff.rfl

theorem Backing.paint_pixels (backing : Backing C) (p q : Int × Int) (colour : C) :
    (backing.paint p colour).pixels q =
      if q = p ∧ backing.inside p then some colour else backing.pixels q := by
  simp only [paint, Stroke.apply, decide_eq_true_eq]

theorem Backing.resize_pixels (backing : Backing C) (bw bh : Int) (q : Int × Int) :
    (backing.resize bw bh).pixels q =
      if (backing.copyCoords bw bh).covers q then backing.pixels ((backing.copyCoords bw bh).source q)
      else none := by
  simp only [resize, Stroke.apply, decide_eq_true_eq]

/-- Painting before the resize is painting where the pixel is pasted after it. -/
theorem Backing.resize_paint (backing : Backing C) {bw bh : Int} {p q : Int × Int} {colour : C}
    (inside : backing.inside p)
    (survives : (backing.copyCoords bw bh).copies p →
      q = (backing.copyCoords bw bh).pasted p ∧ (backing.resize bw bh).inside q)
    (lost : ¬ (backing.copyCoords bw bh).copies p → ¬ (backing.resize bw bh).inside q) :
    (backing.paint p colour).resize bw bh = (backing.resize bw bh).paint q colour := by
  have coords : (backing.paint p colour).copyCoords bw bh = backing.copyCoords bw bh := rfl
  generalize held : backing.copyCoords bw bh = c at coords survives lost
  have pixels : ((backing.paint p colour).resize bw bh).pixels =
      ((backing.resize bw bh).paint q colour).pixels := by
    funext r
    rw [resize_pixels, paint_pixels, paint_pixels, resize_pixels, coords, held]
    by_cases copied : c.copies p
    · -- the point `r` is painted just when its source is
      obtain ⟨pasted, within⟩ := survives copied
      by_cases here : c.source r = p
      · have covered : c.covers r := c.copies_source.mp (here ▸ copied)
        rw [if_pos covered, if_pos ⟨here, inside⟩,
          if_pos ⟨(c.eq_pasted.mpr here).trans pasted.symm, within⟩]
      · have elsewhere : r ≠ q := by
          rintro rfl
          exact here (c.eq_pasted.mp pasted)
        have unpainted : ¬ (r = q ∧ (backing.resize bw bh).inside q) := fun both => elsewhere both.1
        have unsourced : ¬ (c.source r = p ∧ backing.inside p) := fun both => here both.1
        rw [if_neg unpainted, if_neg unsourced]
    · have unpainted : ¬ (r = q ∧ (backing.resize bw bh).inside q) := fun both => lost copied both.2
      rw [if_neg unpainted]
      split
      · rename_i covered
        rw [if_neg]
        rintro ⟨rfl, -⟩
        exact copied (c.copies_source.mpr covered)
      · rfl
  exact congrArg (fun pixels => Backing.mk backing.gravity (bw, bh) pixels) pixels

/-- A pixel painted before the resize is where it goes when it is painted after it, with the old
size as its window size. Those of the old backing that are not copied are not painted then, and
the rectangle that is copied lies inside of both backings. -/
theorem resize_agrees (backing : Backing C) (colour : C) (bw bh : Int) {x y : Int}
    (inside : backing.inside (x, y)) :
    (∃ x' y',
      gravityAdjust backing.gravity (bw, bh) x y [backing.size.1, backing.size.2] = .ok (x', y') ∧
      (backing.paint (x, y) colour).resize bw bh = (backing.resize bw bh).paint (x', y') colour ∧
      ((backing.copyCoords bw bh).copies (x, y) →
        (x', y') = (backing.copyCoords bw bh).pasted (x, y) ∧
        (backing.resize bw bh).inside (x', y')) ∧
      (¬ (backing.copyCoords bw bh).copies (x, y) → ¬ (backing.resize bw bh).inside (x', y'))) ∧
    ∀ p, (backing.copyCoords bw bh).copies p →
      backing.inside p ∧ (backing.resize bw bh).inside ((backing.copyCoords bw bh).pasted p) := by
  obtain ⟨⟨left, right⟩, top, bottom⟩ := id inside
  dsimp only at left right top bottom
  obtain ⟨movex, movey, shiftx, shifty, moves⟩ := gravity_shifts backing.gravity
    backing.size.1 backing.size.2 bw bh
  have copied : ∀ p, (backing.copyCoords bw bh).copies p →
      backing.inside p ∧ (backing.resize bw bh).inside ((backing.copyCoords bw bh).pasted p) := by
    rintro p ⟨⟨left, right⟩, top, bottom⟩
    have := shiftx.source
    have := shiftx.target
    have := shifty.source
    have := shifty.target
    rw [Backing.resize_inside]
    dsimp only [Backing.inside, CopyCoords.pasted]
    dsimp only [Backing.copyCoords, gravityCopyCoords] at *
    omega
  have survives : (backing.copyCoords bw bh).copies (x, y) →
      (movex x, movey y) = (backing.copyCoords bw bh).pasted (x, y) ∧
      (backing.resize bw bh).inside (movex x, movey y) := by
    intro kept
    have same : (movex x, movey y) = (backing.copyCoords bw bh).pasted (x, y) := by
      rw [shiftx.moves, shifty.moves]
      rfl
    exact ⟨same, same ▸ (copied _ kept).2⟩
  have lost : ¬ (backing.copyCoords bw bh).copies (x, y) →
      ¬ (backing.resize bw bh).inside (movex x, movey y) := by
    intro outside within
    obtain ⟨⟨left', right'⟩, top', bottom'⟩ := (backing.resize_inside bw bh _).mp within
    apply outside
    constructor
    · by_contra gone
      rcases shiftx.lost x left right gone with before | beyond
      · omega
      · omega
    · by_contra gone
      rcases shifty.lost y top bottom gone with before | beyond
      · omega
      · omega
  exact ⟨⟨movex x, movey y, moves x y, backing.resize_paint inside survives lost, survives, lost⟩,
    copied⟩

theorem resize_agrees_center :
    gravityAdjust Gravity.center (6, 2) 1 2 [3, 4] = .ok (2, 1) ∧
      ((Backing.mk Gravity.center (3, 4) fun _ => none).paint (1, 2) true).resize 6 2 =
        ((Backing.mk Gravity.center (3, 4) fun _ => none).resize 6 2).paint (2, 1) true := by
  have adjusted : gravityAdjust Gravity.center (6, 2) 1 2 [3, 4] = .ok (2, 1) := rfl
  refine ⟨adjusted, ?_⟩
  obtain ⟨⟨x', y', moved, painted, -⟩, -⟩ :=
    resize_agrees (Backing.mk Gravity.center (3, 4) fun _ => none) true 6 2
      (show Backing.inside _ (1, 2) by decide)
  cases adjusted.symm.trans moved
  exact painted

end Backing

end Catlink.Client
