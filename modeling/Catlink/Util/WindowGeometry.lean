import Catlink.Lib.Cover
import Mathlib.Data.Int.Interval

/-! Where a window goes when it is moved back into the areas that are visible. -/

namespace Catlink.WindowGeometry

open Cover

structure Rectangle where
  x : Int
  y : Int
  w : Int
  h : Int
  deriving DecidableEq

def intersection (rect area : Rectangle) : Option Rectangle :=
  let x := max rect.x area.x
  let y := max rect.y area.y
  let right := min (rect.x + rect.w) (area.x + area.w)
  let bottom := min (rect.y + rect.h) (area.y + area.h)
  if right ≤ x ∨ bottom ≤ y then none else some ⟨x, y, right - x, bottom - y⟩

def subtract (rect area : Rectangle) : List Rectangle :=
  match intersection rect area with
  | none => [rect]
  | some i =>
      (if i.y > rect.y then [⟨rect.x, rect.y, rect.w, i.y - rect.y⟩] else []) ++
      (if i.y + i.h < rect.y + rect.h then
        [⟨rect.x, i.y + i.h, rect.w, rect.y + rect.h - i.y - i.h⟩] else []) ++
      (if i.x > rect.x then [⟨rect.x, i.y, i.x - rect.x, i.h⟩] else []) ++
      (if i.x + i.w < rect.x + rect.w then
        [⟨i.x + i.w, i.y, rect.x + rect.w - i.x - i.w, i.h⟩] else [])

/-- An area without its margin, when something is left of it. -/
def shrink (margin : Int) : List Int → Option Rectangle
  | ax :: ay :: aw :: ah :: _ =>
      if 0 < aw - margin * 2 ∧ 0 < ah - margin * 2 then
        some ⟨ax + margin, ay + margin, aw - margin * 2, ah - margin * 2⟩
      else none
  | _ => none

def visibleAreas (areas : List (List Int)) (margin : Int) (fallbackArea : List Int) :
    List Rectangle :=
  let margin := max 0 margin
  match areas.filterMap (shrink margin) with
  | [] => (shrink margin fallbackArea).toList
  | visible => visible

/-- The loop over the areas: the overlaps with the window, and nothing once the window is covered. -/
def overlapsWith (window : Rectangle) :
    List Rectangle → Nat → List Rectangle → List (Int × Nat) → Option (List (Int × Nat))
  | [], _, _, overlaps => some overlaps
  | area :: areas, index, remaining, overlaps =>
      let remaining := remaining.flatMap fun rect => subtract rect area
      if remaining = [] then none
      else
        let overlaps := match intersection window area with
          | some overlap => overlaps ++ [(overlap.w * overlap.h, index)]
          | none => overlaps
        overlapsWith window areas (index + 1) remaining overlaps

/-- `max`, of pairs -/
def maxPair : List (Int × Nat) → Option (Int × Nat)
  | [] => none
  | pair :: pairs =>
      match maxPair pairs with
      | none => some pair
      | some best =>
          if best.1 < pair.1 ∨ best.1 = pair.1 ∧ best.2 < pair.2 then some pair else some best

/-- One of the two axes. -/
def clampAxis (x w ax aw : Int) : Int := if w ≥ aw then ax else max ax (min x (ax + aw - w))

def clampWindowToVisibleArea (x y w h : Int) (areas : List (List Int)) (margin : Int)
    (fallbackArea : List Int) : Int × Int :=
  let visible := visibleAreas areas margin fallbackArea
  if visible = [] then (x, y)
  else
    let w := max 1 w
    let h := max 1 h
    match overlapsWith ⟨x, y, w, h⟩ visible 0 [⟨x, y, w, h⟩] [] with
    | none => (x, y)
    | some overlaps =>
        let index := match maxPair overlaps with
          | some best => best.2
          | none => 0
        match visible[index]? with
        | some area => (clampAxis x w area.x area.w, clampAxis y h area.y area.h)
        | none => (x, y)

/-! ### Pixels -/

noncomputable def pixels (r : Rectangle) : Finset (Int × Int) :=
  Finset.Ico r.x (r.x + r.w) ×ˢ Finset.Ico r.y (r.y + r.h)

def Rectangle.Filled (r : Rectangle) : Prop := 0 < r.w ∧ 0 < r.h

theorem mem_pixels {r : Rectangle} {p : Int × Int} :
    p ∈ pixels r ↔ r.x ≤ p.1 ∧ p.1 < r.x + r.w ∧ r.y ≤ p.2 ∧ p.2 < r.y + r.h := by
  simp [pixels, and_assoc]

theorem pixels_filled {r : Rectangle} (filled : r.Filled) : (r.x, r.y) ∈ pixels r := by
  obtain ⟨wide, high⟩ := filled
  rw [mem_pixels]
  omega

theorem card_pixels {r : Rectangle} (filled : r.Filled) : ((pixels r).card : Int) = r.w * r.h := by
  obtain ⟨wide, high⟩ := filled
  have columns : (r.x + r.w - r.x).toNat = r.w.toNat := by congr 1; omega
  have lines : (r.y + r.h - r.y).toNat = r.h.toNat := by congr 1; omega
  rw [pixels, Finset.card_product, Int.card_Ico, Int.card_Ico, columns, lines, Nat.cast_mul,
    Int.toNat_of_nonneg wide.le, Int.toNat_of_nonneg high.le]

/-- The number of pixels that the window has in the area. -/
noncomputable def overlap (window area : Rectangle) : Int := ((pixels window ∩ pixels area).card : Int)

theorem intersection_some {rect area both : Rectangle} (some : intersection rect area = some both) :
    both.Filled ∧ pixels both = pixels rect ∩ pixels area := by
  unfold intersection at some
  dsimp only at some
  split at some
  · cases some
  next crosses =>
    cases some
    constructor
    · constructor
      · dsimp only
        omega
      · dsimp only
        omega
    · ext p
      rw [Finset.mem_inter, mem_pixels, mem_pixels, mem_pixels]
      dsimp only
      omega

theorem intersection_none {rect area : Rectangle} (none : intersection rect area = none) :
    pixels rect ∩ pixels area = ∅ := by
  unfold intersection at none
  dsimp only at none
  split at none
  next apart =>
    rw [Finset.eq_empty_iff_forall_notMem]
    intro p member
    rw [Finset.mem_inter, mem_pixels, mem_pixels] at member
    omega
  · cases none

theorem overlap_some {window area both : Rectangle} (some : intersection window area = some both) :
    0 < overlap window area ∧ overlap window area = both.w * both.h := by
  obtain ⟨filled, same⟩ := intersection_some some
  have size := card_pixels filled
  rw [same] at size
  constructor
  · rw [overlap, size]
    exact Int.mul_pos filled.1 filled.2
  · exact size

theorem overlap_none {window area : Rectangle} (none : intersection window area = none) :
    overlap window area = 0 := by
  rw [overlap, intersection_none none]
  rfl

theorem mem_piece {c : Prop} [Decidable c] {r : Rectangle} {p : Int × Int} :
    p ∈ covered pixels (if c then [r] else []) ↔ c ∧ p ∈ pixels r := by
  split
  next holds => simp [holds]
  next fails => simp [fails]

theorem covered_subtract (rect area : Rectangle) :
    covered pixels (subtract rect area) = pixels rect \ pixels area := by
  unfold subtract
  cases crosses : intersection rect area with
  | none =>
      have apart := intersection_none crosses
      rw [← Finset.disjoint_iff_inter_eq_empty] at apart
      simp only [covered_cons, covered_nil, Finset.union_empty]
      rw [Finset.sdiff_eq_self_of_disjoint apart]
  | some both =>
      unfold intersection at crosses
      dsimp only at crosses
      split at crosses
      · cases crosses
      cases crosses
      ext p
      dsimp only
      rw [covered_append, covered_append, covered_append, Finset.mem_union, Finset.mem_union,
        Finset.mem_union, mem_piece, mem_piece, mem_piece, mem_piece, Finset.mem_sdiff]
      simp only [mem_pixels]
      omega

/-- The pieces that are left have pixels. -/
theorem subtract_filled {rect area piece : Rectangle} (filled : rect.Filled)
    (member : piece ∈ subtract rect area) : piece.Filled := by
  unfold subtract at member
  cases crosses : intersection rect area with
  | none =>
      rw [crosses] at member
      rw [List.mem_singleton.mp member]
      exact filled
  | some both =>
      rw [crosses] at member
      obtain ⟨wide, high⟩ := (intersection_some crosses).1
      obtain ⟨wideRect, highRect⟩ := filled
      have one {c : Prop} [Decidable c] {r : Rectangle} (listed : piece ∈ if c then [r] else []) :
          c ∧ piece = r := by
        split at listed
        next holds => exact ⟨holds, List.mem_singleton.mp listed⟩
        · cases listed
      dsimp only at member
      rcases List.mem_append.mp member with member | right
      · rcases List.mem_append.mp member with member | left
        · rcases List.mem_append.mp member with above | below
          · obtain ⟨higher, rfl⟩ := one above
            exact ⟨wideRect, Int.sub_pos_of_lt higher⟩
          · obtain ⟨lower, rfl⟩ := one below
            refine ⟨wideRect, ?_⟩
            dsimp only
            omega
        · obtain ⟨before, rfl⟩ := one left
          exact ⟨Int.sub_pos_of_lt before, high⟩
      · obtain ⟨after, rfl⟩ := one right
        refine ⟨?_, high⟩
        dsimp only
        omega

/-! ### The loop -/

/-- The overlaps that are found, with the numbers of their areas. -/
noncomputable def found (window : Rectangle) (index : Nat) : List Rectangle → List (Int × Nat)
  | [] => []
  | area :: areas =>
      if 0 < overlap window area then (overlap window area, index) :: found window (index + 1) areas
      else found window (index + 1) areas

/-- The loop ends early if, and only if, the areas cover what remains. -/
theorem overlapsWith_spec (window : Rectangle) (areas : List Rectangle) (index : Nat)
    (remaining : List Rectangle) (overlaps : List (Int × Nat)) (some : remaining ≠ [])
    (filled : ∀ rect ∈ remaining, rect.Filled) :
    (covered pixels remaining ⊆ covered pixels areas ∧
      overlapsWith window areas index remaining overlaps = none) ∨
    (¬covered pixels remaining ⊆ covered pixels areas ∧
      overlapsWith window areas index remaining overlaps =
        Option.some (overlaps ++ found window index areas)) := by
  induction areas generalizing index remaining overlaps with
  | nil =>
      right
      constructor
      · obtain ⟨rect, member⟩ := List.exists_mem_of_ne_nil remaining some
        intro inside
        have here := inside (cells_subset_covered member (pixels_filled (filled rect member)))
        exact Finset.notMem_empty _ here
      · rw [overlapsWith, found, List.append_nil]
  | cons area areas ih =>
      have rest : covered pixels (remaining.flatMap fun rect => subtract rect area) =
          covered pixels remaining \ pixels area :=
        covered_flatMap fun rect _ => covered_subtract rect area
      have inside : covered pixels remaining ⊆ covered pixels (area :: areas) ↔
          covered pixels (remaining.flatMap fun rect => subtract rect area) ⊆
            covered pixels areas := by
        rw [rest, covered_cons]
        exact sdiff_le_iff.symm
      rw [inside, overlapsWith]
      dsimp only
      split
      next none =>
        left
        rw [none]
        exact ⟨Finset.empty_subset _, rfl⟩
      next more =>
        have kept : ∀ rect ∈ remaining.flatMap fun rect => subtract rect area, rect.Filled := by
          intro piece member
          obtain ⟨rect, listed, cut⟩ := List.mem_flatMap.mp member
          exact subtract_filled (filled rect listed) cut
        have counted : (match intersection window area with
            | Option.some overlap => overlaps ++ [(overlap.w * overlap.h, index)]
            | none => overlaps) ++ found window (index + 1) areas =
              overlaps ++ found window index (area :: areas) := by
          rw [found]
          cases crosses : intersection window area with
          | none =>
              have zero := overlap_none crosses
              rw [if_neg (by omega)]
          | some both =>
              obtain ⟨positive, size⟩ := overlap_some crosses
              rw [if_pos positive, size, List.append_assoc, List.singleton_append]
        rw [← counted]
        exact ih (index + 1) _ _ more kept

/-! ### The area -/

theorem mem_found {window : Rectangle} {areas : List Rectangle} {index : Nat} {pair : Int × Nat} :
    pair ∈ found window index areas ↔ ∃ i area, areas[i]? = some area ∧ 0 < overlap window area ∧
      pair = (overlap window area, index + i) := by
  induction areas generalizing index with
  | nil => simp [found]
  | cons area areas ih =>
      have split : pair ∈ found window index (area :: areas) ↔
          (0 < overlap window area ∧ pair = (overlap window area, index)) ∨
            pair ∈ found window (index + 1) areas := by
        rw [found]
        split
        next positive => simp [positive]
        next none => simp [none]
      rw [split, ih]
      constructor
      · rintro (⟨positive, same⟩ | ⟨i, later, listed, positive, same⟩)
        · exact ⟨0, area, rfl, positive, same⟩
        · refine ⟨i + 1, later, listed, positive, ?_⟩
          rw [same]
          congr 1
          omega
      · rintro ⟨i, later, listed, positive, same⟩
        cases i with
        | zero =>
            cases listed
            exact .inl ⟨positive, same⟩
        | succ i =>
            refine .inr ⟨i, later, listed, positive, ?_⟩
            rw [same]
            congr 1
            omega

/-- Later in the order of pairs, or equal. -/
def AtMost (pair best : Int × Nat) : Prop := pair.1 < best.1 ∨ pair.1 = best.1 ∧ pair.2 ≤ best.2

theorem maxPair_spec (pairs : List (Int × Nat)) :
    (pairs = [] ∧ maxPair pairs = none) ∨
      ∃ best ∈ pairs, maxPair pairs = some best ∧ ∀ pair ∈ pairs, AtMost pair best := by
  induction pairs with
  | nil => exact .inl ⟨rfl, rfl⟩
  | cons pair pairs ih =>
      right
      rw [maxPair]
      rcases ih with ⟨none, nothing⟩ | ⟨best, member, found, most⟩
      · rw [nothing, none]
        refine ⟨pair, List.mem_cons_self, rfl, ?_⟩
        intro other listed
        rw [List.mem_singleton.mp listed]
        exact .inr ⟨rfl, le_refl _⟩
      · rw [found]
        dsimp only
        split
        next later =>
          refine ⟨pair, List.mem_cons_self, rfl, ?_⟩
          intro other listed
          rcases List.mem_cons.mp listed with rfl | listed
          · exact .inr ⟨rfl, le_refl _⟩
          · have before := most other listed
            unfold AtMost at before ⊢
            omega
        next earlier =>
          refine ⟨best, List.mem_cons_of_mem _ member, rfl, ?_⟩
          intro other listed
          rcases List.mem_cons.mp listed with rfl | listed
          · unfold AtMost
            omega
          · exact most other listed

/-- The area with the largest overlap, the last one of several, or the first area when there is no
overlap. -/
def Picked (window : Rectangle) (areas : List Rectangle) (index : Nat) (area : Rectangle) : Prop :=
  areas[index]? = some area ∧
    ((index = 0 ∧ ∀ other ∈ areas, overlap window other = 0) ∨
      0 < overlap window area ∧ ∀ (i : Nat) (other : Rectangle), areas[i]? = some other →
        overlap window other ≤ overlap window area ∧
          (index < i → overlap window other < overlap window area))

theorem overlap_nonneg (window area : Rectangle) : 0 ≤ overlap window area :=
  Int.natCast_nonneg _

theorem picked_max (window : Rectangle) {areas : List Rectangle} (some : areas ≠ []) :
    ∃ index area, Picked window areas index area ∧
      (match maxPair (found window 0 areas) with
        | .some best => best.2
        | none => 0) = index := by
  rcases maxPair_spec (found window 0 areas) with ⟨none, nothing⟩ | ⟨best, member, max, most⟩
  · obtain ⟨area, rest, rfl⟩ := List.exists_cons_of_ne_nil some
    refine ⟨0, area, ⟨rfl, .inl ⟨rfl, ?_⟩⟩, by rw [nothing]⟩
    intro other listed
    obtain ⟨i, here⟩ := List.mem_iff_getElem?.mp listed
    by_contra overlaps
    have positive : 0 < overlap window other := by
      have bound := overlap_nonneg window other
      omega
    have missing : (overlap window other, 0 + i) ∈ found window 0 (area :: rest) :=
      mem_found.mpr ⟨i, other, here, positive, rfl⟩
    rw [none] at missing
    cases missing
  · obtain ⟨i, area, here, positive, rfl⟩ := mem_found.mp member
    refine ⟨i, area, ⟨here, .inr ⟨positive, ?_⟩⟩, by rw [max]; exact Nat.zero_add i⟩
    intro j other there
    by_cases overlaps : 0 < overlap window other
    · have before := most _ (mem_found.mpr ⟨j, other, there, overlaps, rfl⟩)
      unfold AtMost at before
      dsimp only at before
      omega
    · omega

/-! ### The position -/

/-- Inside of the area where the window fits, no further away than necessary, and where it does not
fit, at the origin. -/
def Placed (x w ax aw nx : Int) : Prop :=
  (w ≤ aw → (ax ≤ nx ∧ nx + w ≤ ax + aw) ∧
    ∀ other, ax ≤ other → other + w ≤ ax + aw → |nx - x| ≤ |other - x|) ∧
  (aw < w → nx = ax)

theorem clampAxis_placed (x w ax aw : Int) : Placed x w ax aw (clampAxis x w ax aw) := by
  unfold clampAxis
  constructor
  · intro fits
    split
    · constructor
      · omega
      · intro other left right
        have same : other = ax := by omega
        rw [same]
    · constructor
      · omega
      · intro other left right
        rcases abs_cases (max ax (min x (ax + aw - w)) - x) with ⟨near, _⟩ | ⟨near, _⟩
        · rcases abs_cases (other - x) with ⟨far, _⟩ | ⟨far, _⟩
          · omega
          · omega
        · rcases abs_cases (other - x) with ⟨far, _⟩ | ⟨far, _⟩
          · omega
          · omega
  · intro large
    rw [if_pos (by omega)]

/-- A window that the areas cover stays where it is, and another one goes to the area that is
picked. -/
theorem clampWindow_cases (x y : Int) {w h : Int} (wide : 1 ≤ w) (high : 1 ≤ h)
    (areas : List (List Int)) (margin : Int) (fallbackArea : List Int)
    (usable : visibleAreas areas margin fallbackArea ≠ []) :
    (pixels ⟨x, y, w, h⟩ ⊆ covered pixels (visibleAreas areas margin fallbackArea) ∧
      clampWindowToVisibleArea x y w h areas margin fallbackArea = (x, y)) ∨
    (¬pixels ⟨x, y, w, h⟩ ⊆ covered pixels (visibleAreas areas margin fallbackArea) ∧
      ∃ index area, Picked ⟨x, y, w, h⟩ (visibleAreas areas margin fallbackArea) index area ∧
        clampWindowToVisibleArea x y w h areas margin fallbackArea =
          (clampAxis x w area.x area.w, clampAxis y h area.y area.h)) := by
  unfold clampWindowToVisibleArea
  dsimp only
  rw [if_neg usable, max_eq_right wide, max_eq_right high]
  have filled : ∀ rect ∈ [(⟨x, y, w, h⟩ : Rectangle)], rect.Filled := by
    intro rect member
    rw [List.mem_singleton.mp member]
    exact ⟨Int.lt_of_lt_of_le Int.one_pos wide, Int.lt_of_lt_of_le Int.one_pos high⟩
  have looped := overlapsWith_spec ⟨x, y, w, h⟩ (visibleAreas areas margin fallbackArea) 0 _ []
    (List.cons_ne_nil ⟨x, y, w, h⟩ []) filled
  rw [covered_cons, covered_nil, Finset.union_empty, List.nil_append] at looped
  rcases looped with ⟨inside, early⟩ | ⟨outside, all⟩
  · rw [early]
    exact .inl ⟨inside, rfl⟩
  · right
    refine ⟨outside, ?_⟩
    obtain ⟨index, area, picked, chosen⟩ := picked_max ⟨x, y, w, h⟩ usable
    refine ⟨index, area, picked, ?_⟩
    rw [all]
    dsimp only
    rw [chosen, picked.1]

/-- A window that the usable areas cover is not moved. Any other one is placed in the area that it
has the largest overlap with. -/
theorem clamp_window_correct (x y w h : Int) (areas : List (List Int)) (margin : Int)
    (fallbackArea : List Int) (wide : 1 ≤ w) (high : 1 ≤ h)
    (usable : visibleAreas areas margin fallbackArea ≠ []) :
    let visible := visibleAreas areas margin fallbackArea
    let moved := clampWindowToVisibleArea x y w h areas margin fallbackArea
    (pixels ⟨x, y, w, h⟩ ⊆ covered pixels visible → moved = (x, y)) ∧
    (¬pixels ⟨x, y, w, h⟩ ⊆ covered pixels visible →
      ∃ index area, Picked ⟨x, y, w, h⟩ visible index area ∧
        Placed x w area.x area.w moved.1 ∧ Placed y h area.y area.h moved.2) := by
  dsimp only
  rcases clampWindow_cases x y wide high areas margin fallbackArea usable
    with ⟨inside, same⟩ | ⟨outside, index, area, picked, moved⟩
  · constructor
    · intro _
      exact same
    · intro outside
      exact absurd inside outside
  · constructor
    · intro inside
      exact absurd inside outside
    · intro _
      rw [moved]
      exact ⟨index, area, picked, clampAxis_placed x w area.x area.w,
        clampAxis_placed y h area.y area.h⟩

/-- Two monitors side by side, and a window across them. -/
theorem clamp_window_correct_across :
    let areas : List (List Int) := [[0, 0, 100, 100], [150, 0, 100, 100]]
    let visible := visibleAreas areas 0 []
    let moved := clampWindowToVisibleArea 60 10 100 50 areas 0 []
    (pixels ⟨60, 10, 100, 50⟩ ⊆ covered pixels visible → moved = (60, 10)) ∧
    (¬pixels ⟨60, 10, 100, 50⟩ ⊆ covered pixels visible →
      ∃ index area, Picked ⟨60, 10, 100, 50⟩ visible index area ∧
        Placed 60 100 area.x area.w moved.1 ∧ Placed 10 50 area.y area.h moved.2) :=
  clamp_window_correct 60 10 100 50 [[0, 0, 100, 100], [150, 0, 100, 100]] 0 [] (by decide)
    (by decide) (by decide)

example : clampWindowToVisibleArea 60 10 100 50 [[0, 0, 100, 100], [150, 0, 100, 100]] 0 [] =
    (0, 10) := by decide

end Catlink.WindowGeometry
