import Catlink.Util.WindowGeometry
import Mathlib.Logic.Function.Iterate

/-! A window that is clamped again and again: it moves from one area to a better one, and then stays
where it is. -/

namespace Catlink.WindowGeometry

open Cover

/-! ### One area -/

theorem clampAxis_again (x w ax aw : Int) :
    clampAxis (clampAxis x w ax aw) w ax aw = clampAxis x w ax aw := by
  unfold clampAxis
  split
  · rfl
  · omega

/-- The number of pixels that two spans share. -/
def span (x w ax aw : Int) : Int := max 0 (min (x + w) (ax + aw) - max x ax)

theorem overlap_eq (window area : Rectangle) :
    overlap window area = span window.x window.w area.x area.w * span window.y window.h area.y area.h := by
  have both : pixels window ∩ pixels area =
      Finset.Ico (max window.x area.x) (min (window.x + window.w) (area.x + area.w)) ×ˢ
        Finset.Ico (max window.y area.y) (min (window.y + window.h) (area.y + area.h)) := by
    rw [pixels, pixels, Finset.product_inter_product, Finset.Ico_inter_Ico, Finset.Ico_inter_Ico]
  rw [overlap, both, Finset.card_product, Int.card_Ico, Int.card_Ico, Nat.cast_mul,
    Int.toNat_eq_max, Int.toNat_eq_max, max_comm, max_comm _ (0 : Int)]
  rfl

theorem span_nonneg (x w ax aw : Int) : 0 ≤ span x w ax aw := le_max_left _ _

theorem span_le {x w ax aw : Int} (wide : 0 ≤ w) (wideArea : 0 ≤ aw) : span x w ax aw ≤ min w aw := by
  unfold span
  omega

theorem span_placed {x w ax aw : Int} (wide : 0 ≤ w) (wideArea : 0 ≤ aw) :
    span (clampAxis x w ax aw) w ax aw = min w aw := by
  unfold span clampAxis
  split
  · omega
  · omega

/-- The overlap of a window in the best place. -/
def most (w h : Int) (area : Rectangle) : Int := min w area.w * min h area.h

def place (w h : Int) (area : Rectangle) (pos : Int × Int) : Int × Int :=
  (clampAxis pos.1 w area.x area.w, clampAxis pos.2 h area.y area.h)

def windowAt (w h : Int) (pos : Int × Int) : Rectangle := ⟨pos.1, pos.2, w, h⟩

theorem place_again (w h : Int) (area : Rectangle) (pos : Int × Int) :
    place w h area (place w h area pos) = place w h area pos := by
  unfold place
  dsimp only
  rw [clampAxis_again, clampAxis_again]

theorem overlap_le {w h : Int} {area : Rectangle} (wide : 1 ≤ w) (high : 1 ≤ h)
    (filled : area.Filled) (pos : Int × Int) : overlap (windowAt w h pos) area ≤ most w h area := by
  obtain ⟨wideArea, highArea⟩ := filled
  have wide' : 0 ≤ w := Int.le_trans Int.one_nonneg wide
  have high' : 0 ≤ h := Int.le_trans Int.one_nonneg high
  rw [overlap_eq, most]
  apply Int.mul_le_mul
  · exact span_le wide' wideArea.le
  · exact span_le high' highArea.le
  · exact span_nonneg _ _ _ _
  · exact le_min wide' wideArea.le

theorem overlap_place {w h : Int} {area : Rectangle} (wide : 1 ≤ w) (high : 1 ≤ h)
    (filled : area.Filled) (pos : Int × Int) :
    overlap (windowAt w h (place w h area pos)) area = most w h area := by
  obtain ⟨wideArea, highArea⟩ := filled
  rw [overlap_eq, most]
  unfold windowAt place
  dsimp only
  rw [span_placed (by omega) wideArea.le, span_placed (by omega) highArea.le]

theorem most_pos {w h : Int} {area : Rectangle} (wide : 1 ≤ w) (high : 1 ≤ h)
    (filled : area.Filled) : 0 < most w h area := by
  obtain ⟨wideArea, highArea⟩ := filled
  apply Int.mul_pos
  · omega
  · omega

/-- A window that fits in its area is covered there. -/
theorem place_fits {w h : Int} {area : Rectangle} (wide : w ≤ area.w) (high : h ≤ area.h)
    (pos : Int × Int) : pixels (windowAt w h (place w h area pos)) ⊆ pixels area := by
  intro p member
  obtain ⟨⟨left, right⟩, _⟩ := (clampAxis_placed pos.1 w area.x area.w).1 wide
  obtain ⟨⟨top, bottom⟩, _⟩ := (clampAxis_placed pos.2 h area.y area.h).1 high
  rw [mem_pixels] at member ⊢
  unfold windowAt place at member
  dsimp only at member
  omega

/-! ### The order of the areas -/

/-- The order in which areas are picked: by the overlap, then by the number. -/
def Before (pair best : Int × Nat) : Prop := pair.1 < best.1 ∨ pair.1 = best.1 ∧ pair.2 < best.2

theorem Before.trans {a b c : Int × Nat} (first : Before a b) (second : Before b c) : Before a c := by
  unfold Before at *
  omega

theorem Before.irrefl (a : Int × Nat) : ¬Before a a := by
  unfold Before
  omega

/-- What is picked is the last of all that have an overlap. -/
theorem Picked.best {window area other : Rectangle} {areas : List Rectangle} {index i : Nat}
    (picked : Picked window areas index area) (listed : areas[i]? = some other) (differ : i ≠ index)
    (overlaps : 0 < overlap window other) :
    Before (overlap window other, i) (overlap window area, index) := by
  rcases picked.2 with ⟨_, nothing⟩ | ⟨_, best⟩
  · have zero := nothing other (List.mem_of_getElem? listed)
    omega
  · obtain ⟨atMost, later⟩ := best i other listed
    unfold Before
    dsimp only
    omega

/-! ### One call after another -/

theorem shrink_filled {margin : Int} {area : List Int} {left : Rectangle}
    (some : shrink margin area = some left) : left.Filled := by
  unfold shrink at some
  split at some
  · split at some
    next filled =>
      cases some
      exact filled
    · cases some
  · cases some

theorem visibleAreas_filled {areas : List (List Int)} {margin : Int} {fallbackArea : List Int}
    {area : Rectangle} (member : area ∈ visibleAreas areas margin fallbackArea) : area.Filled := by
  unfold visibleAreas at member
  dsimp only at member
  split at member
  · exact shrink_filled (Option.mem_toList.mp member)
  · obtain ⟨given, _, shrunk⟩ := List.mem_filterMap.mp member
    exact shrink_filled shrunk

variable {w h : Int} {areas : List (List Int)} {margin : Int} {fallbackArea : List Int}

/-- One call, for a window of this size. -/
def clampAt (w h : Int) (areas : List (List Int)) (margin : Int) (fallbackArea : List Int)
    (pos : Int × Int) : Int × Int :=
  clampWindowToVisibleArea pos.1 pos.2 w h areas margin fallbackArea

/-- The area that the window is moved to is the best one for it from then on, or a better one is. -/
theorem clampAt_again (wide : 1 ≤ w) (high : 1 ≤ h) (pos : Int × Int) {index : Nat}
    {area : Rectangle} (listed : (visibleAreas areas margin fallbackArea)[index]? = some area) :
    let visible := visibleAreas areas margin fallbackArea
    let moved := place w h area pos
    clampAt w h areas margin fallbackArea moved = moved ∨
      ¬pixels (windowAt w h moved) ⊆ covered pixels visible ∧
        ∃ i other, Picked (windowAt w h moved) visible i other ∧ i ≠ index ∧
          Before (most w h area, index) (most w h other, i) ∧
          clampAt w h areas margin fallbackArea moved = place w h other moved := by
  intro visible moved
  have member := List.mem_of_getElem? listed
  have filled := visibleAreas_filled member
  have usable : visibleAreas areas margin fallbackArea ≠ [] := List.ne_nil_of_mem member
  have overlaps : overlap (windowAt w h moved) area = most w h area :=
    overlap_place wide high filled pos
  rcases clampWindow_cases moved.1 moved.2 wide high areas margin fallbackArea usable
    with ⟨_, same⟩ | ⟨outside, i, other, picked, goes⟩
  · exact .inl same
  · by_cases same : i = index
    · left
      have again : other = area := by
        rw [same] at picked
        exact Option.some.inj (picked.1.symm.trans listed)
      rw [again] at goes
      exact goes.trans (place_again w h area pos)
    · right
      refine ⟨outside, i, other, picked, same, ?_, goes⟩
      have positive := most_pos wide high filled
      have before := Picked.best picked listed (Ne.symm same) (by
        change 0 < overlap (windowAt w h moved) area
        rw [overlaps]
        exact positive)
      have atMost := overlap_le wide high (visibleAreas_filled (List.mem_of_getElem? picked.1)) moved
      change Before (overlap (windowAt w h moved) area, index)
        (overlap (windowAt w h moved) other, i) at before
      rw [overlaps] at before
      unfold Before at before ⊢
      dsimp only at before ⊢
      omega

instance (pair best : Int × Nat) : Decidable (Before pair best) :=
  inferInstanceAs (Decidable (_ ∨ _))

/-- The areas that come later in the order. -/
def later (w h : Int) (visible : List Rectangle) (pair : Int × Nat) : Finset Nat :=
  (Finset.range visible.length).filter fun i =>
    (visible[i]?.any fun other => decide (Before pair (most w h other, i))) = true

theorem mem_later {visible : List Rectangle} {pair : Int × Nat} {i : Nat} :
    i ∈ later w h visible pair ↔
      ∃ other, visible[i]? = some other ∧ Before pair (most w h other, i) := by
  unfold later
  rw [Finset.mem_filter, Finset.mem_range, Option.any_eq_true]
  constructor
  · rintro ⟨_, other, listed, before⟩
    exact ⟨other, listed, of_decide_eq_true before⟩
  · rintro ⟨other, listed, before⟩
    exact ⟨(List.getElem?_eq_some_iff.mp listed).1, other, listed, decide_eq_true before⟩

theorem later_lt {visible : List Rectangle} {index i : Nat} {area other : Rectangle}
    (listed : visible[i]? = some other)
    (before : Before (most w h area, index) (most w h other, i)) :
    (later w h visible (most w h other, i)).card < (later w h visible (most w h area, index)).card := by
  apply Finset.card_lt_card
  rw [Finset.ssubset_iff_of_subset]
  · refine ⟨i, mem_later.mpr ⟨other, listed, before⟩, ?_⟩
    intro itself
    obtain ⟨same, listed', after⟩ := mem_later.mp itself
    rw [listed] at listed'
    cases listed'
    exact Before.irrefl _ after
  · intro j member
    obtain ⟨other', listed', after⟩ := mem_later.mp member
    exact mem_later.mpr ⟨other', listed', before.trans after⟩

/-- From an area on, there is one move at most to each of the later ones. -/
theorem clampAt_settles (wide : 1 ≤ w) (high : 1 ≤ h) (n : Nat) {pos : Int × Int} {index : Nat}
    {area : Rectangle} (listed : (visibleAreas areas margin fallbackArea)[index]? = some area)
    (few : (later w h (visibleAreas areas margin fallbackArea) (most w h area, index)).card ≤ n) :
    let clamp := clampAt w h areas margin fallbackArea
    clamp (clamp^[n] (place w h area pos)) = clamp^[n] (place w h area pos) := by
  intro clamp
  induction n generalizing pos index area with
  | zero =>
      rcases clampAt_again wide high pos listed
        with same | ⟨_, i, other, picked, _, before, _⟩
      · exact same
      · have fewer := later_lt picked.1 before
        omega
  | succ n ih =>
      rcases clampAt_again wide high pos listed
        with same | ⟨_, i, other, picked, _, before, goes⟩
      · have fixed : clamp^[n + 1] (place w h area pos) = place w h area pos :=
          Function.iterate_fixed same (n + 1)
        rw [fixed]
        exact same
      · have fewer := later_lt picked.1 before
        rw [Function.iterate_succ_apply]
        change clamp (clamp^[n] (clampAt w h areas margin fallbackArea _)) =
          clamp^[n] (clampAt w h areas margin fallbackArea _)
        rw [goes]
        exact ih picked.1 (by omega)

theorem clampAt_unusable (usable : visibleAreas areas margin fallbackArea = []) (pos : Int × Int) :
    clampAt w h areas margin fallbackArea pos = pos := by
  unfold clampAt clampWindowToVisibleArea
  dsimp only
  rw [if_pos usable]

theorem later_few {visible : List Rectangle} {index : Nat} {area : Rectangle}
    (listed : visible[index]? = some area) :
    (later w h visible (most w h area, index)).card < visible.length := by
  have inRange := (List.getElem?_eq_some_iff.mp listed).1
  have proper : later w h visible (most w h area, index) ⊂ Finset.range visible.length := by
    have within : later w h visible (most w h area, index) ⊆ Finset.range visible.length :=
      Finset.filter_subset _ _
    rw [Finset.ssubset_iff_of_subset within]
    refine ⟨index, Finset.mem_range.mpr inRange, ?_⟩
    intro itself
    obtain ⟨same, listed', after⟩ := mem_later.mp itself
    rw [listed] at listed'
    cases listed'
    exact Before.irrefl _ after
  have fewer := Finset.card_lt_card proper
  rw [Finset.card_range] at fewer
  exact fewer

/-- A window only moves a second time when it is larger than the area it was moved to, and another
area has a larger overlap with it there. After as many calls as there are usable areas it stays. -/
theorem clamp_window_settles (wide : 1 ≤ w) (high : 1 ≤ h) (areas : List (List Int)) (margin : Int)
    (fallbackArea : List Int) (pos : Int × Int) :
    (clampAt w h areas margin fallbackArea (clampAt w h areas margin fallbackArea pos) ≠
        clampAt w h areas margin fallbackArea pos →
      ¬pixels (windowAt w h (clampAt w h areas margin fallbackArea pos)) ⊆
          covered pixels (visibleAreas areas margin fallbackArea) ∧
        ∃ index area i other,
          Picked (windowAt w h pos) (visibleAreas areas margin fallbackArea) index area ∧
          (area.w < w ∨ area.h < h) ∧
          Picked (windowAt w h (clampAt w h areas margin fallbackArea pos))
            (visibleAreas areas margin fallbackArea) i other ∧ i ≠ index) ∧
      clampAt w h areas margin fallbackArea
          ((clampAt w h areas margin fallbackArea)^[(visibleAreas areas margin fallbackArea).length]
            pos) =
        (clampAt w h areas margin fallbackArea)^[(visibleAreas areas margin fallbackArea).length]
          pos := by
  by_cases usable : visibleAreas areas margin fallbackArea = []
  · have still : ∀ pos, clampAt w h areas margin fallbackArea pos = pos := clampAt_unusable usable
    constructor
    · intro drifts
      exact absurd (still _) drifts
    · exact still _
  rcases clampWindow_cases pos.1 pos.2 wide high areas margin fallbackArea usable
    with ⟨_, same⟩ | ⟨_, index, area, picked, goes⟩
  · have still : clampAt w h areas margin fallbackArea pos = pos := same
    constructor
    · intro drifts
      rw [still] at drifts
      exact absurd still drifts
    · rw [Function.iterate_fixed still]
      exact still
  · have moved : clampAt w h areas margin fallbackArea pos = place w h area pos := goes
    constructor
    · intro drifts
      rw [moved] at drifts ⊢
      rcases clampAt_again wide high pos picked.1 with same | ⟨outside, i, other, picked', differ, _⟩
      · exact absurd same drifts
      · refine ⟨outside, index, area, i, other, picked, ?_, picked', differ⟩
        by_contra fits
        rw [not_or, not_lt, not_lt] at fits
        apply outside
        intro p member
        exact cells_subset_covered (List.mem_of_getElem? picked.1)
          (place_fits fits.1 fits.2 pos member)
    · obtain ⟨n, length⟩ : ∃ n, (visibleAreas areas margin fallbackArea).length = n + 1 :=
        Nat.exists_eq_succ_of_ne_zero (fun none => usable (List.length_eq_zero_iff.mp none))
      have few := later_few (w := w) (h := h) picked.1
      rw [length, Function.iterate_succ_apply, moved]
      apply clampAt_settles wide high n picked.1
      omega

/-- A wide window goes from the first area to the second one. -/
theorem clamp_window_settles_wide :
    (clampAt 150 50 [[0, 0, 50, 100], [60, 0, 70, 100]] 0 []
        (clampAt 150 50 [[0, 0, 50, 100], [60, 0, 70, 100]] 0 [] (-90, 10)) ≠
        clampAt 150 50 [[0, 0, 50, 100], [60, 0, 70, 100]] 0 [] (-90, 10)) ∧
      clampAt 150 50 [[0, 0, 50, 100], [60, 0, 70, 100]] 0 []
          ((clampAt 150 50 [[0, 0, 50, 100], [60, 0, 70, 100]] 0 [])^[(visibleAreas
            [[0, 0, 50, 100], [60, 0, 70, 100]] 0 []).length] (-90, 10)) =
        (clampAt 150 50 [[0, 0, 50, 100], [60, 0, 70, 100]] 0 [])^[(visibleAreas
          [[0, 0, 50, 100], [60, 0, 70, 100]] 0 []).length] (-90, 10) :=
  ⟨by decide, (clamp_window_settles (by decide) (by decide) [[0, 0, 50, 100], [60, 0, 70, 100]] 0 []
    (-90, 10)).2⟩

theorem not_clamp_idempotent :
    ¬∀ (w h : Int) (areas : List (List Int)) (margin : Int) (fallbackArea : List Int)
      (pos : Int × Int), 1 ≤ w → 1 ≤ h →
        clampAt w h areas margin fallbackArea (clampAt w h areas margin fallbackArea pos) =
          clampAt w h areas margin fallbackArea pos := by
  intro idempotent
  have same := idempotent 150 50 [[0, 0, 50, 100], [60, 0, 70, 100]] 0 [] (-90, 10) (by decide)
    (by decide)
  have first : clampAt 150 50 [[0, 0, 50, 100], [60, 0, 70, 100]] 0 [] (-90, 10) = (0, 10) := by
    decide
  have second : clampAt 150 50 [[0, 0, 50, 100], [60, 0, 70, 100]] 0 [] (0, 10) = (60, 10) := by
    decide
  rw [first, second] at same
  cases same

end Catlink.WindowGeometry
