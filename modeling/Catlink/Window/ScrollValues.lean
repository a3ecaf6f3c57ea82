import Catlink.Lib.Paint
import Catlink.Window.Motion

/-! The scrolls found move lines that are the same, and the rest is to be repainted. -/

namespace Catlink.Window

open Paint Stretches

theorem uint16_eq {n : Int} (low : 0 ≤ n) (high : n < 2 ^ 16) : (uint16 n : Int) = n := by
  unfold uint16
  omega

theorem int16_eq {n : Int} (low : -2 ^ 15 ≤ n) (high : n < 2 ^ 15) : int16 n = n := by
  apply Int.bmod_eq_of_le_mul_two <;> omega

namespace ScrollData

/-! ### The distances with the most hits -/

/-- The slots in use are for different indexes before `i`. -/
structure Best.Inv (l i : Nat) (best : Best) : Prop where
  indexed : ∀ slot ∈ best.slots, 0 < slot.1 → ∃ k < i, slot.2 = (k : Int) - l
  distinct : best.slots.Pairwise fun e f => 0 < e.1 → 0 < f.1 → e.2 ≠ f.2

theorem pairwise_set {α : Type} {R : α → α → Prop} (symm : ∀ a b, R a b → R b a) {as : List α}
    (pairwise : as.Pairwise R) {a : α} (each : ∀ b ∈ as, R a b) (j : Nat) :
    (as.set j a).Pairwise R := by
  induction as generalizing j with
  | nil => exact List.Pairwise.nil
  | cons b as ih =>
      obtain ⟨first, others⟩ := List.forall_mem_cons.mp each
      obtain ⟨head, tail⟩ := List.pairwise_cons.mp pairwise
      cases j with
      | zero => exact List.pairwise_cons.mpr ⟨others, tail⟩
      | succ j =>
          apply List.pairwise_cons.mpr
          constructor
          · intro c member
            rcases List.mem_or_eq_of_mem_set member with old | rfl
            · exact head c old
            · exact symm _ _ first
          · exact ih tail others j

theorem Best.Inv.later {l i : Nat} {best : Best} (inv : best.Inv l i) : best.Inv l (i + 1) := by
  constructor
  · intro slot member used
    obtain ⟨k, before, distance⟩ := inv.indexed slot member used
    exact ⟨k, Nat.lt_succ_of_lt before, distance⟩
  · exact inv.distinct

theorem Best.Inv.offer {l i minHits : Nat} {distances : List UInt16} {best : Best}
    (inv : best.Inv l i) (inside : i < 2 * l) (small : 2 * l < 2 ^ 15) :
    (best.offer minHits l distances i).Inv l (i + 1) := by
  unfold Best.offer
  dsimp only
  split
  · have distance : int16 ((i : Int) - l) = (i : Int) - l := int16_eq (by omega) (by omega)
    rw [distance]
    constructor
    · intro slot member used
      rcases List.mem_or_eq_of_mem_set member with old | rfl
      · exact inv.later.indexed slot old used
      · exact ⟨i, Nat.lt_succ_self i, rfl⟩
    · apply pairwise_set _ inv.distinct
      · intro slot member _ used same
        obtain ⟨k, before, distance⟩ := inv.indexed slot member used
        dsimp only at same
        omega
      · intro e f apart usedF usedE
        exact (apart usedE usedF).symm
  · exact inv.later

theorem best_inv (minHits : Nat) (distances : List UInt16) {l : Nat} (small : 2 * l < 2 ^ 15) (n : Nat)
    (inside : n ≤ 2 * l) :
    ((List.range n).foldl (Best.offer minHits l distances)
      ⟨List.replicate maxMatches (0, 0), 0⟩).Inv l n := by
  induction n with
  | zero =>
      constructor
      · intro slot member used
        rw [List.eq_of_mem_replicate member] at used
        cases used
      · exact List.pairwise_replicate.mpr (.inr fun used => by cases used)
  | succ n ih =>
      rw [List.range_succ, List.foldl_concat]
      exact (ih (by omega)).offer inside small

theorem scrollHits_perm (minHits : Nat) (slots : List (Nat × Int)) :
    ((scrollHits minHits slots).flatMap Prod.snd).Perm
      ((slots.filter fun slot => minHits < slot.1).map Prod.snd) := by
  have general : ∀ hits : List (Nat × List Int),
      ((slots.foldl (fun hits slot =>
        if slot.1 > minHits then Dict.appendTo hits slot.1 slot.2 else hits) hits).flatMap Prod.snd).Perm
      (hits.flatMap Prod.snd ++ (slots.filter fun slot => minHits < slot.1).map Prod.snd) := by
    induction slots with
    | nil => simp
    | cons slot slots ih =>
        intro hits
        rw [List.foldl_cons]
        by_cases many : minHits < slot.1
        · rw [if_pos many, List.filter_cons_of_pos (by simpa using many), List.map_cons]
          refine (ih _).trans ?_
          refine ((Dict.appendTo_perm hits slot.1 slot.2).append_right _).trans ?_
          rw [List.append_assoc, List.singleton_append]
        · rw [if_neg many, List.filter_cons_of_neg (by simpa using many)]
          exact ih hits
  simpa [scrollHits] using general []

/-- No distance is tried twice, and all are within the height. -/
theorem candidates_ok (minHits : Nat) {l : Nat} {best : Best} {i : Nat} (inside : i ≤ 2 * l)
    (inv : best.Inv l i) :
    (candidates (scrollHits minHits best.slots)).Nodup ∧
      ∀ d ∈ candidates (scrollHits minHits best.slots), d.natAbs ≤ l := by
  have perm : (candidates (scrollHits minHits best.slots)).Perm
      ((best.slots.filter fun slot => minHits < slot.1).map Prod.snd) :=
    ((List.mergeSort_perm _ _).flatMap_right _).trans (scrollHits_perm minHits best.slots)
  constructor
  · rw [perm.nodup_iff, List.Nodup, List.pairwise_map, List.pairwise_filter]
    apply inv.distinct.imp
    intro e f apart many many'
    exact apart (by simp at many; omega) (by simp at many'; omega)
  · intro d member
    obtain ⟨slot, chosen, rfl⟩ := List.mem_map.mp (perm.mem_iff.mp member)
    obtain ⟨present, many⟩ := List.mem_filter.mp chosen
    obtain ⟨k, before, distance⟩ := inv.indexed slot present (by simp at many; omega)
    omega

/-! ### The lines of one distance -/

/-- `n` lines of the reference, from `s`, are in the latest picture at distance `d`. -/
structure IsScroll (a1 a2 : Checksums) (l : Nat) (d : Int) (s n : Nat) : Prop where
  long : 2 < n
  source : s + n ≤ l
  above : 0 ≤ (s : Int) + d
  below : (s : Int) + d + n ≤ l
  same : ∀ i < n, a1.getD (s + i) 0 = a2.getD ((s : Int) + d + i).toNat 0 ∧ a1.getD (s + i) 0 ≠ 0

/-- Line `j` is where this line definition goes. -/
def Hits (d : Int) (lineDefs : Lines) (j : Nat) : Prop :=
  ∃ line ∈ lineDefs, (line.1 : Int) + d ≤ j ∧ (j : Int) < line.1 + d + line.2

theorem getD_set_true {state : List Bool} {i j : Nat} (inside : i < state.length) :
    (state.set i true).getD j false = true ↔ state.getD j false = true ∨ i = j := by
  simp only [List.getD_eq_getElem?_getD, List.getElem?_set]
  by_cases here : i = j
  · simp [← here, inside]
  · simp [here]

theorem getD_foldl_set (state : List Bool) {start : Int} (low : 0 ≤ start) (n : Nat)
    (high : start + n ≤ state.length) :
    ((List.range n).foldl (fun state i => state.set (start + i).toNat true) state).length = state.length ∧
    ∀ j, ((List.range n).foldl (fun state i => state.set (start + i).toNat true) state).getD j false = true ↔
      state.getD j false = true ∨ (start ≤ j ∧ (j : Int) < start + n) := by
  induction n with
  | zero =>
      refine ⟨rfl, fun j => ?_⟩
      simp only [List.range_zero, List.foldl_nil]
      constructor
      · exact Or.inl
      · rintro (set | within)
        · exact set
        · omega
  | succ n ih =>
      obtain ⟨length, before⟩ := ih (by omega)
      rw [List.range_succ, List.foldl_concat]
      refine ⟨by rw [List.length_set, length], fun j => ?_⟩
      rw [getD_set_true (by omega), before j]
      constructor
      · rintro ((set | within) | here)
        · exact .inl set
        · exact .inr (by omega)
        · exact .inr (by omega)
      · rintro (set | within)
        · exact .inl (.inl set)
        · by_cases here : (start + n).toNat = j
          · exact .inr here
          · exact .inl (.inr (by omega))

theorem getD_clearLines {l : Nat} {d : Int} {lineDefs : Lines} {lineState : List Bool}
    (length : lineState.length = l)
    (inside : ∀ line ∈ lineDefs, 0 ≤ (line.1 : Int) + d ∧ (line.1 : Int) + d + line.2 ≤ l) :
    (clearLines lineState d lineDefs).length = l ∧
    ∀ j, (clearLines lineState d lineDefs).getD j false = true ↔
      lineState.getD j false = true ∨ Hits d lineDefs j := by
  induction lineDefs generalizing lineState with
  | nil => exact ⟨length, fun j => by simp [clearLines, Hits]⟩
  | cons line lineDefs ih =>
      obtain ⟨⟨low, high⟩, others⟩ := List.forall_mem_cons.mp inside
      obtain ⟨length', first⟩ := getD_foldl_set lineState low line.2 (by rw [length]; exact high)
      obtain ⟨length'', rest⟩ := ih (length'.trans length) others
      refine ⟨length'', fun j => ?_⟩
      rw [clearLines, List.foldl_cons, ← clearLines, rest j, first j]
      simp only [Hits, List.exists_mem_cons_iff, or_assoc]

/-- The indexes of a distance stay in the arrays. -/
theorem matchDistance_ok {l : Nat} (small : l < 2 ^ 15) (a1 a2 : Checksums) {lineState : List Bool}
    (length : lineState.length = l) {d : Int} (inside : d.natAbs ≤ l) :
    ∃ lineDefs lineState', matchDistance l a1 a2 lineState d minLineCount = .ok (lineDefs, lineState') ∧
      (∀ line ∈ lineDefs, IsScroll a1 a2 l d line.1 line.2) ∧ lineState'.length = l ∧
      ∀ j, lineState'.getD j false = true ↔ lineState.getD j false = true ∨ Hits d lineDefs j := by
  unfold matchDistance
  rw [if_neg (by omega)]
  have sound : ∀ line ∈ stretches (matchAt a1 a2 d)
      (fun i1 => lineState.getD (uint16 (i1 + d)) false) minLineCount
      (if d < 0 then uint16 (-d) else 0) (if d < 0 then l else uint16 (l - d)),
      IsScroll a1 a2 l d line.1 line.2 := by
    intro line member
    obtain ⟨long, low, high, all⟩ := stretches_sound member
    have rstart : -d ≤ line.1 := by
      by_cases negative : d < 0
      · have start := uint16_eq (n := -d) (by omega) (by omega)
        rw [if_pos negative] at low
        omega
      · omega
    have rend : (line.1 : Int) + line.2 ≤ l ∧ (line.1 : Int) + line.2 ≤ l - d := by
      by_cases negative : d < 0
      · rw [if_pos negative] at high
        omega
      · have stop := uint16_eq (n := l - d) (by omega) (by omega)
        rw [if_neg negative] at high
        omega
    constructor
    · exact long
    · omega
    · omega
    · omega
    · intro i before
      have here := all (line.1 + i) (Nat.le_add_right _ _) (by omega)
      have index : uint16 (((line.1 + i : Nat) : Int) + d) = ((line.1 : Int) + d + i).toNat := by
        have target := uint16_eq (n := ((line.1 + i : Nat) : Int) + d) (by omega) (by omega)
        omega
      simp only [matchAt, index, Bool.and_eq_true, decide_eq_true_eq] at here
      exact here
  obtain ⟨length', marked⟩ := getD_clearLines length
    (fun line member => ⟨(sound line member).above, (sound line member).below⟩)
  exact ⟨_, _, rfl, sound, length', marked⟩

/-! ### All the distances -/

/-- Line `j` is the target of a scroll. -/
def IsTarget (scrolls : Scrolls) (j : Nat) : Prop := ∃ scroll ∈ scrolls, Hits scroll.1 scroll.2 j

/-- The scrolls so far, and the lines that they deal with. -/
structure Matched (a1 a2 : Checksums) (l : Nat) (scrolls : Scrolls) (lineState : List Bool) : Prop where
  sound : ∀ scroll ∈ scrolls, ∀ line ∈ scroll.2, IsScroll a1 a2 l scroll.1 line.1 line.2
  length : lineState.length = l
  marked : ∀ j, lineState.getD j false = true ↔ IsTarget scrolls j

theorem matchAll_ok {l : Nat} (small : l < 2 ^ 15) {a1 a2 : Checksums} (distances : List Int)
    (nodup : distances.Nodup) (inside : ∀ d ∈ distances, d.natAbs ≤ l) {scrolls : Scrolls}
    {lineState : List Bool} (matched : Matched a1 a2 l scrolls lineState)
    (new : ∀ d ∈ distances, ∀ scroll ∈ scrolls, scroll.1 ≠ d) :
    ∃ scrolls' lineState', matchAll l a1 a2 distances (scrolls, lineState) = .ok (scrolls', lineState') ∧
      Matched a1 a2 l scrolls' lineState' := by
  induction distances generalizing scrolls lineState with
  | nil => exact ⟨scrolls, lineState, rfl, matched⟩
  | cons d distances ih =>
      obtain ⟨fresh, nodup⟩ := List.nodup_cons.mp nodup
      obtain ⟨first, others⟩ := List.forall_mem_cons.mp inside
      obtain ⟨newKey, newKeys⟩ := List.forall_mem_cons.mp new
      obtain ⟨lineDefs, lineState', found, sound, length, marked⟩ :=
        matchDistance_ok small a1 a2 matched.length first
      simp only [matchAll, found, bind, Except.bind]
      apply ih nodup others
      · split
        · rename_i none
          subst none
          refine ⟨matched.sound, length, fun j => ?_⟩
          rw [marked j, matched.marked j]
          simp [Hits]
        · rw [Dict.set_new newKey]
          constructor
          · intro scroll member
            rcases List.mem_append.mp member with old | added
            · exact matched.sound scroll old
            · cases List.mem_singleton.mp added
              exact sound
          · exact length
          · intro j
            rw [marked j, matched.marked j]
            simp only [IsTarget, List.mem_append, List.mem_singleton, or_and_right, exists_or,
              exists_eq_left]
      · intro d' member scroll present
        have other : d ≠ d' := fun same => fresh (same ▸ member)
        split at present
        · exact newKeys d' member scroll present
        · rw [Dict.set_new newKey] at present
          rcases List.mem_append.mp present with old | added
          · exact newKeys d' member scroll old
          · cases List.mem_singleton.mp added
            exact other

/-- What is returned: scrolls of lines that are the same, and all the other lines. -/
structure IsDelta (a1 a2 : Checksums) (l : Nat) (scrolls : Scrolls) (nonScroll : Lines) : Prop where
  sound : ∀ scroll ∈ scrolls, ∀ line ∈ scroll.2, IsScroll a1 a2 l scroll.1 line.1 line.2
  apart : nonScroll.Pairwise fun e f => e.1 + e.2 ≤ f.1
  inside : ∀ line ∈ nonScroll, 0 < line.2 ∧ line.1 + line.2 ≤ l
  rest : ∀ j < l, (∃ line ∈ nonScroll, line.1 ≤ j ∧ j < line.1 + line.2) ↔ ¬IsTarget scrolls j

theorem calculate_ok {self : ScrollData} {a1 a2 : Checksums} (first : self.a1 = some a1)
    (second : self.a2 = some a2) (maxDistance : Nat) :
    ∃ distances, self.calculate maxDistance = { self with distances := some distances } := by
  cases self
  cases first
  cases second
  exact ⟨_, rfl⟩

theorem getScrollValues_ok (self : ScrollData) {a1 a2 : Checksums} (first : self.a1 = some a1)
    (second : self.a2 = some a2) {distances : List UInt16} (hits : self.distances = some distances)
    (small : 2 * self.height < 2 ^ 15) (minHits : Nat) :
    ∃ scrolls nonScroll, self.getScrollValues minHits = some (.ok (some (scrolls, nonScroll))) ∧
      IsDelta a1 a2 self.height scrolls nonScroll := by
  have inv := best_inv minHits distances small _ (Nat.le_refl _)
  obtain ⟨nodup, inside⟩ := candidates_ok minHits (Nat.le_refl _) inv
  have start : Matched a1 a2 self.height [] (List.replicate self.height false) := by
    constructor
    · intro scroll member
      cases member
    · exact List.length_replicate
    · intro j
      simp only [IsTarget, List.getD_eq_getElem?_getD, List.getElem?_replicate]
      split <;> simp
  obtain ⟨scrolls, lineState, found, matched⟩ :=
    matchAll_ok (by omega) _ nodup inside start (by simp)
  refine ⟨scrolls, stretches (fun i => !lineState.getD i false) (fun _ => false) 0 0 self.height, ?_,
    matched.sound, stretches_ordered 0 self.height, ?_, ?_⟩
  · rw [getScrollValues, first, second]
    simp only [hits, int16Range, if_pos small, Option.bind_eq_bind, Option.bind_some, found]
    rfl
  · intro line member
    obtain ⟨long, _, below, _⟩ := stretches_sound member
    exact ⟨long, below⟩
  · intro j before
    rw [mem_stretches, ← matched.marked j]
    simp [before]

/-! ### Copying and repainting -/

/-- The lines of the reference, copied where the scrolls say. -/
def copies (a1 : Checksums) (scrolls : Scrolls) : List (Stroke Nat UInt64) :=
  scrolls.flatMap fun scroll => scroll.2.map fun line =>
    { covers := fun j => (line.1 : Int) + scroll.1 ≤ j ∧ (j : Int) < line.1 + scroll.1 + line.2
      colour := fun j => a1.getD ((j : Int) - scroll.1).toNat 0 }

/-- The lines of the latest picture in the ranges to repaint. -/
def repaints (a2 : Checksums) (nonScroll : Lines) : List (Stroke Nat UInt64) :=
  nonScroll.map fun line =>
    { covers := fun j => line.1 ≤ j ∧ j < line.1 + line.2
      colour := fun j => a2.getD j 0 }

theorem IsScroll.copied {a1 a2 : Checksums} {l : Nat} {d : Int} {s n : Nat}
    (scroll : IsScroll a1 a2 l d s n) {j : Nat} (low : (s : Int) + d ≤ j) (high : (j : Int) < s + d + n) :
    a1.getD ((j : Int) - d).toNat 0 = a2.getD j 0 := by
  have here := (scroll.same (((j : Int) - d).toNat - s) (by omega)).1
  have above := scroll.above
  rwa [show s + (((j : Int) - d).toNat - s) = ((j : Int) - d).toNat by omega,
    show ((s : Int) + d + ((((j : Int) - d).toNat - s : Nat) : Int)).toNat = j by omega] at here

/-- The old picture with the scrolls copied and the rest repainted has the new checksums. -/
theorem IsDelta.paint {a1 a2 : Checksums} {l : Nat} {scrolls : Scrolls} {nonScroll : Lines}
    (delta : IsDelta a1 a2 l scrolls nonScroll) {j : Nat} (before : j < l) :
    paint (copies a1 scrolls ++ repaints a2 nonScroll) (fun j => a1.getD j 0) j = a2.getD j 0 := by
  apply paint_eq
  · intro stroke member covered
    rcases List.mem_append.mp member with copy | repaint
    · obtain ⟨scroll, present, made⟩ := List.mem_flatMap.mp copy
      obtain ⟨line, part, rfl⟩ := List.mem_map.mp made
      obtain ⟨low, high⟩ := of_decide_eq_true covered
      exact (delta.sound scroll present line part).copied low high
    · obtain ⟨line, part, rfl⟩ := List.mem_map.mp repaint
      rfl
  · intro untouched
    exfalso
    by_cases target : IsTarget scrolls j
    · obtain ⟨scroll, present, line, part, low, high⟩ := target
      have stays := untouched _ (List.mem_append_left _
        (List.mem_flatMap.mpr ⟨scroll, present, List.mem_map.mpr ⟨line, part, rfl⟩⟩))
      exact of_decide_eq_false stays ⟨low, high⟩
    · obtain ⟨line, part, within⟩ := (delta.rest j before).mpr target
      have stays := untouched _ (List.mem_append_right _ (List.mem_map.mpr ⟨line, part, rfl⟩))
      exact of_decide_eq_false stays within

/-! ### The detection as a whole -/

theorem scroll_detection (self : ScrollData) {a1 a2 : Checksums} (first : self.a1 = some a1)
    (second : self.a2 = some a2) (bounded : self.height < 16384) (maxDistance minHits : Nat) :
    ∃ scrolls nonScroll,
      (self.calculate maxDistance).getScrollValues minHits = some (.ok (some (scrolls, nonScroll))) ∧
      (∀ scroll ∈ scrolls, ∀ line ∈ scroll.2,
        IsScroll a1 a2 self.height scroll.1 line.1 line.2) ∧
      nonScroll.Pairwise (fun e f => e.1 + e.2 ≤ f.1) ∧
      (∀ line ∈ nonScroll, 0 < line.2 ∧ line.1 + line.2 ≤ self.height) ∧
      (∀ j < self.height,
        (∃ line ∈ nonScroll, line.1 ≤ j ∧ j < line.1 + line.2) ↔ ¬IsTarget scrolls j) ∧
      ∀ j < self.height,
        paint (copies a1 scrolls ++ repaints a2 nonScroll) (fun j => a1.getD j 0) j = a2.getD j 0 := by
  obtain ⟨distances, calculated⟩ := calculate_ok first second maxDistance
  rw [calculated]
  obtain ⟨scrolls, nonScroll, found, delta⟩ := getScrollValues_ok
    { self with distances := some distances } first second rfl (by dsimp only; omega) minHits
  exact ⟨scrolls, nonScroll, found, delta.sound, delta.apart, delta.inside, delta.rest,
    fun j before => delta.paint before⟩

/-- Four lines moved down by one line, below a new one. -/
def movedDown : ScrollData :=
  ⟨none, some [11, 12, 13, 14, 15], some [21, 11, 12, 13, 14], 0, 0, 8, 5, by simp⟩

theorem scroll_detection_moved :
    ∃ scrolls nonScroll,
      (movedDown.calculate 1000).getScrollValues 2 = some (.ok (some (scrolls, nonScroll))) ∧
      (∀ scroll ∈ scrolls, ∀ line ∈ scroll.2,
        IsScroll [11, 12, 13, 14, 15] [21, 11, 12, 13, 14] movedDown.height scroll.1 line.1 line.2) ∧
      nonScroll.Pairwise (fun e f => e.1 + e.2 ≤ f.1) ∧
      (∀ line ∈ nonScroll, 0 < line.2 ∧ line.1 + line.2 ≤ movedDown.height) ∧
      (∀ j < movedDown.height,
        (∃ line ∈ nonScroll, line.1 ≤ j ∧ j < line.1 + line.2) ↔ ¬IsTarget scrolls j) ∧
      ∀ j < movedDown.height,
        paint (copies [11, 12, 13, 14, 15] scrolls ++ repaints [21, 11, 12, 13, 14] nonScroll)
          (fun j => [11, 12, 13, 14, 15].getD j 0) j = [21, 11, 12, 13, 14].getD j 0 :=
  scroll_detection movedDown rfl rfl (by decide) 1000 2

end ScrollData

end Catlink.Window
