import Mathlib.Data.Finset.Card
import Mathlib.Algebra.Order.BigOperators.Group.List
import Mathlib.Tactic

/-! Lists of pieces that cover a finite set of cells without overlap. -/

namespace Catlink.Cover

variable {P Q α : Type} [DecidableEq α] {cells : P → Finset α}

/-- The cells of all the pieces. -/
def covered (cells : P → Finset α) (ps : List P) : Finset α :=
  ps.foldr (fun p s => cells p ∪ s) ∅

@[simp] theorem covered_nil : covered cells ([] : List P) = ∅ := rfl

@[simp] theorem covered_cons (p : P) (ps : List P) :
    covered cells (p :: ps) = cells p ∪ covered cells ps := rfl

@[simp] theorem covered_append (ps qs : List P) :
    covered cells (ps ++ qs) = covered cells ps ∪ covered cells qs := by
  induction ps with
  | nil => simp
  | cons p ps ih => rw [List.cons_append, covered_cons, covered_cons, ih, Finset.union_assoc]

theorem mem_covered {a : α} {ps : List P} : a ∈ covered cells ps ↔ ∃ p ∈ ps, a ∈ cells p := by
  induction ps with
  | nil => simp
  | cons p ps ih => simp [ih]

theorem cells_subset_covered {p : P} {ps : List P} (member : p ∈ ps) :
    cells p ⊆ covered cells ps := fun _ inside => mem_covered.mpr ⟨p, member, inside⟩

/-- No piece is empty and no two share a cell. -/
structure Apart (cells : P → Finset α) (ps : List P) : Prop where
  disjoint : ps.Pairwise fun p q => Disjoint (cells p) (cells q)
  filled : ∀ p ∈ ps, (cells p).Nonempty

omit [DecidableEq α] in
theorem Apart.nil : Apart cells ([] : List P) := by
  constructor
  · exact List.Pairwise.nil
  · intro p member
    cases member

omit [DecidableEq α] in
theorem Apart.tail {p : P} {ps : List P} (apart : Apart cells (p :: ps)) : Apart cells ps := by
  constructor
  · exact apart.disjoint.of_cons
  · intro q member
    exact apart.filled q (List.mem_cons_of_mem _ member)

theorem disjoint_covered {s : Finset α} {ps : List P} :
    Disjoint s (covered cells ps) ↔ ∀ p ∈ ps, Disjoint s (cells p) := by
  induction ps with
  | nil => simp
  | cons p ps ih => simp [Finset.disjoint_union_right, ih]

theorem Apart.head_disjoint {p : P} {ps : List P} (apart : Apart cells (p :: ps)) :
    Disjoint (cells p) (covered cells ps) := by
  rw [disjoint_covered]
  intro q member
  exact List.rel_of_pairwise_cons apart.disjoint member

theorem Apart.append {ps qs : List P} (first : Apart cells ps) (second : Apart cells qs)
    (between : Disjoint (covered cells ps) (covered cells qs)) : Apart cells (ps ++ qs) := by
  constructor
  · rw [List.pairwise_append]
    refine ⟨first.disjoint, second.disjoint, ?_⟩
    intro p hp q hq
    exact between.mono (cells_subset_covered hp) (cells_subset_covered hq)
  · intro p member
    rcases List.mem_append.mp member with left | right
    · exact first.filled p left
    · exact second.filled p right

omit [DecidableEq α] in
theorem Apart.singleton {p : P} (filled : (cells p).Nonempty) : Apart cells [p] := by
  constructor
  · exact List.pairwise_singleton _ p
  · intro q member
    rw [List.mem_singleton.mp member]
    exact filled

/-- A piece that is there under a condition. -/
theorem mem_covered_optional {c : Prop} [Decidable c] {p : c → P} {a : α} :
    a ∈ covered cells (if h : c then [p h] else []) ↔ ∃ h, a ∈ cells (p h) := by
  by_cases h : c
  · simp [h]
  · simp [h]

omit [DecidableEq α] in
theorem Apart.optional {c : Prop} [Decidable c] {p : c → P} (filled : ∀ h, (cells (p h)).Nonempty) :
    Apart cells (if h : c then [p h] else []) := by
  by_cases h : c
  · rw [dif_pos h]
    exact Apart.singleton (filled h)
  · rw [dif_neg h]
    exact Apart.nil

/-- The pieces of a cover without overlap add up to it. -/
theorem Apart.card_covered {ps : List P} (apart : Apart cells ps) :
    (covered cells ps).card = (ps.map fun p => (cells p).card).sum := by
  induction ps with
  | nil => rfl
  | cons p ps ih =>
      rw [covered_cons, Finset.card_union_of_disjoint apart.head_disjoint, ih apart.tail,
        List.map_cons, List.sum_cons]

theorem covered_flatMap {cut : P → List Q} {cells' : Q → Finset α} {s : Finset α} {ps : List P}
    (each : ∀ p ∈ ps, covered cells' (cut p) = cells p \ s) :
    covered cells' (ps.flatMap cut) = covered cells ps \ s := by
  induction ps with
  | nil => simp
  | cons p ps ih =>
      obtain ⟨first, others⟩ := List.forall_mem_cons.mp each
      rw [List.flatMap_cons, covered_append, first, ih others, covered_cons, Finset.union_sdiff_distrib]

/-- Pieces that are cut stay apart. -/
theorem Apart.flatMap {cut : P → List P} {ps : List P} (apart : Apart cells ps)
    (each : ∀ p ∈ ps, Apart cells (cut p) ∧ covered cells (cut p) ⊆ cells p) :
    Apart cells (ps.flatMap cut) := by
  induction ps with
  | nil => exact Apart.nil
  | cons p ps ih =>
      obtain ⟨⟨first, inside⟩, others⟩ := List.forall_mem_cons.mp each
      rw [List.flatMap_cons]
      apply first.append (ih apart.tail others)
      have rest : covered cells (ps.flatMap cut) ⊆ covered cells ps := by
        intro a member
        obtain ⟨q, part, holds⟩ := mem_covered.mp member
        obtain ⟨p', member', made⟩ := List.mem_flatMap.mp part
        have whole := (others p' member').2 (cells_subset_covered made holds)
        exact cells_subset_covered member' whole
      exact apart.head_disjoint.mono inside rest

end Catlink.Cover
