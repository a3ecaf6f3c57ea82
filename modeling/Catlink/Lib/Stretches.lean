import Mathlib.Data.List.Basic
import Mathlib.Tactic

/-! Stretches of consecutive positions that have a property, collected in one pass. -/

namespace Catlink.Stretches

/-- The stretch under way, none when its count is zero, and those found as `(start, count)`. -/
structure Scan where
  start : Nat
  count : Nat
  found : List (Nat × Nat)

variable (holds blocked : Nat → Bool) (least : Nat)

/-- A stretch that ends is kept when it is longer than `least`. -/
def Scan.close (scan : Scan) : Scan :=
  if least < scan.count then
    { scan with count := 0, found := scan.found ++ [(scan.start, scan.count)] }
  else { scan with count := 0 }

/-- A blocked position continues a stretch but does not start one. -/
def Scan.visit (scan : Scan) (i : Nat) : Scan :=
  if holds i then
    if scan.count = 0 then
      if blocked i then scan else { scan with start := i, count := 1 }
    else { scan with count := scan.count + 1 }
  else if 0 < scan.count then scan.close least
  else scan

def Scan.over (low n : Nat) : Scan :=
  (List.range' low n).foldl (Scan.visit holds blocked least) ⟨0, 0, []⟩

/-- The stretches of the positions from `low` up to `high`. -/
def stretches (low high : Nat) : List (Nat × Nat) :=
  ((Scan.over holds blocked least low (high - low)).close least).found

variable {holds blocked least} {low i : Nat} {scan : Scan}

/-- What is known once the positions before `i` are visited. -/
structure Scan.Inv (holds : Nat → Bool) (least low i : Nat) (scan : Scan) : Prop where
  each : ∀ e ∈ scan.found, least < e.2 ∧ low ≤ e.1 ∧
    ∀ k, e.1 ≤ k → k < e.1 + e.2 → holds k = true
  ordered : scan.found.Pairwise fun e f => e.1 + e.2 ≤ f.1
  closed : ∀ e ∈ scan.found, e.1 + e.2 + scan.count ≤ i
  current : 0 < scan.count → scan.start + scan.count = i ∧ low ≤ scan.start ∧
    ∀ k, scan.start ≤ k → k < i → holds k = true

theorem Scan.Inv.close (inv : scan.Inv holds least low i) : (scan.close least).Inv holds least low i := by
  unfold Scan.close
  split
  · rename_i long
    obtain ⟨stop, above, all⟩ := inv.current (by omega)
    constructor
    · intro e member
      rcases List.mem_append.mp member with old | new
      · exact inv.each e old
      · cases List.mem_singleton.mp new
        exact ⟨long, above, fun k since upto => all k since (by dsimp only at upto; omega)⟩
    · rw [List.pairwise_append]
      refine ⟨inv.ordered, List.pairwise_singleton _ _, ?_⟩
      intro e member f new
      cases List.mem_singleton.mp new
      have before := inv.closed e member
      dsimp only
      omega
    · intro e member
      dsimp only
      rcases List.mem_append.mp member with old | new
      · have before := inv.closed e old
        omega
      · cases List.mem_singleton.mp new
        dsimp only
        omega
    · intro opened
      cases opened
  · constructor
    · exact inv.each
    · exact inv.ordered
    · intro e member
      have before := inv.closed e member
      dsimp only
      omega
    · intro opened
      cases opened

theorem Scan.Inv.skip (inv : scan.Inv holds least low i) (idle : scan.count = 0) :
    scan.Inv holds least low (i + 1) := by
  constructor
  · exact inv.each
  · exact inv.ordered
  · intro e member
    have before := inv.closed e member
    omega
  · intro opened
    omega

theorem Scan.Inv.visit (inv : scan.Inv holds least low i) (above : low ≤ i) :
    (scan.visit holds blocked least i).Inv holds least low (i + 1) := by
  unfold Scan.visit
  split
  · rename_i here
    split
    · rename_i idle
      split
      · exact inv.skip idle
      · constructor
        · exact inv.each
        · exact inv.ordered
        · intro e member
          have before := inv.closed e member
          dsimp only
          omega
        · intro _
          refine ⟨rfl, above, fun k since upto => ?_⟩
          dsimp only at since
          rw [show k = i by omega]
          exact here
    · obtain ⟨stop, above, all⟩ := inv.current (by omega)
      constructor
      · exact inv.each
      · exact inv.ordered
      · intro e member
        have before := inv.closed e member
        dsimp only
        omega
      · intro _
        refine ⟨by dsimp only; omega, above, fun k since upto => ?_⟩
        rcases Nat.lt_succ_iff_lt_or_eq.mp upto with earlier | last
        · exact all k since earlier
        · rw [last]
          exact here
  · split
    · apply inv.close.skip
      unfold Scan.close
      split <;> rfl
    · apply inv.skip
      omega

theorem Scan.inv_over (holds blocked : Nat → Bool) (least low n : Nat) :
    (Scan.over holds blocked least low n).Inv holds least low (low + n) := by
  induction n with
  | zero => constructor <;> simp [Scan.over]
  | succ n ih =>
      rw [Scan.over, List.range'_1_concat, List.foldl_concat]
      exact ih.visit (Nat.le_add_right low n)

theorem stretches_inv (holds blocked : Nat → Bool) (least : Nat) {high : Nat} (inside : low ≤ high) :
    ((Scan.over holds blocked least low (high - low)).close least).Inv holds least low high := by
  have inv := (Scan.inv_over holds blocked least low (high - low)).close
  rwa [Nat.add_sub_cancel' inside] at inv

theorem stretches_empty {high : Nat} (outside : high < low) :
    stretches holds blocked least low high = [] := by
  unfold stretches Scan.over
  rw [Nat.sub_eq_zero_of_le (Nat.le_of_lt outside)]
  simp [Scan.close]

/-- A stretch found is long enough, within the bounds, and has the property all along. -/
theorem stretches_sound {high : Nat} {e : Nat × Nat}
    (member : e ∈ stretches holds blocked least low high) :
    least < e.2 ∧ low ≤ e.1 ∧ e.1 + e.2 ≤ high ∧ ∀ k, e.1 ≤ k → k < e.1 + e.2 → holds k = true := by
  by_cases inside : low ≤ high
  · have inv := stretches_inv holds blocked least inside
    obtain ⟨long, above, all⟩ := inv.each e member
    have before := inv.closed e member
    exact ⟨long, above, by omega, all⟩
  · rw [stretches_empty (by omega)] at member
    cases member

theorem stretches_ordered (low high : Nat) :
    (stretches holds blocked least low high).Pairwise fun e f => e.1 + e.2 ≤ f.1 := by
  by_cases inside : low ≤ high
  · exact (stretches_inv holds blocked least inside).ordered
  · rw [stretches_empty (by omega)]
    exact List.Pairwise.nil

/-- Every position with the property is in a stretch, when none is blocked or too short. -/
def Scan.All (holds : Nat → Bool) (low i : Nat) (scan : Scan) : Prop :=
  ∀ k, low ≤ k → k < i → holds k = true →
    (∃ e ∈ scan.found, e.1 ≤ k ∧ k < e.1 + e.2) ∨ (0 < scan.count ∧ scan.start ≤ k)

theorem Scan.All.close (all : scan.All holds low i) (inv : scan.Inv holds 0 low i) :
    ((scan.close 0).All holds low i) ∧ (scan.close 0).count = 0 := by
  unfold Scan.close
  split
  · rename_i opened
    obtain ⟨stop, _, _⟩ := inv.current opened
    refine ⟨fun k since upto here => .inl ?_, rfl⟩
    rcases all k since upto here with ⟨e, member, within⟩ | ⟨_, after⟩
    · exact ⟨e, List.mem_append_left _ member, within⟩
    · exact ⟨_, List.mem_append_right _ (List.mem_singleton_self _), after, by dsimp only; omega⟩
  · refine ⟨fun k since upto here => ?_, rfl⟩
    rcases all k since upto here with found | ⟨opened, _⟩
    · exact .inl found
    · omega

theorem Scan.All.visit (all : scan.All holds low i) (inv : scan.Inv holds 0 low i) :
    (scan.visit holds (fun _ => false) 0 i).All holds low (i + 1) := by
  intro k since upto here
  unfold Scan.visit
  rcases Nat.lt_succ_iff_lt_or_eq.mp upto with earlier | last
  · have known := all k since earlier here
    split
    · split
      · rename_i idle
        rcases known with found | ⟨opened, _⟩
        · exact .inl found
        · omega
      · rcases known with found | ⟨_, after⟩
        · exact .inl found
        · exact .inr ⟨Nat.succ_pos _, after⟩
    · split
      · rename_i opened
        exact (all.close inv).1 k since earlier here
      · exact known
  · rw [last] at here ⊢
    rw [if_pos here]
    split
    · exact .inr ⟨Nat.one_pos, Nat.le_refl i⟩
    · obtain ⟨stop, _, _⟩ := inv.current (by omega)
      exact .inr ⟨Nat.succ_pos _, by dsimp only; omega⟩

theorem Scan.all_over (holds : Nat → Bool) (low n : Nat) :
    (Scan.over holds (fun _ => false) 0 low n).All holds low (low + n) := by
  induction n with
  | zero =>
      intro k since upto
      omega
  | succ n ih =>
      rw [Scan.over, List.range'_1_concat, List.foldl_concat]
      exact ih.visit (Scan.inv_over holds _ 0 low n)

/-- A position is in a stretch exactly when it has the property. -/
theorem mem_stretches {low high k : Nat} :
    (∃ e ∈ stretches holds (fun _ => false) 0 low high, e.1 ≤ k ∧ k < e.1 + e.2) ↔
      low ≤ k ∧ k < high ∧ holds k = true := by
  constructor
  · rintro ⟨e, member, since, upto⟩
    obtain ⟨_, above, below, all⟩ := stretches_sound member
    exact ⟨by omega, by omega, all k since upto⟩
  · rintro ⟨since, upto, here⟩
    have all := (Scan.all_over holds low (high - low)).close
      (Scan.inv_over holds _ 0 low (high - low))
    rcases all.1 k since (by omega) here with found | ⟨opened, _⟩
    · exact found
    · omega

end Catlink.Stretches
