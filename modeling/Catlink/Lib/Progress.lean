import Mathlib.Data.Nat.Find
import Mathlib.Tactic

/-! What happens some time in an endless run. -/

namespace Catlink.Progress

variable {P Q : Nat → Prop} {n : Nat}

/-- What stays until it is followed by something else, and does not stay for ever. -/
theorem followed (steps : ∀ m ≥ n, P m → P (m + 1) ∨ Q (m + 1)) (start : P n)
    (stops : ∃ m ≥ n, ¬ P m) : ∃ m ≥ n, Q m := by
  obtain ⟨stop, later, gone⟩ := stops
  by_contra never
  have stays : ∀ k, P (n + k) := by
    intro k
    induction k with
    | zero => exact start
    | succ k ih =>
        rcases steps (n + k) (Nat.le_add_right _ _) ih with still | next
        · exact still
        · exact absurd ⟨n + k + 1, by omega, next⟩ never
  apply gone
  have there := stays (stop - n)
  rwa [Nat.add_sub_cancel' later] at there

/-- What every other event leaves alone is still so at the first of these events. -/
theorem until_event (kept : ∀ m ≥ n, P m → ¬ Q m → P (m + 1)) (start : P n)
    (happens : ∃ m ≥ n, Q m) : ∃ m ≥ n, P m ∧ Q m := by
  classical
  have some : ∃ k, Q (n + k) := by
    obtain ⟨m, later, event⟩ := happens
    exact ⟨m - n, by rwa [Nat.add_sub_cancel' later]⟩
  have before : ∀ j ≤ Nat.find some, P (n + j) := by
    intro j
    induction j with
    | zero => exact fun _ => start
    | succ j ih =>
        intro upto
        exact kept (n + j) (Nat.le_add_right _ _) (ih (by omega)) (Nat.find_min some upto)
  exact ⟨_, Nat.le_add_right _ _, before _ le_rfl, Nat.find_spec some⟩

end Catlink.Progress
