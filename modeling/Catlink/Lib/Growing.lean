import Mathlib.Tactic

/-! A loop over a list that its own body extends. The elements that are appended get their turn. -/

namespace Catlink.Growing

variable {σ α : Type}

/-- From the element at an index on; nothing when there are more turns than that. -/
def forEach (list : σ → List α) (body : σ → α → σ) : Nat → Nat → σ → Option σ
  | 0, _, _ => none
  | fuel + 1, i, s =>
      match (list s)[i]? with
      | none => some s
      | some a => forEach list body fuel (i + 1) (body s a)

variable {list : σ → List α} {body : σ → α → σ} (holds : σ → Prop) {fuel i : Nat} {s s' : σ}

/-- What the body keeps for the elements of the list. -/
theorem forEach_keeps (keeps : ∀ s a, holds s → a ∈ list s → holds (body s a))
    (run : forEach list body fuel i s = some s') (start : holds s) : holds s' := by
  induction fuel generalizing i s with
  | zero => cases run
  | succ fuel ih =>
      rw [forEach] at run
      cases here : (list s)[i]? with
      | none =>
          rw [here] at run
          cases run
          exact start
      | some a =>
          rw [here] at run
          exact ih run (keeps s a start (List.mem_of_getElem? here))

/-- What the body does with one element and later turns leave is done with all. -/
theorem forEach_visits {done : σ → α → Prop} (keeps : ∀ s a, holds s → a ∈ list s → holds (body s a))
    (grows : ∀ s a, holds s → a ∈ list s → list s <+: list (body s a))
    (does : ∀ s a, holds s → a ∈ list s → done (body s a) a)
    (stays : ∀ s a b, holds s → a ∈ list s → done s b → done (body s a) b)
    (run : forEach list body fuel i s = some s') (start : holds s)
    (before : ∀ b ∈ (list s).take i, done s b) : ∀ b ∈ list s', done s' b := by
  induction fuel generalizing i s with
  | zero => cases run
  | succ fuel ih =>
      rw [forEach] at run
      cases here : (list s)[i]? with
      | none =>
          rw [here] at run
          have all : (list s).take i = list s :=
            List.take_of_length_le (List.getElem?_eq_none_iff.mp here)
          rw [← Option.some.inj run]
          rwa [all] at before
      | some a =>
          rw [here] at run
          have member := List.mem_of_getElem? here
          obtain ⟨inside, same⟩ := List.getElem?_eq_some_iff.mp here
          apply ih run (keeps s a start member)
          obtain ⟨added, longer⟩ := grows s a start member
          rw [← longer, List.take_append_of_le_length inside, List.take_add_one, here]
          intro b listed
          rcases List.mem_append.mp listed with earlier | now
          · exact stays s a b start member (before b earlier)
          · have same' : b = a := by simpa using now
            rw [same']
            exact does s a start member

/-- When every element that is appended uses up some of what there is, the loop ends. -/
theorem forEach_ends (left : σ → Nat) (keeps : ∀ s a, holds s → a ∈ list s → holds (body s a))
    (uses : ∀ s a, holds s → a ∈ list s →
      (list (body s a)).length + left (body s a) ≤ (list s).length + left s)
    (start : holds s) (enough : (list s).length + left s < fuel + i) (within : i ≤ (list s).length)
    (grows : ∀ s a, holds s → a ∈ list s → list s <+: list (body s a)) :
    ∃ s', forEach list body fuel i s = some s' := by
  induction fuel generalizing i s with
  | zero => omega
  | succ fuel ih =>
      rw [forEach]
      cases here : (list s)[i]? with
      | none => exact ⟨s, rfl⟩
      | some a =>
          have member := List.mem_of_getElem? here
          obtain ⟨inside, -⟩ := List.getElem?_eq_some_iff.mp here
          have fewer := uses s a start member
          have longer := (grows s a start member).length_le
          exact ih (keeps s a start member) (by omega) (by omega)

end Catlink.Growing
