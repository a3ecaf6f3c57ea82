import Mathlib.Logic.Basic
import Mathlib.Data.List.Basic

/-! Runs of a transition system, and the invariants of all of them. -/

namespace Catlink.Runs

variable {State Action : Type}

/-- The states that some run reaches from an initial one. -/
inductive Reachable (initial : State → Prop) (step : State → Action → State → Prop) : State → Prop
  | start {s : State} (first : initial s) : Reachable initial step s
  | next {s s' : State} {a : Action} (before : Reachable initial step s) (taken : step s a s') :
      Reachable initial step s'

variable {initial : State → Prop} {step : State → Action → State → Prop}

/-- What holds at the start and through every step holds of every reachable state. -/
theorem Reachable.invariant {Inv : State → Prop} (starts : ∀ s, initial s → Inv s)
    (kept : ∀ s a s', Inv s → step s a s' → Inv s') {s : State}
    (reachable : Reachable initial step s) : Inv s := by
  induction reachable with
  | start first => exact starts _ first
  | next before taken ih => exact kept _ _ _ ih taken

theorem Reachable.mono {step' : State → Action → State → Prop}
    (weaker : ∀ s a s', step s a s' → step' s a s') {s : State} (reachable : Reachable initial step s) :
    Reachable initial step' s := by
  induction reachable with
  | start first => exact .start first
  | next before taken ih => exact .next ih (weaker _ _ _ taken)

/-- A step that was taken. -/
structure Transition (State Action : Type) where
  before : State
  action : Action
  after : State

/-- The steps taken from an initial state, the oldest first, and the state they lead to. -/
inductive History (initial : State → Prop) (step : State → Action → State → Prop) :
    List (Transition State Action) → State → Prop
  | start {s : State} (first : initial s) : History initial step [] s
  | next {log : List (Transition State Action)} {s s' : State} {a : Action}
      (before : History initial step log s) (taken : step s a s') :
      History initial step (log ++ [⟨s, a, s'⟩]) s'

/-- What holds at the start and through every step, of the state and of the steps before it. -/
theorem History.invariant {Inv : List (Transition State Action) → State → Prop}
    (starts : ∀ s, initial s → Inv [] s)
    (kept : ∀ log s a s', Inv log s → step s a s' → Inv (log ++ [⟨s, a, s'⟩]) s')
    {log : List (Transition State Action)} {s : State} (history : History initial step log s) :
    Inv log s := by
  induction history with
  | start first => exact starts _ first
  | next before taken ih => exact kept _ _ _ _ ih taken

/-- A step of a history was taken after the steps in front of it. -/
theorem History.split {log earlier later : List (Transition State Action)}
    {t : Transition State Action} {s : State} (history : History initial step log s)
    (here : log = earlier ++ t :: later) :
    History initial step earlier t.before ∧ step t.before t.action t.after := by
  induction history generalizing later with
  | start first => simp at here
  | @next log s s' a before taken ih =>
      rcases List.eq_nil_or_concat later with rfl | ⟨front, last, rfl⟩
      · obtain ⟨rfl, same⟩ := List.append_inj' here rfl
        rw [List.singleton_inj] at same
        rw [← same]
        exact ⟨before, taken⟩
      · have cut : log ++ [⟨s, a, s'⟩] = (earlier ++ t :: front) ++ [last] := by
          rw [here]
          simp
        exact ih (List.append_inj' cut rfl).1

/-- What holds after a step of a history and through every later one holds at its end. -/
theorem History.since {Inv : State → Prop} {log earlier later : List (Transition State Action)}
    {t : Transition State Action} {s : State} (history : History initial step log s)
    (here : log = earlier ++ t :: later) (starts : Inv t.after)
    (kept : ∀ u ∈ later, step u.before u.action u.after → Inv u.before → Inv u.after) : Inv s := by
  induction history generalizing later with
  | start first => simp at here
  | @next log s s' a before taken ih =>
      rcases List.eq_nil_or_concat later with rfl | ⟨front, last, rfl⟩
      · obtain ⟨-, same⟩ := List.append_inj' here rfl
        rw [List.singleton_inj] at same
        rw [← same] at starts
        exact starts
      · have cut : log ++ [⟨s, a, s'⟩] = (earlier ++ t :: front) ++ [last] := by
          rw [here]
          simp
        obtain ⟨rest, same⟩ := List.append_inj' cut rfl
        rw [List.singleton_inj] at same
        subst same
        rw [List.concat_eq_append] at kept
        have held := ih rest fun u member => kept u (List.mem_append_left _ member)
        exact kept _ (List.mem_append_right _ (List.mem_singleton.mpr rfl)) taken held

theorem History.reachable {log : List (Transition State Action)} {s : State}
    (history : History initial step log s) : Reachable initial step s := by
  induction history with
  | start first => exact .start first
  | next before taken ih => exact .next ih taken

end Catlink.Runs
