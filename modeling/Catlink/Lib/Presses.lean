import Mathlib.Data.List.Basic
import Mathlib.Data.List.Nodup

/-! Streams of presses and releases, and the keys that they leave down. -/

namespace Catlink.Presses

variable {K : Type} [DecidableEq K]

/-- The keys that are down after a press or a release; a key that is down is not pressed again, and
only a key that is down is released. -/
def stroke (down : List K) : K × Bool → Option (List K)
  | (key, true) => if key ∈ down then none else some (down ++ [key])
  | (key, false) => if key ∈ down then some (down.filter (· ≠ key)) else none

/-- The keys that are down after all of them. -/
def played : List K → List (K × Bool) → Option (List K)
  | down, [] => some down
  | down, s :: strokes => (stroke down s).bind fun down => played down strokes

theorem played_append (down : List K) (first second : List (K × Bool)) :
    played down (first ++ second) = (played down first).bind fun down => played down second := by
  induction first generalizing down with
  | nil => rfl
  | cons s first ih =>
      rw [List.cons_append, played, played, Option.bind_assoc]
      congr
      funext between
      exact ih between

theorem stroke_nodup {down down' : List K} {s : K × Bool} (distinct : down.Nodup)
    (stroked : stroke down s = some down') : down'.Nodup := by
  obtain ⟨key, press⟩ := s
  cases press with
  | true =>
      rw [stroke] at stroked
      split at stroked
      · cases stroked
      · next up =>
          cases stroked
          rw [List.nodup_append]
          refine ⟨distinct, List.nodup_singleton key, ?_⟩
          intro one old two new same
          rw [List.mem_singleton] at new
          exact up (new ▸ same ▸ old)
  | false =>
      rw [stroke] at stroked
      split at stroked
      · cases stroked
        exact distinct.filter _
      · cases stroked

theorem played_nodup {down down' : List K} {strokes : List (K × Bool)} (distinct : down.Nodup)
    (plays : played down strokes = some down') : down'.Nodup := by
  induction strokes generalizing down with
  | nil =>
      cases plays
      exact distinct
  | cons s strokes ih =>
      rw [played] at plays
      obtain ⟨between, stroked, plays⟩ := Option.bind_eq_some_iff.mp plays
      exact ih (stroke_nodup distinct stroked) plays

theorem press_up {down : List K} {key : K} (up : key ∉ down) :
    played down [(key, true)] = some (down ++ [key]) := by
  simp [played, stroke, up]

theorem release_down {down : List K} {key : K} (held : key ∈ down) :
    played down [(key, false)] = some (down.filter (· ≠ key)) := by
  simp [played, stroke, held]

end Catlink.Presses
