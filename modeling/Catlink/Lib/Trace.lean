import Mathlib.Data.List.Basic

/-! Logs in which every event is allowed by the events before it. -/

namespace Catlink.Trace

variable {ε : Type}

/-- Each of the events is allowed by the past and the events in front of it. -/
def Respects (allowed : List ε → ε → Prop) : List ε → List ε → Prop
  | _, [] => True
  | past, e :: events => allowed past e ∧ Respects allowed (past ++ [e]) events

variable {allowed : List ε → ε → Prop} {past : List ε}

theorem Respects.append {first second : List ε} (one : Respects allowed past first)
    (two : Respects allowed (past ++ first) second) : Respects allowed past (first ++ second) := by
  induction first generalizing past with
  | nil => simpa using two
  | cons e first ih =>
      refine ⟨one.1, ih one.2 ?_⟩
      simpa [List.append_assoc] using two

theorem Respects.split {first second : List ε} (whole : Respects allowed past (first ++ second)) :
    Respects allowed past first ∧ Respects allowed (past ++ first) second := by
  induction first generalizing past with
  | nil => exact ⟨trivial, by simpa using whole⟩
  | cons e first ih =>
      obtain ⟨one, two⟩ := ih whole.2
      refine ⟨⟨whole.1, one⟩, ?_⟩
      simpa [List.append_assoc] using two

/-- What stands in front of an event of the log allows it. -/
theorem Respects.allows {log : List ε} (respects : Respects allowed [] log) (before : List ε) {e : ε}
    {after : List ε} (here : log = before ++ e :: after) : allowed before e := by
  rw [here] at respects
  have later := respects.split.2
  rw [List.nil_append] at later
  exact later.1

end Catlink.Trace
