import Mathlib.Data.List.Basic

/-! Pictures painted over stroke by stroke. -/

namespace Catlink.Paint

variable {P C : Type}

/-- The points that a stroke covers and the colours it leaves there. -/
structure Stroke (P C : Type) where
  covers : P → Bool
  colour : P → C

def Stroke.apply (stroke : Stroke P C) (picture : P → C) : P → C :=
  fun p => if stroke.covers p then stroke.colour p else picture p

/-- The strokes in order. -/
def paint (strokes : List (Stroke P C)) (picture : P → C) : P → C :=
  strokes.foldl (fun picture stroke => stroke.apply picture) picture

@[simp] theorem paint_nil (picture : P → C) : paint [] picture = picture := rfl

@[simp] theorem paint_cons (stroke : Stroke P C) (strokes : List (Stroke P C)) (picture : P → C) :
    paint (stroke :: strokes) picture = paint strokes (stroke.apply picture) := rfl

theorem paint_append (strokes strokes' : List (Stroke P C)) (picture : P → C) :
    paint (strokes ++ strokes') picture = paint strokes' (paint strokes picture) :=
  List.foldl_append

/-- Where every stroke leaves the colour wanted, and what no stroke covers has it already, the
order of the strokes and their overlaps do not matter. -/
theorem paint_eq {strokes : List (Stroke P C)} {picture : P → C} {p : P} {wanted : C}
    (right : ∀ stroke ∈ strokes, stroke.covers p = true → stroke.colour p = wanted)
    (rest : (∀ stroke ∈ strokes, stroke.covers p = false) → picture p = wanted) :
    paint strokes picture p = wanted := by
  induction strokes generalizing picture with
  | nil =>
      apply rest
      intro stroke member
      cases member
  | cons stroke strokes ih =>
      obtain ⟨first, others⟩ := List.forall_mem_cons.mp right
      rw [paint_cons]
      apply ih others
      intro untouched
      unfold Stroke.apply
      split
      · rename_i covered
        exact first covered
      · rename_i outside
        apply rest
        rw [List.forall_mem_cons]
        exact ⟨Bool.eq_false_iff.mpr outside, untouched⟩

/-- A point is painted over by itself. -/
theorem paint_congr (strokes : List (Stroke P C)) {picture picture' : P → C} {p : P}
    (same : picture p = picture' p) : paint strokes picture p = paint strokes picture' p := by
  induction strokes generalizing picture picture' with
  | nil => exact same
  | cons stroke strokes ih =>
      rw [paint_cons, paint_cons]
      apply ih
      unfold Stroke.apply
      rw [same]

/-- What no stroke covers stays. -/
theorem paint_outside {strokes : List (Stroke P C)} {picture : P → C} {p : P}
    (outside : ∀ stroke ∈ strokes, stroke.covers p = false) : paint strokes picture p = picture p :=
  paint_eq (fun stroke member covered => by rw [outside stroke member] at covered; cases covered)
    (fun _ => rfl)

end Catlink.Paint
