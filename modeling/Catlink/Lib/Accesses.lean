import Mathlib.Data.List.Range
import Mathlib.Tactic

/-! What loops read from one buffer and write to another, access by access. -/

namespace Catlink.Accesses

variable {α : Type} {value : Nat → α}

/-- A value written at an index, and the indices that are read for it. -/
structure Access (α : Type) where
  reads : List Nat
  index : Nat
  value : α
  deriving DecidableEq, Repr

/-- What is at an index in the end; `none` when it is never written. -/
def written : List (Access α) → Nat → Option α
  | [], _ => none
  | a :: later, i =>
      match written later i with
      | some v => some v
      | none => if a.index = i then some a.value else none

/-- One write for each index from `start` on, in order, each with its value. -/
def Fills (value : Nat → α) (start count : Nat) (accesses : List (Access α)) : Prop :=
  accesses.map (fun a => (a.index, a.value)) = (List.range' start count).map fun i => (i, value i)

theorem fills_cons {start count : Nat} {a : Access α} {accesses : List (Access α)}
    (index : a.index = start) (stored : a.value = value start)
    (rest : Fills value (start + 1) count accesses) : Fills value start (count + 1) (a :: accesses) := by
  rw [Fills, List.map_cons, rest, List.range'_succ, List.map_cons, index, stored]

theorem Fills.append {start count more : Nat} {first second : List (Access α)}
    (before : Fills value start count first) (after : Fills value (start + count) more second) :
    Fills value start (count + more) (first ++ second) := by
  have split : List.range' start (count + more) =
      List.range' start count ++ List.range' (start + count) more := by
    rw [← List.range'_append, Nat.one_mul]
  rw [Fills, List.map_append, before, after, split, List.map_append]

/-- A loop that writes the next index at each turn. -/
theorem fills_map {start count : Nat} {access : Nat → Access α}
    (index : ∀ i < count, (access i).index = start + i)
    (stored : ∀ i < count, (access i).value = value (start + i)) :
    Fills value start count ((List.range count).map access) := by
  induction count with
  | zero => rfl
  | succ count ih =>
      have before := ih (fun i inside => index i (Nat.lt_succ_of_lt inside))
        fun i inside => stored i (Nat.lt_succ_of_lt inside)
      have last : Fills value (start + count) 1 [access count] :=
        fills_cons (index count (Nat.lt_succ_self _)) (stored count (Nat.lt_succ_self _)) rfl
      rw [List.range_succ, List.map_append]
      exact before.append last

/-- A loop that writes the next `width` indices at each turn. -/
theorem fills_flatMap {start width count : Nat} {accesses : Nat → List (Access α)}
    (each : ∀ i < count, Fills value (start + width * i) width (accesses i)) :
    Fills value start (width * count) ((List.range count).flatMap accesses) := by
  induction count with
  | zero => rfl
  | succ count ih =>
      have before := ih fun i inside => each i (Nat.lt_succ_of_lt inside)
      have last := each count (Nat.lt_succ_self _)
      rw [List.range_succ, List.flatMap_append, List.flatMap_singleton, Nat.mul_succ]
      exact before.append last

section Written

variable {start count : Nat} {accesses : List (Access α)}

theorem Fills.indices (fills : Fills value start count accesses) :
    accesses.map Access.index = List.range' start count := by
  have indices := congrArg (List.map Prod.fst) fills
  rw [List.map_map, List.map_map] at indices
  change accesses.map Access.index = (List.range' start count).map id at indices
  rwa [List.map_id] at indices

/-- Nothing else is written, and nothing twice. -/
theorem Fills.once (fills : Fills value start count accesses) (i : Nat) :
    (accesses.map Access.index).count i = if start ≤ i ∧ i < start + count then 1 else 0 := by
  rw [fills.indices]
  split
  · next inside => exact List.count_eq_one_of_mem List.nodup_range' (List.mem_range'_1.mpr inside)
  · next outside => exact List.count_eq_zero.mpr fun member => outside (List.mem_range'_1.mp member)

theorem Fills.written (fills : Fills value start count accesses) (i : Nat) :
    written accesses i = if start ≤ i ∧ i < start + count then some (value i) else none := by
  induction accesses generalizing start count with
  | nil =>
      have none : count = 0 := by
        have length := congrArg List.length fills
        simpa using length.symm
      rw [none, if_neg (by omega)]
      rfl
  | cons a later ih =>
      cases count with
      | zero => cases fills
      | succ count =>
          rw [Fills, List.map_cons, List.range'_succ, List.map_cons] at fills
          obtain ⟨here, rest⟩ := List.cons.inj fills
          obtain ⟨index, stored⟩ := Prod.mk.inj here
          rw [Accesses.written, ih rest]
          by_cases after : start + 1 ≤ i ∧ i < start + 1 + count
          · have inside : start ≤ i ∧ i < start + (count + 1) := by omega
            rw [if_pos after, if_pos inside]
          · rw [if_neg after]
            dsimp only
            by_cases same : a.index = i
            · rw [if_pos same, if_pos (by omega), stored, ← index, same]
            · rw [if_neg same, if_neg (by omega)]

end Written

end Catlink.Accesses
