import Mathlib.Tactic

/-! A stream that is cut into reads: where they end, and what they make up. -/

namespace Catlink.Cuts

variable {α : Type}

/-- One of the reads ends after `n` symbols of the stream. -/
def EndsAt (reads : List (List α)) (n : Nat) : Prop :=
  ∃ before after, reads = before ++ after ∧ before.flatten.length = n

theorem endsAt_zero (reads : List (List α)) : EndsAt reads 0 := ⟨[], reads, rfl, rfl⟩

theorem endsAt_cons {buf : List α} {reads : List (List α)} {n : Nat} (later : 0 < n) :
    EndsAt (buf :: reads) n ↔ buf.length ≤ n ∧ EndsAt reads (n - buf.length) := by
  constructor
  · rintro ⟨before, after, split, size⟩
    rcases before with _ | ⟨first, before⟩
    · simp only [List.flatten_nil, List.length_nil] at size
      omega
    · obtain ⟨rfl, rfl⟩ := List.cons.inj split
      rw [List.flatten_cons, List.length_append] at size
      exact ⟨by omega, before, after, rfl, by omega⟩
  · rintro ⟨within, before, after, rfl, size⟩
    refine ⟨buf :: before, after, rfl, ?_⟩
    rw [List.flatten_cons, List.length_append]
    omega

/-- The end of the first read is the first end. -/
theorem endsAt_first {buf : List α} {reads : List (List α)} {n : Nat} (later : 0 < n)
    (within : n ≤ buf.length) : EndsAt (buf :: reads) n ↔ buf.length = n := by
  rw [endsAt_cons later]
  constructor
  · rintro ⟨short, -⟩
    omega
  · intro same
    refine ⟨by omega, ?_⟩
    rw [same, Nat.sub_self]
    exact endsAt_zero reads

/-- The reads without the first `n` symbols of the stream. -/
def dropReads : Nat → List (List α) → List (List α)
  | _, [] => []
  | n, buf :: reads =>
      if n < buf.length then buf.drop n :: reads else dropReads (n - buf.length) reads

theorem dropReads_zero {reads : List (List α)} (filled : ∀ buf ∈ reads, buf ≠ []) :
    dropReads 0 reads = reads := by
  cases reads with
  | nil => rfl
  | cons buf reads =>
      have some := List.length_pos_iff.mpr (filled buf List.mem_cons_self)
      rw [dropReads, if_pos some, List.drop_zero]

theorem dropReads_flatten (n : Nat) (reads : List (List α)) :
    (dropReads n reads).flatten = reads.flatten.drop n := by
  induction reads generalizing n with
  | nil => rw [dropReads, List.flatten_nil, List.drop_nil]
  | cons buf reads ih =>
      rw [dropReads, List.flatten_cons]
      split
      · next inside => rw [List.flatten_cons, List.drop_append_of_le_length (Nat.le_of_lt inside)]
      · next outside =>
          have first : buf.drop n = [] := List.drop_of_length_le (Nat.le_of_not_lt outside)
          rw [ih, List.drop_append, first, List.nil_append]

theorem dropReads_add (n k : Nat) (reads : List (List α)) :
    dropReads (n + k) reads = dropReads k (dropReads n reads) := by
  induction reads generalizing n with
  | nil => rfl
  | cons buf reads ih =>
      rw [dropReads, dropReads]
      split
      · next both => rw [if_pos (by omega), dropReads, if_pos (by rw [List.length_drop]; omega),
          List.drop_drop]
      · next beyond =>
          split
          · next inside =>
              have same : n + k - buf.length = k - (buf.drop n).length := by
                rw [List.length_drop]
                omega
              rw [dropReads, if_neg (by rw [List.length_drop]; omega), same]
          · next outside =>
              have same : n + k - buf.length = n - buf.length + k := by omega
              rw [same, ih]

theorem dropReads_filled {reads : List (List α)} (filled : ∀ buf ∈ reads, buf ≠ []) (n : Nat) :
    ∀ buf ∈ dropReads n reads, buf ≠ [] := by
  induction reads generalizing n with
  | nil =>
      intro buf inside
      cases inside
  | cons first reads ih =>
      rw [dropReads]
      split
      · next inside =>
          intro buf member
          rcases List.mem_cons.mp member with rfl | later
          · intro empty
            have size := congrArg List.length empty
            rw [List.length_drop, List.length_nil] at size
            omega
          · exact filled buf (List.mem_cons_of_mem _ later)
      · exact ih (fun buf later => filled buf (List.mem_cons_of_mem _ later)) _

theorem endsAt_dropReads {reads : List (List α)} (n : Nat) {k : Nat} (later : 0 < k) :
    EndsAt reads (n + k) ↔ EndsAt (dropReads n reads) k := by
  induction reads generalizing n with
  | nil =>
      constructor
      · rintro ⟨before, after, split, size⟩
        obtain ⟨rfl, rfl⟩ := List.append_eq_nil_iff.mp split.symm
        simp only [List.flatten_nil, List.length_nil] at size
        omega
      · rintro ⟨before, after, split, size⟩
        rw [dropReads] at split
        obtain ⟨rfl, rfl⟩ := List.append_eq_nil_iff.mp split.symm
        simp only [List.flatten_nil, List.length_nil] at size
        omega
  | cons buf reads ih =>
      rw [dropReads, endsAt_cons (by omega)]
      split
      · next inside =>
          rw [endsAt_cons later, List.length_drop]
          have same : n + k - buf.length = k - (buf.length - n) := by omega
          rw [same]
          constructor
          · rintro ⟨short, ends⟩
            exact ⟨by omega, ends⟩
          · rintro ⟨short, ends⟩
            exact ⟨by omega, ends⟩
      · next outside =>
          have same : n + k - buf.length = n - buf.length + k := by omega
          rw [same, ih]
          constructor
          · rintro ⟨-, ends⟩
            exact ends
          · intro ends
            exact ⟨by omega, ends⟩

/-! ### Pieces of some size -/

/-- The pieces the reads make up for one who waits for `size` symbols and then takes all. -/
def gathered (size : Nat) (held : List α) : List (List α) → List (List α)
  | [] => []
  | buf :: reads =>
      if (held ++ buf).length < size then gathered size (held ++ buf) reads
      else (held ++ buf) :: gathered size [] reads

/-- With what is held, the first reads make up a piece; the others come after it. -/
inductive First (size : Nat) : List α → List (List α) → List α → List (List α) → Prop
  | now {held buf : List α} (reads : List (List α)) (enough : size ≤ (held ++ buf).length) :
      First size held (buf :: reads) (held ++ buf) reads
  | wait {held buf piece : List α} {reads after : List (List α)}
      (few : (held ++ buf).length < size) (later : First size (held ++ buf) reads piece after) :
      First size held (buf :: reads) piece after

variable {size : Nat} {held piece : List α} {reads after : List (List α)}

theorem gathered_first (enough : size ≤ held.length + reads.flatten.length) (short : held.length < size) :
    ∃ piece after, First size held reads piece after := by
  induction reads generalizing held with
  | nil =>
      simp only [List.flatten_nil, List.length_nil] at enough
      omega
  | cons buf reads ih =>
      rw [List.flatten_cons, List.length_append] at enough
      have both : (held ++ buf).length = held.length + buf.length := List.length_append
      by_cases still : (held ++ buf).length < size
      · obtain ⟨piece, after, later⟩ := ih (by omega) still
        exact ⟨piece, after, .wait still later⟩
      · exact ⟨held ++ buf, reads, .now reads (by omega)⟩

theorem First.pieces (first : First size held reads piece after) :
    gathered size held reads = piece :: gathered size [] after := by
  induction first with
  | now reads enough => rw [gathered, if_neg (by omega)]
  | wait few later ih => rw [gathered, if_pos few, ih]

theorem First.stream (first : First size held reads piece after) :
    held ++ reads.flatten = piece ++ after.flatten := by
  induction first with
  | now reads enough => rw [List.flatten_cons, List.append_assoc]
  | wait few later ih => rw [List.flatten_cons, ← List.append_assoc, ih]

theorem First.enough (first : First size held reads piece after) : size ≤ piece.length := by
  induction first with
  | now reads enough => exact enough
  | wait few later ih => exact ih

theorem First.sub (first : First size held reads piece after) : ∀ buf ∈ after, buf ∈ reads := by
  induction first with
  | now reads enough => exact fun buf inside => List.mem_cons_of_mem _ inside
  | wait few later ih => exact fun buf inside => List.mem_cons_of_mem _ (ih buf inside)

theorem First.fewer (first : First size held reads piece after) : after.length < reads.length := by
  induction first with
  | now reads enough => exact Nat.lt_succ_self _
  | wait few later ih => exact Nat.lt_succ_of_lt ih

/-- The piece is of that size when a read ends there. -/
theorem First.ends (first : First size held reads piece after) (short : held.length < size) :
    EndsAt reads (size - held.length) ↔ piece.length = size := by
  induction first with
  | @now held buf reads enough =>
      have both : (held ++ buf).length = held.length + buf.length := List.length_append
      rw [endsAt_first (by omega) (by omega), both]
      omega
  | @wait held buf piece reads after few later ih =>
      have both : (held ++ buf).length = held.length + buf.length := List.length_append
      have same : size - held.length - buf.length = size - (held ++ buf).length := by omega
      rw [endsAt_cons (by omega), same, ih few]
      constructor
      · rintro ⟨-, ends⟩
        exact ends
      · intro ends
        exact ⟨by omega, ends⟩

/-- The other reads come after a piece of that size. -/
theorem First.drops (first : First size held reads piece after) (whole : piece.length = size)
    (filled : ∀ buf ∈ after, buf ≠ []) : dropReads (size - held.length) reads = after := by
  induction first with
  | @now held buf reads enough =>
      have both : (held ++ buf).length = held.length + buf.length := List.length_append
      have same : size - held.length - buf.length = 0 := by omega
      rw [dropReads, if_neg (by omega), same, dropReads_zero filled]
  | @wait held buf piece reads after few later ih =>
      have both : (held ++ buf).length = held.length + buf.length := List.length_append
      have same : size - held.length - buf.length = size - (held ++ buf).length := by omega
      rw [dropReads, if_neg (by omega), same, ih whole filled]

/-- Too little is left for a piece. -/
theorem gathered_none (few : held.length + reads.flatten.length < size) :
    gathered size held reads = [] := by
  induction reads generalizing held with
  | nil => rfl
  | cons buf reads ih =>
      rw [List.flatten_cons, List.length_append] at few
      have both : (held ++ buf).length = held.length + buf.length := List.length_append
      rw [gathered, if_pos (by omega)]
      exact ih (by omega)

end Catlink.Cuts
