import Mathlib.Data.List.Basic
import Mathlib.Tactic

/-! Rows of a rectangle laid out one after another, a stride apart. -/

namespace Catlink.Rows

variable {α : Type}

/-- `data[pos:pos + n]` -/
def slice (data : List α) (pos n : Nat) : List α := (data.drop pos).take n

/-- The `n` elements from `pos` on, if they are all there. -/
def readAt (data : List α) (pos n : Nat) : Option (List α) :=
  if pos + n ≤ data.length then some (slice data pos n) else none

/-- The first `n` elements of rows that start at `pos`, `pos + stride` and so on. -/
def rows (data : List α) (stride n : Nat) : Nat → Nat → List (List α)
  | 0, _ => []
  | count + 1, pos => slice data pos n :: rows data stride n count (pos + stride)

theorem slice_length (data : List α) (pos n : Nat) :
    (slice data pos n).length = min n (data.length - pos) := by
  rw [slice, List.length_take, List.length_drop]

section Reading

variable {data : List α} {pos n : Nat} {found : List α}

theorem readAt_eq_some : readAt data pos n = some found ↔ pos + n ≤ data.length ∧ slice data pos n = found := by
  unfold readAt
  split
  · rename_i inside
    rw [Option.some_inj]
    exact ⟨fun same => ⟨inside, same⟩, fun both => both.2⟩
  · rename_i outside
    exact ⟨nofun, fun both => absurd both.1 outside⟩

theorem readAt_some (inside : pos + n ≤ data.length) : readAt data pos n = some (slice data pos n) :=
  if_pos inside

theorem readAt_length (read : readAt data pos n = some found) : found.length = n := by
  obtain ⟨inside, rfl⟩ := readAt_eq_some.mp read
  rw [slice_length]
  omega

/-- What lies within a slice is read from it. -/
theorem readAt_slice {start len : Nat} (read : readAt data (start + pos) n = some found)
    (within : pos + n ≤ len) : readAt (slice data start len) pos n = some found := by
  obtain ⟨inside, rfl⟩ := readAt_eq_some.mp read
  refine readAt_eq_some.mpr ⟨?_, ?_⟩
  · rw [slice_length]
    omega
  · rw [slice, slice, slice, List.drop_take, List.drop_drop, List.take_take,
      Nat.min_eq_left (by omega)]

theorem readAt_append_left (read : readAt data pos n = some found) (more : List α) :
    readAt (data ++ more) pos n = some found := by
  obtain ⟨inside, rfl⟩ := readAt_eq_some.mp read
  refine readAt_eq_some.mpr ⟨?_, ?_⟩
  · rw [List.length_append]
    omega
  · rw [slice, slice, List.drop_append_of_le_length (by omega), List.take_append_of_le_length]
    rw [List.length_drop]
    omega

theorem readAt_append_right (before : List α) :
    readAt (before ++ data) (before.length + pos) n = readAt data pos n := by
  unfold readAt slice
  rw [List.length_append, List.drop_append, Nat.add_sub_cancel_left,
    List.drop_of_length_le (Nat.le_add_right _ _), List.nil_append, Nat.add_assoc]
  simp only [Nat.add_le_add_iff_left]

/-- Reading in row `j` when the rows before it are as long as the stride. -/
theorem readAt_flatten {lines : List (List α)} {stride j : Nat} {line : List α}
    (row : lines[j]? = some line) (full : ∀ i < j, ∀ l, lines[i]? = some l → l.length = stride)
    (read : readAt line pos n = some found) : readAt lines.flatten (j * stride + pos) n = some found := by
  induction j generalizing lines with
  | zero =>
      cases lines with
      | nil => cases row
      | cons first rest =>
          cases row
          rw [List.flatten_cons, Nat.zero_mul, Nat.zero_add]
          exact readAt_append_left read _
  | succ j ih =>
      cases lines with
      | nil => cases row
      | cons first rest =>
          have width : first.length = stride := full 0 (Nat.succ_pos j) first rfl
          have later : readAt rest.flatten (j * stride + pos) n = some found :=
            ih row fun i earlier l there => full (i + 1) (by omega) l there
          rw [List.flatten_cons, Nat.succ_mul, Nat.add_comm (j * stride), Nat.add_assoc, ← width,
            readAt_append_right, width]
          exact later

section Lines

variable {f : Nat → List α} {count stride : Nat}

/-- Lines of one length. -/
theorem flatten_map_length (full : ∀ i < count, (f i).length = stride) :
    ((List.range count).map f).flatten.length = count * stride := by
  induction count with
  | zero => rw [Nat.zero_mul]; rfl
  | succ count ih =>
      rw [List.range_succ, List.map_append, List.flatten_append, List.length_append,
        ih fun i below => full i (Nat.lt_succ_of_lt below), List.map_singleton, List.flatten_singleton,
        full count (Nat.lt_succ_self count), Nat.succ_mul]

theorem slice_flatten_map (full : ∀ i < count, (f i).length = stride) {j : Nat} (below : j < count) :
    slice ((List.range count).map f).flatten (j * stride) stride = f j := by
  have there (i : Nat) (before : i < count) : ((List.range count).map f)[i]? = some (f i) := by
    rw [List.getElem?_map, List.getElem?_range before]
    rfl
  have whole : readAt (f j) 0 stride = some (f j) := by
    refine readAt_eq_some.mpr ⟨by rw [full j below, Nat.zero_add], ?_⟩
    rw [slice, List.drop_zero, List.take_of_length_le (Nat.le_of_eq (full j below))]
  have read := readAt_flatten (there j below) (fun i before l line => by
    rw [there i (by omega), Option.some_inj] at line
    rw [← line]
    exact full i (by omega)) whole
  exact (readAt_eq_some.mp read).2

end Lines

end Reading

theorem rows_getElem (data : List α) (stride n : Nat) {count pos j : Nat} (inside : j < count) :
    (rows data stride n count pos)[j]? = some (slice data (pos + j * stride) n) := by
  induction count generalizing pos j with
  | zero => omega
  | succ count ih =>
      cases j with
      | zero => simp [rows]
      | succ j =>
          rw [rows, List.getElem?_cons_succ, ih (by omega), Nat.succ_mul]
          congr 2
          omega

theorem rows_length (data : List α) (stride n count pos : Nat) :
    (rows data stride n count pos).length = count := by
  induction count generalizing pos with
  | zero => rfl
  | succ count ih => rw [rows, List.length_cons, ih]

theorem rows_congr {data data' : List α} {stride stride' n count pos pos' : Nat}
    (same : ∀ k < count, slice data (pos + k * stride) n = slice data' (pos' + k * stride') n) :
    rows data stride n count pos = rows data' stride' n count pos' := by
  apply List.ext_getElem?
  intro k
  rcases Nat.lt_or_ge k count with inside | past
  · rw [rows_getElem _ _ _ inside, rows_getElem _ _ _ inside, same k inside]
  · rw [List.getElem?_eq_none (by rw [rows_length]; exact past),
      List.getElem?_eq_none (by rw [rows_length]; exact past)]

theorem mem_rows {data : List α} {stride n count pos : Nat} {line : List α}
    (member : line ∈ rows data stride n count pos) : ∃ k, line = slice data (pos + k * stride) n := by
  obtain ⟨k, there⟩ := List.mem_iff_getElem?.mp member
  obtain ⟨inside, -⟩ := List.getElem?_eq_some_iff.mp there
  rw [rows_length] at inside
  rw [rows_getElem _ _ _ inside] at there
  cases there
  exact ⟨k, rfl⟩

theorem rows_short {data : List α} {stride n count pos : Nat} {line : List α}
    (member : line ∈ rows data stride n count pos) : line.length ≤ n := by
  obtain ⟨k, rfl⟩ := mem_rows member
  rw [slice_length]
  exact Nat.min_le_left _ _

/-- Later rows are not longer than earlier ones. -/
theorem rows_longer (data : List α) (stride n count pos : Nat) :
    (rows data stride n count pos).Pairwise fun before line => line.length ≤ before.length := by
  induction count generalizing pos with
  | zero => exact List.Pairwise.nil
  | succ count ih =>
      rw [rows, List.pairwise_cons]
      refine ⟨?_, ih _⟩
      intro line member
      obtain ⟨k, rfl⟩ := mem_rows member
      rw [slice_length, slice_length]
      omega

end Catlink.Rows
