import Mathlib.Data.List.Basic
import Mathlib.Tactic

/-! Reading from a stream that arrives in pieces: lines, and reads that may return short. -/

namespace Catlink.Pieces

variable {α : Type}

/-- At most `n` symbols of what has arrived, none only at the end of the stream. -/
def read (n : Nat) : List (List α) → List α × List (List α)
  | [] => ([], [])
  | [] :: pieces => read n pieces
  | piece :: pieces => (piece.take n, piece.drop n :: pieces)

/-- Reads until there are `remaining` symbols, nothing when the stream ends before. -/
def readExact : Nat → Nat → List (List α) → Option (List α × List (List α))
  | _, 0, pieces => some ([], pieces)
  | 0, _ + 1, _ => none
  | fuel + 1, remaining + 1, pieces =>
      match read (remaining + 1) pieces with
      | ([], _) => none
      | (chunk, pieces) =>
          (readExact fuel (remaining + 1 - chunk.length) pieces).map fun later =>
            (chunk ++ later.1, later.2)

section Line

variable [DecidableEq α] (stop : α)

/-- The symbols up to and with the first `stop`, and those after it. -/
def splitLine : List α → Option (List α × List α)
  | [] => none
  | a :: rest =>
      if a = stop then some ([a], rest)
      else (splitLine rest).map fun found => (a :: found.1, found.2)

/-- A line with its end, or what is left at the end of the stream. -/
def readline : List (List α) → List α × List (List α)
  | [] => ([], [])
  | piece :: pieces =>
      match splitLine stop piece with
      | some (line, rest) => (line, rest :: pieces)
      | none => (piece ++ (readline pieces).1, (readline pieces).2)

end Line

/-! ### What they read -/

theorem read_spec {n : Nat} (some : 0 < n) (pieces : List (List α)) :
    ((read n pieces).1 ++ (read n pieces).2.flatten = pieces.flatten) ∧
      (read n pieces).1.length ≤ n ∧ ((read n pieces).1 = [] → pieces.flatten = []) := by
  induction pieces with
  | nil => exact ⟨rfl, Nat.zero_le _, fun _ => rfl⟩
  | cons piece pieces ih =>
      cases piece with
      | nil => exact ih
      | cons a piece =>
          refine ⟨?_, List.length_take_le _ _, ?_⟩
          · rw [read, List.flatten_cons, List.flatten_cons, ← List.append_assoc, List.take_append_drop]
            intro empty
            cases empty
          · intro none
            rw [read] at none
            · rw [List.take_eq_nil_iff] at none
              rcases none with zero | empty
              · omega
              · cases empty
            · intro empty
              cases empty

/-- However the stream is cut, just the symbols asked for are read. -/
theorem readExact_spec {fuel : Nat} {data rest : List α} {pieces : List (List α)}
    (enough : data.length ≤ fuel) (stream : pieces.flatten = data ++ rest) :
    ∃ pieces', readExact fuel data.length pieces = some (data, pieces') ∧ pieces'.flatten = rest := by
  induction fuel generalizing data pieces with
  | zero =>
      cases List.length_eq_zero_iff.mp (Nat.le_zero.mp enough)
      exact ⟨pieces, rfl, stream⟩
  | succ fuel ih =>
      cases data with
      | nil => exact ⟨pieces, by rw [List.length_nil, readExact], stream⟩
      | cons a data =>
          obtain ⟨whole, short, ended⟩ := read_spec (Nat.succ_pos data.length) pieces
          have nonempty : (read (data.length + 1) pieces).1 ≠ [] := by
            intro none
            rw [ended none] at stream
            cases stream
          generalize taken : read (data.length + 1) pieces = found at whole short nonempty
          obtain ⟨chunk, later⟩ := found
          dsimp only at whole short nonempty
          rw [stream] at whole
          obtain ⟨others, split⟩ : chunk <+: a :: data :=
            List.prefix_of_prefix_length_le ⟨later.flatten, whole⟩ ⟨rest, rfl⟩ short
          rw [← split, List.append_assoc, List.append_cancel_left_eq] at whole
          have positive := List.length_pos_iff.mpr nonempty
          have size := congrArg List.length split
          rw [List.length_append, List.length_cons] at size
          rw [List.length_cons] at enough
          obtain ⟨pieces', others', after⟩ : ∃ pieces', readExact fuel others.length later =
              some (others, pieces') ∧ pieces'.flatten = rest := ih (by omega) whole
          have left : data.length + 1 - chunk.length = others.length := by omega
          refine ⟨pieces', ?_, after⟩
          rw [List.length_cons, readExact, taken]
          cases chunk with
          | nil => exact absurd rfl nonempty
          | cons c chunk =>
              dsimp only
              rw [left, others', ← split]
              rfl

section Line

variable [DecidableEq α] {stop : α}

theorem splitLine_some {piece : List α} (inside : stop ∈ piece) :
    ∃ line rest, splitLine stop piece = some (line ++ [stop], rest) ∧ stop ∉ line ∧
      piece = line ++ [stop] ++ rest := by
  induction piece with
  | nil => cases inside
  | cons a piece ih =>
      by_cases here : a = stop
      · subst here
        exact ⟨[], piece, if_pos rfl, List.not_mem_nil, rfl⟩
      · have later : stop ∈ piece := by
          rcases List.mem_cons.mp inside with same | later
          · exact absurd same.symm here
          · exact later
        obtain ⟨line, rest, found, clean, whole⟩ := ih later
        refine ⟨a :: line, rest, ?_, ?_, ?_⟩
        · rw [splitLine, if_neg here, found]
          rfl
        · rw [List.mem_cons]
          rintro (same | member)
          · exact here same.symm
          · exact clean member
        · rw [whole]
          rfl

theorem splitLine_none {piece : List α} (outside : stop ∉ piece) : splitLine stop piece = none := by
  induction piece with
  | nil => rfl
  | cons a piece ih =>
      rw [List.mem_cons, not_or] at outside
      rw [splitLine, if_neg (fun same => outside.1 same.symm), ih outside.2]
      rfl

omit [DecidableEq α] in
theorem split_unique {line line' rest rest' : List α} (clean : stop ∉ line) (clean' : stop ∉ line')
    (same : line ++ stop :: rest = line' ++ stop :: rest') : line = line' ∧ rest = rest' := by
  induction line generalizing line' with
  | nil =>
      cases line' with
      | nil => exact ⟨rfl, (List.cons.inj same).2⟩
      | cons a line' =>
          cases (List.cons.inj same).1
          exact absurd List.mem_cons_self clean'
  | cons a line ih =>
      cases line' with
      | nil =>
          cases (List.cons.inj same).1
          exact absurd List.mem_cons_self clean
      | cons b line' =>
          rw [List.mem_cons, not_or] at clean clean'
          obtain ⟨first, others⟩ := List.cons.inj same
          obtain ⟨lines, after⟩ := ih clean.2 clean'.2 others
          exact ⟨by rw [first, lines], after⟩

/-- The line ends at the first `stop`, wherever the stream is cut. -/
theorem readline_spec {line rest : List α} {pieces : List (List α)} (clean : stop ∉ line)
    (stream : pieces.flatten = line ++ stop :: rest) :
    ∃ pieces', readline stop pieces = (line ++ [stop], pieces') ∧ pieces'.flatten = rest := by
  induction pieces generalizing line with
  | nil => simp at stream
  | cons piece pieces ih =>
      rw [List.flatten_cons] at stream
      by_cases inside : stop ∈ piece
      · obtain ⟨line', rest', found, clean', whole⟩ := splitLine_some inside
        rw [whole, List.append_assoc, List.append_assoc, List.singleton_append] at stream
        obtain ⟨rfl, after⟩ := split_unique clean' clean stream
        refine ⟨rest' :: pieces, ?_, ?_⟩
        · rw [readline, found]
        · rw [List.flatten_cons, after]
      · obtain ⟨others, rfl⟩ : piece <+: line := by
          have one : piece <+: line ++ stop :: rest := ⟨pieces.flatten, stream⟩
          have other : line <+: line ++ stop :: rest := ⟨stop :: rest, rfl⟩
          rcases List.prefix_or_prefix_of_prefix one other with shorter | longer
          · exact shorter
          -- a piece longer than the line would have the `stop`
          · obtain ⟨more, rfl⟩ := longer
            rw [List.append_assoc, List.append_cancel_left_eq] at stream
            cases more with
            | nil => exact ⟨[], by rw [List.append_nil, List.append_nil]⟩
            | cons a more =>
                cases (List.cons.inj stream).1
                exact absurd (List.mem_append_right _ List.mem_cons_self) inside
        rw [List.append_assoc, List.append_cancel_left_eq] at stream
        obtain ⟨pieces', later, after⟩ := ih (fun member => clean (List.mem_append_right _ member)) stream
        refine ⟨pieces', ?_, after⟩
        rw [readline, splitLine_none inside]
        dsimp only
        rw [later, List.append_assoc]

end Line

end Catlink.Pieces
