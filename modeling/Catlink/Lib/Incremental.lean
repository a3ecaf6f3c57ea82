import Mathlib.Tactic

/-! Incremental parsers of a stream: what they do may not depend on how the stream is cut. -/

namespace Catlink.Incremental

/-- What a parser decides on the symbols it holds. -/
inductive Verdict (σ ω ε : Type)
  /-- nothing can be decided before more symbols arrive -/
  | more
  /-- the first `count` symbols are consumed -/
  | take (count : Nat) (next : σ) (outs : List ω)
  | stop (reason : ε)

/-- A parser whose decisions are final: more input never revises a verdict. -/
structure Parser (α σ ω ε : Type) where
  judge : σ → List α → Verdict σ ω ε
  rank : σ → Nat
  idle : ∀ s, judge s [] = .more
  bounded : ∀ {s xs count next outs}, judge s xs = .take count next outs → count ≤ xs.length
  progress : ∀ {s xs count next outs}, judge s xs = .take count next outs →
    0 < count ∨ rank next < rank s
  final : ∀ {s xs} ys, judge s xs ≠ .more → judge s (xs ++ ys) = judge s xs

inductive Outcome (α σ ε : Type)
  | waiting (s : σ) (held : List α)
  | stopped (reason : ε)

variable {α σ ω ε : Type}

/-- Outputs emitted first stand before those of the rest of the run. -/
def emit (outs : List ω) (r : List ω × Outcome α σ ε) : List ω × Outcome α σ ε :=
  (outs ++ r.1, r.2)

@[simp] theorem emit_nil (r : List ω × Outcome α σ ε) : emit [] r = r := rfl

@[simp] theorem emit_emit (first second : List ω) (r : List ω × Outcome α σ ε) :
    emit first (emit second r) = emit (first ++ second) r := by
  simp [emit]

namespace Parser

variable (p : Parser α σ ω ε)

/-- Take everything that can be decided from the held symbols. -/
def drain (s : σ) (xs : List α) : List ω × Outcome α σ ε :=
  match _verdict : p.judge s xs with
  | .more => ([], .waiting s xs)
  | .stop reason => ([], .stopped reason)
  | .take count next outs => emit outs (drain next (xs.drop count))
termination_by (xs.length, p.rank s)
decreasing_by
  have bound := p.bounded _verdict
  simp only [List.length_drop]
  rcases p.progress _verdict with positive | lower
  · exact Prod.Lex.left _ _ (by omega)
  · rcases Nat.eq_zero_or_pos count with rfl | positive
    · exact Prod.Lex.right _ lower
    · exact Prod.Lex.left _ _ (by omega)

theorem drain_more {s : σ} {xs : List α} (h : p.judge s xs = .more) :
    p.drain s xs = ([], .waiting s xs) := by
  rw [drain]
  split <;> simp_all

theorem drain_stop {s : σ} {xs : List α} {reason : ε} (h : p.judge s xs = .stop reason) :
    p.drain s xs = ([], .stopped reason) := by
  rw [drain]
  split <;> simp_all

theorem drain_take {s next : σ} {xs : List α} {count : Nat} {outs : List ω}
    (h : p.judge s xs = .take count next outs) :
    p.drain s xs = emit outs (p.drain next (xs.drop count)) := by
  rw [drain]
  split <;> simp_all

/-- Continue a run with the symbols that arrive later. -/
def resume (r : List ω × Outcome α σ ε) (ys : List α) : List ω × Outcome α σ ε :=
  match r.2 with
  | .waiting s held => emit r.1 (p.drain s (held ++ ys))
  | .stopped _ => r

theorem resume_emit (outs : List ω) (r : List ω × Outcome α σ ε) (ys : List α) :
    p.resume (emit outs r) ys = emit outs (p.resume r ys) := by
  obtain ⟨first, outcome⟩ := r
  cases outcome with
  | waiting s held => simp [resume, emit]
  | stopped reason => simp [resume, emit]

/-- A prefix drained first leaves exactly what the whole needs. -/
theorem drain_append (s : σ) (xs ys : List α) :
    p.drain s (xs ++ ys) = p.resume (p.drain s xs) ys := by
  induction s, xs using Parser.drain.induct (p := p) with
  | case1 s xs verdict => simp [drain_more p verdict, resume]
  | case2 s xs reason verdict =>
      have same := p.final ys (by rw [verdict]; simp)
      rw [drain_stop p verdict, drain_stop p (same.trans verdict)]
      rfl
  | case3 s xs count next outs verdict ih =>
      have same := p.final ys (by rw [verdict]; simp)
      rw [drain_take p verdict, drain_take p (same.trans verdict), resume_emit, ← ih,
        List.drop_append_of_le_length (p.bounded verdict)]

/-- Feed buffer after buffer, draining after each one. -/
def feed (s : σ) (held : List α) : List (List α) → List ω × Outcome α σ ε
  | [] => ([], .waiting s held)
  | buf :: bufs =>
      match p.drain s (held ++ buf) with
      | (outs, .waiting next rest) => emit outs (feed next rest bufs)
      | (outs, .stopped reason) => (outs, .stopped reason)

theorem drain_held {s next : σ} {xs held : List α} {outs : List ω}
    (h : p.drain s xs = (outs, .waiting next held)) : p.drain next held = ([], .waiting next held) := by
  have whole := p.drain_append s xs []
  rw [List.append_nil, h] at whole
  simp only [resume, List.append_nil] at whole
  generalize p.drain next held = r at whole
  obtain ⟨later, outcome⟩ := r
  simp only [emit, Prod.mk.injEq, List.self_eq_append_right] at whole
  rw [whole.1, ← whole.2]

/-- However a stream is cut, feeding the pieces is draining the whole. -/
theorem feed_eq_drain (s : σ) (held : List α) (bufs : List (List α))
    (quiet : p.drain s held = ([], .waiting s held)) :
    p.feed s held bufs = p.drain s (held ++ bufs.flatten) := by
  induction bufs generalizing s held with
  | nil => simp [feed, quiet]
  | cons buf bufs ih =>
      rw [List.flatten_cons, ← List.append_assoc, drain_append]
      rcases first : p.drain s (held ++ buf) with ⟨outs, outcome⟩
      cases outcome with
      | waiting next rest =>
          simp only [feed, first, resume]
          rw [ih next rest (p.drain_held first)]
      | stopped reason => simp only [feed, first, resume]

theorem drain_nil (s : σ) : p.drain s [] = ([], .waiting s []) :=
  p.drain_more (p.idle s)

/-! ### The positions of a run -/

/-- A run from `s` on `xs` comes to `now` with `held` still to be judged. -/
inductive Reached (s : σ) (xs : List α) : σ → List α → Prop
  | start : Reached s xs s xs
  | step {now next : σ} {held : List α} {count : Nat} {outs : List ω}
      (before : Reached s xs now held) (taken : p.judge now held = .take count next outs) :
      Reached s xs next (held.drop count)

variable {p}

theorem Reached.outcome {s now : σ} {xs held : List α} (reached : p.Reached s xs now held) :
    (p.drain s xs).2 = (p.drain now held).2 := by
  induction reached with
  | start => rfl
  | step _ taken ih => rw [ih, drain_take p taken, emit]

theorem Reached.head {s next now : σ} {xs held : List α} {count : Nat} {outs : List ω}
    (taken : p.judge s xs = .take count next outs)
    (reached : p.Reached next (xs.drop count) now held) : p.Reached s xs now held := by
  induction reached with
  | start => exact .step .start taken
  | step _ later ih => exact .step ih later

/-- A run is stopped at a position it comes to. -/
theorem reached_of_stopped {s : σ} {xs : List α} {reason : ε}
    (stopped : (p.drain s xs).2 = .stopped reason) :
    ∃ now held, p.Reached s xs now held ∧ p.judge now held = .stop reason := by
  induction s, xs using Parser.drain.induct (p := p) with
  | case1 s xs verdict =>
      rw [drain_more p verdict] at stopped
      cases stopped
  | case2 s xs other verdict =>
      rw [drain_stop p verdict] at stopped
      cases stopped
      exact ⟨s, xs, .start, verdict⟩
  | case3 s xs count next outs verdict ih =>
      rw [drain_take p verdict] at stopped
      obtain ⟨now, held, reached, judged⟩ := ih stopped
      exact ⟨now, held, reached.head verdict, judged⟩

/-- A run may only stop for the reasons its positions have. -/
theorem stopped_only_iff (allowed : ε → Prop) (s : σ) (xs : List α) :
    (∀ reason, (p.drain s xs).2 = .stopped reason → allowed reason) ↔
      ∀ now held, p.Reached s xs now held → ∀ reason, p.judge now held = .stop reason →
        allowed reason := by
  constructor
  · intro only now held reached reason judged
    apply only
    rw [reached.outcome, drain_stop p judged]
  · intro only reason stopped
    obtain ⟨now, held, reached, judged⟩ := reached_of_stopped stopped
    exact only now held reached reason judged

end Parser

end Catlink.Incremental
