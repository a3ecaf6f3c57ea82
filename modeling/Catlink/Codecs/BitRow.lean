import Catlink.Codecs.BitScan

/-! What the scan of one row reports: its black columns, or the starts of an earlier byte's runs again. -/

namespace Catlink.Codecs.Bitmap

/-! ### Rows -/

/-- The most significant bit of a byte is its first column. -/
def black (byte : Nat → Nat) (c : Nat) : Bool := bitAt (byte (c / 8)) c

/-- A black column, with a white one or none before it. -/
def startsRun (byte : Nat → Nat) (c : Nat) : Bool :=
  black byte c && !(decide (0 < c) && black byte (c - 1))

/-- A run starts in byte `j`, and none goes on past its last column. -/
def Stale (byte : Nat → Nat) (j : Nat) : Prop :=
  (∃ c, c / 8 = j ∧ startsRun byte c = true) ∧ black byte (8 * j + 7) = false

/-- The starts of byte `k`, at the columns of the bytes after it. -/
def repeated (byte : Nat → Nat) (k c : Nat) : Bool :=
  if c < 8 * k + 8 then black byte c else startsRun byte (8 * k + c % 8)

/-- The rectangles of line `y` show a picture's columns below `x`. -/
structure Reported (picture : Nat → Bool) (y w x : Nat) (rectangles : List Rectangle) : Prop where
  line : ∀ r ∈ rectangles, r.y = y ∧ r.h = 1 ∧ 0 < r.w ∧ r.x + r.w ≤ w
  ends : ∀ r ∈ rectangles, r.x + r.w ≤ x
  apart : rectangles.Pairwise fun p q => p.x + p.w ≤ q.x
  shows : ∀ c, c < x → c < w → ((∃ r ∈ rectangles, r.x ≤ c ∧ c < r.x + r.w) ↔ picture c = true)

section Reports

variable {picture picture' : Nat → Bool} {y w x : Nat} {rectangles : List Rectangle}

theorem Reported.none : Reported picture y w 0 [] :=
  ⟨nofun, nofun, .nil, fun c below => absurd below (Nat.not_lt_zero c)⟩

theorem Reported.white {after : Nat} (reported : Reported picture y w x rectangles) (above : x ≤ after)
    (white : ∀ c, x ≤ c → c < after → c < w → picture c = false) :
    Reported picture y w after rectangles := by
  refine ⟨reported.line, fun r member => (reported.ends r member).trans above, reported.apart,
    fun c below inside => ?_⟩
  by_cases old : c < x
  · exact reported.shows c old inside
  · constructor
    · rintro ⟨r, member, -, stop⟩
      have ends := reported.ends r member
      omega
    · intro set
      rw [white c (by omega) below inside] at set
      exact absurd set Bool.false_ne_true

theorem Reported.run {start stop : Nat} (reported : Reported picture y w start rectangles)
    (filled : start < stop) (inside : stop ≤ w)
    (set : ∀ c, start ≤ c → c < stop → picture c = true) :
    Reported picture y w stop (rectangles ++ [⟨start, y, stop - start, 1⟩]) := by
  have width : start + (stop - start) = stop := by omega
  refine ⟨fun r member => ?_, fun r member => ?_, ?_, fun c below within => ?_⟩
  · rcases List.mem_append.mp member with old | new
    · exact reported.line r old
    · cases List.mem_singleton.mp new
      exact ⟨rfl, rfl, Nat.sub_pos_of_lt filled, by dsimp only; omega⟩
  · rcases List.mem_append.mp member with old | new
    · exact (reported.ends r old).trans filled.le
    · cases List.mem_singleton.mp new
      exact width.le
  · refine List.pairwise_append.mpr ⟨reported.apart, List.pairwise_singleton _ _, fun p old q new => ?_⟩
    cases List.mem_singleton.mp new
    exact reported.ends p old
  · by_cases old : c < start
    · rw [← reported.shows c old within]
      constructor
      · rintro ⟨r, member, low, high⟩
        rcases List.mem_append.mp member with first | last
        · exact ⟨r, first, low, high⟩
        · cases List.mem_singleton.mp last
          exact absurd low (by dsimp only; omega)
      · rintro ⟨r, member, low, high⟩
        exact ⟨r, List.mem_append_left _ member, low, high⟩
    · have last : (⟨start, y, stop - start, 1⟩ : Rectangle) ∈
          rectangles ++ [⟨start, y, stop - start, 1⟩] :=
        List.mem_append_right _ (List.mem_singleton_self _)
      exact ⟨fun _ => set c (by omega) below, fun _ => ⟨_, last, by dsimp only; omega, by dsimp only; omega⟩⟩

theorem Reported.congr (reported : Reported picture y w x rectangles)
    (same : ∀ c, c < x → c < w → picture c = picture' c) : Reported picture' y w x rectangles :=
  ⟨reported.line, reported.ends, reported.apart, fun c below inside => by
    rw [reported.shows c below inside, same c below inside]⟩

/-- Columns past the end of the row do not count. -/
theorem Reported.whole (reported : Reported picture y w x rectangles) (past : w ≤ x) :
    Reported picture y w w rectangles :=
  ⟨reported.line, fun r member => (reported.line r member).2.2.2, reported.apart,
    fun c inside _ => reported.shows c (inside.trans_le past) inside⟩

end Reports

section Columns

variable {byte : Nat → Nat} {c j k : Nat}

theorem startsRun_iff : startsRun byte c = true ↔
    black byte c = true ∧ (0 < c → black byte (c - 1) = false) := by
  rw [startsRun, Bool.and_eq_true, Bool.not_eq_true', Bool.and_eq_false_imp, decide_eq_true_iff]

theorem black_of_startsRun (start : startsRun byte c = true) : black byte c = true :=
  (startsRun_iff.mp start).1

theorem startsRun_of_white (white : black byte c = false) : startsRun byte c = false := by
  rw [startsRun, white, Bool.false_and]

theorem startsRun_of_after (later : 0 < c) (run : black byte (c - 1) = true) :
    startsRun byte c = false := by
  rw [startsRun, run, decide_eq_true later, Bool.true_and, Bool.not_true, Bool.and_false]

/-- Two columns next to each other are not both starts. -/
theorem startsRun_succ (start : startsRun byte c = true) : startsRun byte (c + 1) = false :=
  startsRun_of_after c.succ_pos (black_of_startsRun start)

theorem not_stale_of_black (last : black byte (8 * j + 7) = true) : ¬ Stale byte j :=
  fun stale => Bool.false_ne_true (stale.2.symm.trans last)

/-- No byte that a run leaves is stale. -/
theorem not_stale_of_run {start stop : Nat} (free : ∀ j < start / 8, ¬ Stale byte j)
    (run : ∀ c, start ≤ c → c < stop → black byte c = true) (left : 8 * j + 8 ≤ stop) :
    ¬ Stale byte j := by
  by_cases before : j < start / 8
  · exact free j before
  · exact not_stale_of_black (run _ (by omega) (by omega))

theorem black_of_byte (place : c / 8 = j) : black byte c = bitAt (byte j) c := by
  rw [black, place]

/-- The last column of a stale byte is no start. -/
theorem Stale.place (stale : Stale byte k) (start : startsRun byte (8 * k + c % 8) = true) :
    c % 8 < 7 := by
  by_contra last
  have same : 8 * k + c % 8 = 8 * k + 7 := by omega
  rw [same] at start
  exact Bool.false_ne_true (stale.2.symm.trans (black_of_startsRun start))

end Columns

/-! ### What is known between two turns -/

inductive Scanned (byte : Nat → Nat) (w y : Nat) (s : Scan) : Prop
  | fresh (empty : s.b = 0) (aligned : 8 ∣ s.x)
      (edge : black byte s.x = true → startsRun byte s.x = true)
      (free : ∀ j, 8 * j + 8 ≤ s.x → ¬ Stale byte j)
      (reported : Reported (black byte) y w s.x s.rectangles)
  | held (k : Nat) (column : s.x / 8 = k) (some : ∃ c, bitAt s.b c = true)
      (bits : ∀ c, c / 8 = k → bitAt s.b c = if s.x ≤ c then black byte c else startsRun byte c)
      (edge : black byte s.x = true → startsRun byte s.x = true)
      (free : ∀ j < k, ¬ Stale byte j)
      (reported : Reported (black byte) y w s.x s.rectangles)
  | stale (k : Nat) (stale : Stale byte k) (first : ∀ j < k, ¬ Stale byte j) (above : 8 * k + 8 ≤ s.x)
      (bits : ∀ c, bitAt s.b c = startsRun byte (8 * k + c % 8))
      (reported : Reported (repeated byte k) y w s.x s.rectangles)

/-- What is known when a run's first column is found. -/
inductive AtRun (byte : Nat → Nat) (w y start : Nat) (s : Scan) : Prop
  | held (k : Nat) (column : start / 8 = k) (first : startsRun byte start = true)
      (bits : ∀ c, c / 8 = k → bitAt s.b c = if start ≤ c then black byte c else startsRun byte c)
      (free : ∀ j < k, ¬ Stale byte j)
      (reported : Reported (black byte) y w start s.rectangles)
  | stale (k : Nat) (stale : Stale byte k) (first : ∀ j < k, ¬ Stale byte j) (above : 8 * k + 8 ≤ start)
      (begins : startsRun byte (8 * k + start % 8) = true)
      (bits : ∀ c, bitAt s.b c = startsRun byte (8 * k + c % 8))
      (reported : Reported (repeated byte k) y w start s.rectangles)

/-- The rectangles of a whole row. -/
inductive Row (byte : Nat → Nat) (w y : Nat) (rectangles : List Rectangle) : Prop
  | exact (free : ∀ j, 8 * j + 8 < w → ¬ Stale byte j)
      (reported : Reported (black byte) y w w rectangles)
  | stale (k : Nat) (stale : Stale byte k) (first : ∀ j < k, ¬ Stale byte j) (inside : 8 * k + 8 < w)
      (reported : Reported (repeated byte k) y w w rectangles)

section Turns

variable {byte : Nat → Nat} {w y k start : Nat} {s : Scan}

theorem Row.of_repeated {x : Nat} {rectangles : List Rectangle} (stale : Stale byte k)
    (first : ∀ j < k, ¬ Stale byte j) (past : w ≤ x)
    (reported : Reported (repeated byte k) y w x rectangles) : Row byte w y rectangles := by
  by_cases inside : 8 * k + 8 < w
  · exact .stale k stale first inside (reported.whole past)
  · refine .exact (fun j before => first j (by omega)) ((reported.whole past).congr fun c below _ => ?_)
    exact if_pos (by omega)

theorem Scanned.ended (scanned : Scanned byte w y s) (past : w ≤ s.x) : Row byte w y s.rectangles := by
  cases scanned with
  | fresh empty aligned edge free reported =>
      exact .exact (fun j before => free j (by omega)) (reported.whole past)
  | held k column some bits edge free reported =>
      exact .exact (fun j before => free j (by omega)) (reported.whole past)
  | stale k stale first above bits reported => exact Row.of_repeated stale first past reported

theorem AtRun.ended (atRun : AtRun byte w y start s) (past : w ≤ start) : Row byte w y s.rectangles := by
  cases atRun with
  | held k column first bits free reported =>
      exact .exact (fun j before => free j (by omega)) (reported.whole past)
  | stale k stale first above begins bits reported =>
      exact Row.of_repeated stale first past reported

/-- A bit that is found is the start of a run, in its byte or in a byte after it. -/
theorem Scanned.findBlack (scanned : Scanned byte w y s) (filled : s.b ≠ 0) :
    ∃ start, findBlack s.b 8 s.x = some start ∧ s.x ≤ start ∧ AtRun byte w y start s := by
  cases scanned with
  | fresh empty aligned edge free reported => exact absurd empty filled
  | held k column some bits edge free reported =>
      obtain ⟨start, found, above, bit, before⟩ := findBlack_found some s.x
      refine ⟨start, found, above, ?_⟩
      have white : ∀ c, s.x ≤ c → c < start → c / 8 = k → black byte c = false := by
        intro c low high place
        have known := bits c place
        rw [before c low high, if_pos low] at known
        exact known.symm
      by_cases inside : start / 8 = k
      · have set : black byte start = true := by
          have known := bits start inside
          rw [bit, if_pos above] at known
          exact known.symm
        refine .held k inside ?_ (fun c place => ?_) free (reported.white above fun c low high _ =>
          white c low high (by omega))
        · by_cases here : start = s.x
          · rw [here] at set ⊢
            exact edge set
          · exact startsRun_iff.mpr ⟨set, fun _ => white _ (by omega) (by omega) (by omega)⟩
        · rw [bits c place]
          by_cases low : s.x ≤ c
          · by_cases high : start ≤ c
            · rw [if_pos low, if_pos high]
            · have none := white c low (by omega) place
              rw [if_pos low, if_neg high, none, startsRun_of_white none]
          · rw [if_neg low, if_neg (by omega)]
      · -- nothing is left of the byte but the starts of its runs
        have starts : ∀ c, bitAt s.b c = startsRun byte (8 * k + c % 8) := by
          intro c
          have same : (8 * k + c % 8) % 8 = c % 8 := by omega
          rw [← bitAt_mod s.b same, bits _ (by omega)]
          by_cases low : s.x ≤ 8 * k + c % 8
          · have none := white _ low (by omega) (by omega)
            rw [if_pos low, none, startsRun_of_white none]
          · rw [if_neg low]
        have begins : startsRun byte (8 * k + start % 8) = true := (starts start).symm.trans bit
        have stale : Stale byte k :=
          ⟨⟨_, by omega, begins⟩, white _ (by omega) (by omega) (by omega)⟩
        refine .stale k stale free (by omega) begins starts ?_
        have leaves : Reported (black byte) y w (8 * k + 8) s.rectangles :=
          reported.white (by omega) fun c low high _ => white c low (by omega) (by omega)
        have same : Reported (repeated byte k) y w (8 * k + 8) s.rectangles :=
          leaves.congr fun c below _ => (if_pos below).symm
        refine same.white (by omega) fun c low high _ => ?_
        rw [repeated, if_neg (by omega), ← starts, before c (by omega) high]
  | stale k stale first above bits reported =>
      have some : ∃ c, bitAt s.b c = true := by
        obtain ⟨c, place, begins⟩ := stale.1
        refine ⟨c, ?_⟩
        rw [bits]
        have same : 8 * k + c % 8 = c := by omega
        rw [same, begins]
      obtain ⟨start, found, later, bit, before⟩ := findBlack_found some s.x
      refine ⟨start, found, later, .stale k stale first (by omega) ((bits start).symm.trans bit) bits ?_⟩
      refine reported.white later fun c low high _ => ?_
      rw [repeated, if_neg (by omega), ← bits, before c low high]

/-! ### One run -/

/-- What a turn leaves, with `x` increased, or the whole row. -/
def Turned (byte : Nat → Nat) (w y x : Nat) (s : Scan) : Prop :=
  (∀ j ∈ s.reads, 8 * j < w) ∧
    (x < s.x ∧ Scanned byte w y s ∨ w ≤ s.x ∧ Row byte w y s.rectangles)

theorem takeRun_past {x b stop : Nat} (ran : runInByte 8 (start + 1) s.b = (x, b, stop)) (past : w ≤ x)
    (inside : start < w) : takeRun byte w y start s =
      ⟨w, b, s.reads, s.rectangles ++ [⟨start, y, w - start, 1⟩]⟩ := by
  have filled : w ≠ 0 := by omega
  simp only [takeRun, ran, ge_iff_le, past, if_true, filled, if_false, inside, List.append_nil]

theorem takeRun_inside {x b : Nat} (ran : runInByte 8 (start + 1) s.b = (x, b, x)) (inside : x < w)
    (filled : start < x) : takeRun byte w y start s =
      ⟨x, b, s.reads, s.rectangles ++ [⟨start, y, x - start, 1⟩]⟩ := by
  have stop : x ≠ 0 := by omega
  simp only [takeRun, ran, ge_iff_le, inside.not_ge, if_false, stop, filled, if_true, List.append_nil]

theorem takeRun_beyond {x b x' b' stop : Nat} {reads : List Nat}
    (ran : runInByte 8 (start + 1) s.b = (x, b, 0)) (inside : x < w)
    (found : runInBytes byte w x b = (x', b', stop, reads)) (filled : start < stop) :
    takeRun byte w y start s =
      ⟨x', b', s.reads ++ reads, s.rectangles ++ [⟨start, y, stop - start, 1⟩]⟩ := by
  simp only [takeRun, ran, ge_iff_le, inside.not_ge, if_false, if_true, found, filled]

/-- A run that reaches the end of the row ends it. -/
theorem Row.of_run {rectangles : List Rectangle} (free : ∀ j < start / 8, ¬ Stale byte j)
    (reported : Reported (black byte) y w start rectangles) (inside : start < w)
    (run : ∀ c, start ≤ c → c < w → black byte c = true) :
    Row byte w y (rectangles ++ [⟨start, y, w - start, 1⟩]) :=
  .exact (fun _ before => not_stale_of_run free run before.le) (reported.run inside le_rfl run)

theorem round8up_eq {n : Nat} (fits : n + 7 < 2 ^ 32) : round8up n = (n + 7) / 8 * 8 := by
  rw [round8up, Nat.mod_eq_of_lt fits]

/-- A run that stops in byte `j`, which it does not start in, leaves the rest of the byte. -/
theorem stopped_scanned {after stop b j : Nat} {reads : List Nat} {rectangles : List Rectangle}
    (small : ∀ j, byte j < 256) (fits : w + 7 < 2 ^ 32) (place : after = 8 * j) (column : stop / 8 = j)
    (before : start < after) (inside : stop < w)
    (run : ∀ c, start ≤ c → c < stop → black byte c = true)
    (cleared : Cleared j after (byte j) stop b) (white : bitAt (byte j) stop = false)
    (free : ∀ i < start / 8, ¬ Stale byte i) (reported : Reported (black byte) y w stop rectangles) :
    start < (if b = 0 then round8up stop else stop) ∧
      Scanned byte w y ⟨if b = 0 then round8up stop else stop, b, reads, rectangles⟩ := by
  have above := cleared.above
  have unset : black byte stop = false := (black_of_byte column).trans white
  have rest : ∀ c, c / 8 = j → stop ≤ c → bitAt b c = black byte c := by
    intro c inByte later
    have outside : ¬ (after ≤ c ∧ c < stop) := by omega
    rw [cleared.rest c inByte, ← Bool.decide_and, decide_eq_false outside, Bool.not_false,
      Bool.and_true, black_of_byte inByte]
  have none : ∀ c, c / 8 = j → c < stop → startsRun byte c = false := by
    intro c inByte early
    exact startsRun_of_after (by omega) (run _ (by omega) (by omega))
  by_cases empty : b = 0
  · have whites : ∀ c, c / 8 = j → stop ≤ c → black byte c = false := by
      intro c inByte later
      rw [← rest c inByte later, empty, bitAt_zero]
    rw [if_pos empty, round8up_eq (by omega)]
    refine ⟨by omega, .fresh empty (Nat.dvd_mul_left 8 _) (fun set => ?_) (fun i left => ?_) ?_⟩
    · dsimp only at set ⊢
      refine startsRun_iff.mpr ⟨set, fun _ => ?_⟩
      by_cases boundary : stop % 8 = 0
      · have same : (stop + 7) / 8 * 8 = stop := by omega
        rw [same] at set
        exact absurd (unset.symm.trans set) Bool.false_ne_true
      · exact whites _ (by omega) (by omega)
    · dsimp only at left
      by_cases earlier : 8 * i + 8 ≤ stop
      · exact not_stale_of_run free run earlier
      · have same : i = j := by omega
        rintro ⟨⟨c, inByte, start⟩, -⟩
        rw [same] at inByte
        by_cases early : c < stop
        · exact Bool.false_ne_true ((none c inByte early).symm.trans start)
        · exact Bool.false_ne_true
            ((whites c inByte (by omega)).symm.trans (black_of_startsRun start))
    · exact reported.white (by dsimp only; omega) fun c low high _ =>
        whites c (by dsimp only at high; omega) low
  · rw [if_neg empty]
    refine ⟨by omega, .held j column (exists_bitAt (cleared.small.trans_lt (small j)) empty)
      (fun c inByte => ?_) (fun set => absurd (unset.symm.trans set) Bool.false_ne_true)
      (fun i left => not_stale_of_run free run (by omega)) reported⟩
    by_cases later : stop ≤ c
    · rw [rest c inByte later]
      exact (if_pos later).symm
    · have taken : bitAt b c = false := by
        have within : after ≤ c ∧ c < stop := by omega
        rw [cleared.rest c inByte, ← Bool.decide_and, decide_eq_true within, Bool.not_true,
          Bool.and_false]
      rw [taken, ← none c inByte (by omega)]
      exact (if_neg later).symm

/-- The end of a run in a byte that it does not start in. -/
theorem runInBytes_turned {x b : Nat} (small : ∀ j, byte j < 256) (fits : w + 7 < 2 ^ 32)
    (free : ∀ j < start / 8, ¬ Stale byte j) (reported : Reported (black byte) y w start s.rectangles)
    (reads : ∀ j ∈ s.reads, 8 * j < w) (run : ∀ c, start ≤ c → c < x → black byte c = true)
    (left : x = 8 * (start / 8) + 8) (inside : x < w)
    (ran : runInByte 8 (start + 1) s.b = (x, b, 0)) : Turned byte w y start (takeRun byte w y start s) := by
  have skipped := skipBytes_skipped byte 0xff (Nat.le_add_left w x)
    (by omega : 8 ∣ x)
  rcases found : skipBytes byte w 0xff w x with ⟨after, more⟩
  rw [found] at skipped
  dsimp only at skipped
  have above := skipped.above
  have onward : ∀ c, start ≤ c → c < after → black byte c = true := by
    intro c low high
    by_cases first : c < x
    · exact run c low first
    · rw [black, skipped.all c (by omega) high, bitAt_full]
  have within : ∀ j ∈ s.reads ++ more, 8 * j < w := fun j member =>
    (List.mem_append.mp member).elim (reads j) (skipped.inside j)
  by_cases past : w ≤ after
  · have ends : runInBytes byte w x b = (w, b, w, more) := by
      simp only [runInBytes, found, ge_iff_le, past, if_true]
    rw [takeRun_beyond ran inside ends (by omega)]
    exact ⟨within, .inr ⟨le_rfl, Row.of_run free reported (by omega) fun c low high =>
      onward c low (high.trans_le past)⟩⟩
  · obtain ⟨j, byteStart⟩ := skipped.aligned
    have place : after / 8 = j := by omega
    obtain ⟨white, column, unset⟩ := exists_white (small (after / 8)) (skipped.stopped (by omega)) j
    obtain ⟨stop, b', cleared, is, column, bit⟩ := clearRun_cleared 8 (k := j) (x := after)
      (c := white) (by omega) (by omega) column (by omega) unset
    rw [place] at is bit
    have low := is.above
    have run : ∀ c, start ≤ c → c < stop → black byte c = true := by
      intro c above below
      by_cases before : c < after
      · exact onward c above before
      · rw [black_of_byte (by omega : c / 8 = j)]
        exact is.run c (by omega) below
    have reads : ∀ r ∈ s.reads ++ (more ++ [after / 8]), 8 * r < w := by
      intro r member
      rw [← List.append_assoc] at member
      rcases List.mem_append.mp member with old | new
      · exact within r old
      · cases List.mem_singleton.mp new
        omega
    by_cases reaches : w ≤ stop
    · have ends : runInBytes byte w x b = (if b' = 0 then round8up w else w, b', w, more ++ [after / 8]) := by
        have same : (if stop > w then w else stop) = w := by
          split
          · rfl
          · omega
        simp only [runInBytes, found, ge_iff_le, past, if_false, cleared, same]
      rw [takeRun_beyond ran inside ends (by omega)]
      refine ⟨reads, .inr ⟨?_, Row.of_run free reported (by omega) fun c low high =>
        run c low (high.trans_le reaches)⟩⟩
      dsimp only
      split
      · rw [round8up_eq fits]
        omega
      · exact le_rfl
    · have ends : runInBytes byte w x b =
          (if b' = 0 then round8up stop else stop, b', stop, more ++ [after / 8]) := by
        have same : (if stop > w then w else stop) = stop := if_neg (by omega)
        simp only [runInBytes, found, ge_iff_le, past, if_false, cleared, same]
      rw [takeRun_beyond ran inside ends (by omega)]
      exact ⟨reads, .inl (stopped_scanned small fits byteStart column (by omega) (by omega) run is bit free
        (reported.run (by omega) (by omega) run))⟩

/-- The rest of a byte that a run stops in still holds the run's start. -/
theorem AtRun.takeRun (small : ∀ j, byte j < 256) (fits : w + 7 < 2 ^ 32) (inside : start < w)
    (reads : ∀ j ∈ s.reads, 8 * j < w) (atRun : AtRun byte w y start s) :
    Turned byte w y start (takeRun byte w y start s) := by
  cases atRun with
  | held k column first bits free reported =>
      obtain ⟨after, b, stop, ran, cleared, ends⟩ := runInByte_cleared 8 (k := k)
        (x := start + 1) (b := s.b) (by omega) (by omega) (by omega)
      have above := cleared.above
      have atMost : after ≤ 8 * k + 8 := by
        rcases ends with ⟨place, -, -⟩ | ⟨place, -⟩ <;> omega
      have run : ∀ c, start ≤ c → c < after → black byte c = true := by
        intro c low high
        by_cases begins : c = start
        · rw [begins]
          exact black_of_startsRun first
        · have set := cleared.run c (by omega) high
          rw [bits c (by omega), if_pos low] at set
          exact set
      rw [← column] at free
      by_cases past : w ≤ after
      · rw [takeRun_past ran past inside]
        exact ⟨reads, .inr ⟨le_rfl, Row.of_run free reported inside fun c low high =>
          run c low (high.trans_le past)⟩⟩
      · rcases ends with ⟨place, rfl, white⟩ | ⟨place, rfl⟩
        · rw [takeRun_inside ran (by omega) (by omega)]
          have unset : black byte stop = false := by
            rw [bits stop place, if_pos (by omega)] at white
            exact white
          have known : ∀ c, c / 8 = k →
              bitAt b c = if stop ≤ c then black byte c else startsRun byte c := by
            intro c inByte
            rw [cleared.rest c inByte, ← Bool.decide_and, bits c inByte]
            by_cases low : start + 1 ≤ c
            · by_cases high : c < stop
              · have within : start + 1 ≤ c ∧ c < stop := ⟨low, high⟩
                have continued := startsRun_of_after (by omega) (run (c - 1) (by omega) (by omega))
                rw [decide_eq_true within, if_neg (by omega : ¬ stop ≤ c), continued, Bool.not_true,
                  Bool.and_false]
              · have outside : ¬ (start + 1 ≤ c ∧ c < stop) := by omega
                rw [decide_eq_false outside, if_pos (by omega : stop ≤ c), if_pos (by omega : start ≤ c),
                  Bool.not_false, Bool.and_true]
            · have outside : ¬ (start + 1 ≤ c ∧ c < stop) := by omega
              rw [decide_eq_false outside, if_neg (by omega : ¬ stop ≤ c), Bool.not_false,
                Bool.and_true]
              by_cases begins : c = start
              · rw [begins, if_pos le_rfl, first, black_of_startsRun first]
              · rw [if_neg (by omega : ¬ start ≤ c)]
          have shown := reported.run above (by omega : stop ≤ w) run
          refine ⟨reads, .inl ⟨above, .held k place ⟨start, ?_⟩ known
            (fun set => absurd (unset.symm.trans set) Bool.false_ne_true)
            (fun j before => free j (by omega)) shown⟩⟩
          rw [known start column, if_neg (by omega), first]
        · exact runInBytes_turned small fits free reported reads run (by omega) (by omega) ran
  | stale k stale first above begins bits reported =>
      have place := stale.place begins
      have unset : bitAt s.b (start + 1) = false := by
        have same : 8 * k + (start + 1) % 8 = 8 * k + start % 8 + 1 := by omega
        rw [bits, same, startsRun_succ begins]
      have later : 0 < (start + 1) % 8 := by omega
      have ran : runInByte 8 (start + 1) s.b = (start + 1, s.b, start + 1) := by
        rw [runInByte, if_pos later, if_pos unset]
      have shown : ∀ c, start ≤ c → c < start + 1 → repeated byte k c = true := by
        intro c low high
        have same : c = start := by omega
        rw [same, repeated, if_neg (by omega), begins]
      by_cases past : w ≤ start + 1
      · rw [takeRun_past ran past inside]
        refine ⟨reads, .inr ⟨le_rfl, Row.of_repeated stale first le_rfl ?_⟩⟩
        exact reported.run inside le_rfl fun c low high => shown c low (by omega)
      · rw [takeRun_inside ran (by omega) (by omega)]
        have leaves := reported.run (Nat.lt_succ_self start) (by omega : start + 1 ≤ w) shown
        exact ⟨reads, .inl ⟨Nat.lt_succ_self start, .stale k stale first (by dsimp only; omega) bits leaves⟩⟩

/-! ### A turn, and the row -/

/-- The byte that is next when nothing is left of the last one. -/
theorem Scanned.nextByte (small : ∀ j, byte j < 256) (scanned : Scanned byte w y s)
    (reads : ∀ j ∈ s.reads, 8 * j < w) :
    ∃ s' more, nextByte byte w s = (s', more) ∧ (∀ j ∈ s'.reads, 8 * j < w) ∧
      (more = true ∧ s.x ≤ s'.x ∧ s'.b ≠ 0 ∧ Scanned byte w y s' ∨
        more = false ∧ Row byte w y s'.rectangles) := by
  by_cases empty : s.b = 0
  · cases scanned with
    | held k column some bits edge free reported =>
        obtain ⟨c, bit⟩ := some
        rw [empty, bitAt_zero] at bit
        exact absurd bit Bool.false_ne_true
    | stale k stale first above bits reported =>
        obtain ⟨c, place, begins⟩ := stale.1
        have same : 8 * k + c % 8 = c := by omega
        have bit := bits c
        rw [empty, bitAt_zero, same, begins] at bit
        exact absurd bit Bool.false_ne_true
    | fresh _ aligned edge free reported =>
        have skipped := skipBytes_skipped byte 0 (Nat.le_add_left w s.x) aligned
        rcases found : skipBytes byte w 0 w s.x with ⟨after, more⟩
        rw [found] at skipped
        dsimp only at skipped
        have above := skipped.above
        have white : ∀ c, s.x ≤ c → c < after → black byte c = false := by
          intro c low high
          rw [black, skipped.all c low high, bitAt_zero]
        have within : ∀ j ∈ s.reads ++ more, 8 * j < w := fun j member =>
          (List.mem_append.mp member).elim (reads j) (skipped.inside j)
        have stillFree : ∀ j, 8 * j + 8 ≤ after → ¬ Stale byte j := by
          intro j left
          by_cases before : 8 * j + 8 ≤ s.x
          · exact free j before
          · rintro ⟨⟨c, place, begins⟩, -⟩
            have aligned' := aligned
            exact Bool.false_ne_true
              ((white c (by omega) (by omega)).symm.trans (black_of_startsRun begins))
        have leaves := reported.white above fun c low high _ => white c low high
        by_cases past : w ≤ after
        · refine ⟨⟨after, s.b, s.reads ++ more, s.rectangles⟩, false, ?_, within,
            .inr ⟨rfl, .exact (fun j before => stillFree j (by omega)) (leaves.whole past)⟩⟩
          simp only [Bitmap.nextByte, empty, found, ge_iff_le, past, if_true]
        · refine ⟨⟨after, byte (after / 8), s.reads ++ more ++ [after / 8], s.rectangles⟩, true, ?_,
            fun j member => ?_, .inl ⟨rfl, above, skipped.stopped (by omega), ?_⟩⟩
          · simp only [Bitmap.nextByte, empty, found, ge_iff_le, past, if_true, if_false]
          · rcases List.mem_append.mp member with old | new
            · exact within j old
            · cases List.mem_singleton.mp new
              omega
          · have filled := skipped.stopped (by omega)
            obtain ⟨k, start⟩ := skipped.aligned
            refine .held k (by dsimp only; omega) (exists_bitAt (small _) filled) (fun c place => ?_)
              (fun set => ?_) (fun j before => stillFree j (by omega)) leaves
            · dsimp only
              have same : after / 8 = k := by omega
              rw [if_pos (by omega : after ≤ c), black_of_byte place, same]
            · dsimp only at set ⊢
              refine startsRun_iff.mpr ⟨set, fun later => ?_⟩
              by_cases here : after = s.x
              · rw [here] at set later ⊢
                exact (startsRun_iff.mp (edge set)).2 later
              · exact white _ (by omega) (by omega)
  · refine ⟨s, true, ?_, reads, .inl ⟨rfl, le_rfl, empty, scanned⟩⟩
    rw [Bitmap.nextByte, if_neg empty]

theorem Scanned.turn (small : ∀ j, byte j < 256) (fits : w + 7 < 2 ^ 32) (scanned : Scanned byte w y s)
    (reads : ∀ j ∈ s.reads, 8 * j < w) :
    ∃ s' more, turn byte w y s = some (s', more) ∧ (∀ j ∈ s'.reads, 8 * j < w) ∧
      (more = true ∧ s.x < s'.x ∧ Scanned byte w y s' ∨
        (more = true → w ≤ s'.x) ∧ Row byte w y s'.rectangles) := by
  obtain ⟨s', more, loaded, reads', ⟨rfl, above, filled, scanned'⟩ | ⟨rfl, row⟩⟩ :=
    scanned.nextByte small reads
  · obtain ⟨start, found, later, atRun⟩ := scanned'.findBlack filled
    by_cases past : w ≤ start
    · refine ⟨{ s' with x := start }, false, ?_, reads', .inr ⟨nofun, atRun.ended past⟩⟩
      simp only [Bitmap.turn, loaded, found, ge_iff_le, past, if_true]
    · obtain ⟨reads'', turned⟩ := atRun.takeRun small fits (by omega) reads'
      refine ⟨takeRun byte w y start s', true, ?_, reads'', ?_⟩
      · simp only [Bitmap.turn, loaded, found, ge_iff_le, past, if_false]
      · rcases turned with ⟨onward, scanned''⟩ | ⟨ended, row⟩
        · exact .inl ⟨rfl, by omega, scanned''⟩
        · exact .inr ⟨fun _ => ended, row⟩
  · refine ⟨s', false, ?_, reads', .inr ⟨nofun, row⟩⟩
    simp only [Bitmap.turn, loaded]

theorem Scanned.scanRow {fuel : Nat} (small : ∀ j, byte j < 256) (fits : w + 7 < 2 ^ 32)
    (scanned : Scanned byte w y s) (reads : ∀ j ∈ s.reads, 8 * j < w) (enough : w ≤ s.x + fuel) :
    ∃ s', scanRow byte w y fuel s = some s' ∧ (∀ j ∈ s'.reads, 8 * j < w) ∧
      Row byte w y s'.rectangles := by
  induction fuel generalizing s with
  | zero =>
      refine ⟨s, ?_, reads, scanned.ended enough⟩
      rw [Bitmap.scanRow, if_neg (by omega)]
  | succ fuel ih =>
      by_cases inside : s.x < w
      · obtain ⟨s', more, turned, reads', cont⟩ := scanned.turn small fits reads
        rw [Bitmap.scanRow, if_pos inside, turned]
        rcases cont with ⟨rfl, onward, scanned'⟩ | ⟨ended, row⟩
        · exact ih scanned' reads' (by omega)
        · cases more with
          | false => exact ⟨s', rfl, reads', row⟩
          | true =>
              have past := ended rfl
              refine ⟨s', ?_, reads', row⟩
              cases fuel with
              | zero => exact if_neg (by omega)
              | succ fuel => exact if_neg (by omega)
      · refine ⟨s, ?_, reads, scanned.ended (by omega)⟩
        rw [Bitmap.scanRow, if_neg inside]

/-- Every row ends, and what is read lies in it. -/
theorem scanRow_row (byte : Nat → Nat) (small : ∀ j, byte j < 256) (fits : w + 7 < 2 ^ 32) :
    ∃ s, scanRow byte w y w {} = some s ∧ (∀ j ∈ s.reads, 8 * j < w) ∧ Row byte w y s.rectangles := by
  have start : Scanned byte w y {} := by
    refine .fresh rfl (Nat.dvd_zero 8) (fun set => ?_) (fun j left => absurd left (by simp)) .none
    exact startsRun_iff.mpr ⟨set, fun later => absurd later (Nat.lt_irrefl 0)⟩
  exact start.scanRow small fits nofun (Nat.le_add_left w 0)

end Turns

end Catlink.Codecs.Bitmap
