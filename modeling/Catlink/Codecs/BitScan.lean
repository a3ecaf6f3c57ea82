import Catlink.Codecs.BitRectangles
import Mathlib.Tactic

/-! What the scan of one row reports, and when it is the row's black columns. -/

namespace Catlink.Codecs.Bitmap

/-! ### The bits of a byte -/

theorem bitAt_mod {x y : Nat} (b : Nat) (same : x % 8 = y % 8) : bitAt b x = bitAt b y := by
  rw [bitAt, bitAt, same]

theorem bitAt_clearBit (b x y : Nat) :
    bitAt (clearBit b x) y = (bitAt b y && decide (x % 8 ≠ y % 8)) := by
  have mask : (255 : Nat) = 2 ^ 8 - 1 := rfl
  have inside : 7 - y % 8 < 8 := by omega
  have cleared : (7 - x % 8 = 7 - y % 8) ↔ x % 8 = y % 8 := by omega
  rw [bitAt, clearBit, Nat.testBit_and, Nat.testBit_xor, mask, Nat.testBit_two_pow_sub_one,
    Nat.shiftLeft_eq, Nat.one_mul, Nat.testBit_two_pow, bitAt]
  simp only [inside, cleared, decide_true, Bool.true_xor, decide_not, ne_eq]

theorem clearBit_le (b x : Nat) : clearBit b x ≤ b := Nat.and_le_left

@[simp] theorem bitAt_zero (x : Nat) : bitAt 0 x = false := Nat.zero_testBit _

theorem exists_bitAt {b : Nat} (small : b < 256) (some : b ≠ 0) : ∃ c, bitAt b c = true := by
  by_contra none
  apply some
  apply Nat.eq_of_testBit_eq
  intro i
  rw [Nat.zero_testBit]
  by_cases inside : i < 8
  · have white : ¬ bitAt b (7 - i) = true := fun bit => none ⟨_, bit⟩
    have place : 7 - (7 - i) % 8 = i := by omega
    rw [bitAt, place] at white
    exact Bool.eq_false_iff.mpr white
  · refine Nat.testBit_lt_two_pow (lt_of_lt_of_le small ?_)
    exact Nat.pow_le_pow_right (by decide : 0 < 2) (by omega : 8 ≤ i)

theorem bitAt_full (x : Nat) : bitAt 0xff x = true := by
  have mask : (0xff : Nat) = 2 ^ 8 - 1 := rfl
  rw [bitAt, mask, Nat.testBit_two_pow_sub_one, decide_eq_true_iff]
  omega

theorem exists_white {b : Nat} (small : b < 256) (notFull : b ≠ 0xff) (k : Nat) :
    ∃ c, c / 8 = k ∧ bitAt b c = false := by
  by_contra none
  apply notFull
  apply Nat.eq_of_testBit_eq
  intro i
  have mask : (0xff : Nat) = 2 ^ 8 - 1 := rfl
  rw [mask, Nat.testBit_two_pow_sub_one]
  by_cases inside : i < 8
  · have black : ¬ bitAt b (8 * k + (7 - i)) = false := fun bit => none ⟨_, by omega, bit⟩
    have place : 7 - (8 * k + (7 - i)) % 8 = i := by omega
    rw [bitAt, place, Bool.not_eq_false] at black
    rw [black, decide_eq_true inside]
  · rw [decide_eq_false inside]
    refine Nat.testBit_lt_two_pow (lt_of_lt_of_le small ?_)
    exact Nat.pow_le_pow_right (by decide : 0 < 2) (by omega : 8 ≤ i)

/-! ### The inner loops -/

section Loops

variable {byte : Nat → Nat} {w value k : Nat}

/-- Whole bytes of one value are passed, up to a byte that differs or the end of the row. -/
structure Skipped (byte : Nat → Nat) (w value x after : Nat) (reads : List Nat) : Prop where
  above : x ≤ after
  aligned : 8 ∣ after
  all : ∀ c, x ≤ c → c < after → byte (c / 8) = value
  stopped : after < w → byte (after / 8) ≠ value
  inside : ∀ j ∈ reads, 8 * j < w

theorem Skipped.none {x : Nat} {reads : List Nat} (aligned : 8 ∣ x)
    (stopped : x < w → byte (x / 8) ≠ value) (inside : ∀ j ∈ reads, 8 * j < w) :
    Skipped byte w value x x reads :=
  ⟨le_rfl, aligned, fun c above below => absurd below (by omega), stopped, inside⟩

theorem skipBytes_skipped (byte : Nat → Nat) (value : Nat) {fuel x : Nat} (enough : w ≤ x + fuel) (aligned : 8 ∣ x) :
    Skipped byte w value x (skipBytes byte w value fuel x).1 (skipBytes byte w value fuel x).2 := by
  induction fuel generalizing x with
  | zero => exact Skipped.none aligned (fun below => absurd below (by omega)) nofun
  | succ fuel ih =>
      have read : 8 * (x / 8) = x := Nat.mul_div_cancel' aligned
      rw [skipBytes]
      split
      · rename_i below
        split
        · rename_i same
          have rest := ih (x := x + 8) (by omega) (by omega)
          generalize skipBytes byte w value fuel (x + 8) = found at rest ⊢
          have above := rest.above
          refine ⟨?_, rest.aligned, fun c above before => ?_,
            rest.stopped, fun j member => ?_⟩
          · exact (Nat.le_add_right x 8).trans above
          · by_cases first : c < x + 8
            · have this : c / 8 = x / 8 := by omega
              rw [this, same]
            · exact rest.all c (by omega) before
          · rcases List.mem_cons.mp member with rfl | later
            · omega
            · exact rest.inside j later
        · rename_i other
          refine Skipped.none aligned (fun _ => other) fun j member => ?_
          cases List.mem_singleton.mp member
          omega
      · rename_i past
        exact Skipped.none aligned (fun below => absurd below past) nofun

theorem findBlack_within (fuel : Nat) {b x c : Nat} (above : x ≤ c) (within : c < x + fuel)
    (bit : bitAt b c = true) :
    ∃ d, findBlack b fuel x = some d ∧ x ≤ d ∧ d ≤ c ∧ bitAt b d = true ∧
      ∀ e, x ≤ e → e < d → bitAt b e = false := by
  induction fuel generalizing x with
  | zero => omega
  | succ fuel ih =>
      rw [findBlack]
      split
      · rename_i here
        exact ⟨x, rfl, le_rfl, above, here, fun e above below => absurd below (by omega)⟩
      · rename_i white
        have after : x ≠ c := fun same => white (same ▸ bit)
        obtain ⟨d, found, low, high, black, before⟩ := ih (x := x + 1) (by omega) (by omega)
        refine ⟨d, found, by omega, high, black, fun e above below => ?_⟩
        by_cases first : e = x
        · rw [first]
          exact Bool.eq_false_iff.mpr white
        · exact before e (by omega) below

/-- A byte with a bit has one among any eight columns. -/
theorem findBlack_found {b : Nat} (some : ∃ c, bitAt b c = true) (x : Nat) :
    ∃ d, findBlack b 8 x = .some d ∧ x ≤ d ∧ bitAt b d = true ∧
      ∀ e, x ≤ e → e < d → bitAt b e = false := by
  obtain ⟨c, bit⟩ := some
  have same : (x + (c + 8 - x % 8) % 8) % 8 = c % 8 := by omega
  obtain ⟨d, found, above, -, black, before⟩ := findBlack_within 8
    (Nat.le_add_right x ((c + 8 - x % 8) % 8)) (by omega) ((bitAt_mod b same).trans bit)
  exact ⟨d, found, above, black, before⟩

/-- The bits from `x` up to `after` were all set, and are cleared in byte `k`. -/
structure Cleared (k x b after b' : Nat) : Prop where
  above : x ≤ after
  run : ∀ c, x ≤ c → c < after → bitAt b c = true
  rest : ∀ c, c / 8 = k → bitAt b' c = (bitAt b c && !(decide (x ≤ c) && decide (c < after)))
  small : b' ≤ b

theorem Cleared.none (k x b : Nat) : Cleared k x b x b := by
  refine ⟨le_rfl, fun c above below => absurd below (by omega), fun c _ => ?_, le_rfl⟩
  have outside : ¬ (x ≤ c ∧ c < x) := by omega
  rw [← Bool.decide_and, decide_eq_false outside, Bool.not_false, Bool.and_true]

theorem Cleared.one {x b after b' : Nat} (bit : bitAt b x = true) (column : x / 8 = k)
    (cleared : Cleared k (x + 1) (clearBit b x) after b') : Cleared k x b after b' := by
  refine ⟨by have := cleared.above; omega, fun c above below => ?_, fun c inside => ?_,
    cleared.small.trans (clearBit_le b x)⟩
  · by_cases first : c = x
    · rw [first, bit]
    · have later := cleared.run c (by omega) below
      rw [bitAt_clearBit, Bool.and_eq_true] at later
      exact later.1
  · rw [cleared.rest c inside, bitAt_clearBit]
    by_cases first : c = x
    · have before : x < after := by have := cleared.above; omega
      simp [first, before]
    · have apart : x % 8 ≠ c % 8 := by omega
      have later : x + 1 ≤ c ↔ x ≤ c := by omega
      simp only [apart, later, ne_eq, not_false_eq_true, decide_true, Bool.and_true]

/-- The search stops in the byte at a white column, or at the end of the byte. -/
theorem runInByte_cleared (fuel : Nat) {x b : Nat} (within : x ≤ 8 * k + 8) (above : 8 * k < x)
    (enough : 8 * k + 8 ≤ x + fuel) :
    ∃ after b' stop, runInByte fuel x b = (after, b', stop) ∧ Cleared k x b after b' ∧
      (after / 8 = k ∧ stop = after ∧ bitAt b after = false ∨ after = 8 * k + 8 ∧ stop = 0) := by
  induction fuel generalizing x b with
  | zero => exact ⟨x, b, 0, rfl, Cleared.none k x b, .inr ⟨by omega, rfl⟩⟩
  | succ fuel ih =>
      rw [runInByte]
      split
      · rename_i inside
        split
        · rename_i white
          exact ⟨x, b, x, rfl, Cleared.none k x b, .inl ⟨by omega, rfl, white⟩⟩
        · rename_i black
          rw [Bool.not_eq_false] at black
          have column : x / 8 = k := by omega
          obtain ⟨after, b', stop, ran, cleared, ends⟩ :=
            ih (x := x + 1) (b := clearBit b x) (by omega) (by omega) (by omega)
          refine ⟨after, b', stop, ran, cleared.one black column, ends.imp_left ?_⟩
          rintro ⟨place, same, white⟩
          refine ⟨place, same, ?_⟩
          have later : x % 8 ≠ after % 8 := by have := cleared.above; omega
          rw [bitAt_clearBit, decide_eq_true later, Bool.and_true] at white
          exact white
      · rename_i boundary
        exact ⟨x, b, 0, rfl, Cleared.none k x b, .inr ⟨by omega, rfl⟩⟩

/-- The first bits are cleared up to a white column. -/
theorem clearRun_cleared (fuel : Nat) {x b c : Nat} (above : x ≤ c) (low : 8 * k ≤ x) (inside : c / 8 = k)
    (enough : c < x + fuel) (white : bitAt b c = false) :
    ∃ after b', clearRun fuel x b = (after, b') ∧ Cleared k x b after b' ∧ after / 8 = k ∧
      bitAt b after = false := by
  induction fuel generalizing x b with
  | zero => omega
  | succ fuel ih =>
      have column : x / 8 = k := by omega
      rw [clearRun]
      split
      · rename_i black
        have later : x ≠ c := fun same => Bool.false_ne_true (white.symm.trans (same ▸ black))
        have apart : x % 8 ≠ c % 8 := by omega
        obtain ⟨after, b', ran, cleared, place, ends⟩ :=
          ih (x := x + 1) (b := clearBit b x) (by omega) (by omega) (by omega) (by
            rw [bitAt_clearBit, white, Bool.false_and])
        refine ⟨after, b', ran, cleared.one black column, place, ?_⟩
        have past : x % 8 ≠ after % 8 := by have := cleared.above; omega
        rw [bitAt_clearBit, decide_eq_true past, Bool.and_true] at ends
        exact ends
      · rename_i here
        exact ⟨x, b, rfl, Cleared.none k x b, column, Bool.eq_false_iff.mpr here⟩

end Loops

end Catlink.Codecs.Bitmap
