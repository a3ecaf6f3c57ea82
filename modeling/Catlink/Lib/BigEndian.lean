import Mathlib.Data.Nat.Bitwise
import Mathlib.Tactic

/-! Fixed-width big-endian integers over byte lists. -/

namespace Catlink.BigEndian

/-- Exactly `width` bytes, most significant first, truncating modulo `256 ^ width`. -/
def encodeBE : Nat → Nat → List UInt8
  | 0, _ => []
  | width + 1, n => UInt8.ofNat (n / 256 ^ width) :: encodeBE width n

def decodeBE : List UInt8 → Nat
  | [] => 0
  | b :: bs => b.toNat * 256 ^ bs.length + decodeBE bs

@[simp] theorem encodeBE_length (width n : Nat) : (encodeBE width n).length = width := by
  induction width with
  | zero => rfl
  | succ width ih => simp [encodeBE, ih]

theorem decodeBE_lt (bs : List UInt8) : decodeBE bs < 256 ^ bs.length := by
  induction bs with
  | nil => simp [decodeBE]
  | cons b bs ih =>
      have byte : b.toNat + 1 ≤ 256 := b.toNat_lt
      calc
        decodeBE (b :: bs) < b.toNat * 256 ^ bs.length + 256 ^ bs.length := by
          simpa [decodeBE] using ih
        _ = (b.toNat + 1) * 256 ^ bs.length := by ring
        _ ≤ 256 * 256 ^ bs.length := Nat.mul_le_mul_right _ byte
        _ = 256 ^ (b :: bs).length := by rw [List.length_cons, pow_succ, Nat.mul_comm]

theorem decodeBE_encodeBE_mod (width n : Nat) :
    decodeBE (encodeBE width n) = n % 256 ^ width := by
  induction width with
  | zero => simp [encodeBE, decodeBE, Nat.mod_one]
  | succ width ih =>
      have byte : (UInt8.ofNat (n / 256 ^ width)).toNat = n / 256 ^ width % 256 := by simp
      simp only [encodeBE, decodeBE, encodeBE_length, ih, byte]
      rw [pow_succ, Nat.mod_mul, Nat.mul_comm, Nat.add_comm]

/-- A number that fits survives the round trip. -/
theorem decodeBE_encodeBE (width n : Nat) (fits : n < 256 ^ width) :
    decodeBE (encodeBE width n) = n := by
  rw [decodeBE_encodeBE_mod, Nat.mod_eq_of_lt fits]

/-- Only the low bytes of a number are written. -/
theorem encodeBE_mod (width n : Nat) : encodeBE width (n % 256 ^ width) = encodeBE width n := by
  induction width generalizing n with
  | zero => rfl
  | succ width ih =>
      have divides : 256 ^ width ∣ 256 ^ (width + 1) := Dvd.intro _ (pow_succ _ _).symm
      have head : n % 256 ^ (width + 1) / 256 ^ width % 256 = n / 256 ^ width % 256 := by
        rw [pow_succ, Nat.mod_mul_right_div_self, Nat.mod_mod]
      simp only [encodeBE]
      congr 1
      · apply UInt8.toNat_inj.mp
        simpa using head
      · rw [← ih (n % _), Nat.mod_mod_of_dvd _ divides, ih]

/-- Bytes are what their number is written as. -/
theorem encodeBE_decodeBE (bs : List UInt8) : encodeBE bs.length (decodeBE bs) = bs := by
  induction bs with
  | nil => rfl
  | cons b bs ih =>
      have low := decodeBE_lt bs
      have head : (b.toNat * 256 ^ bs.length + decodeBE bs) / 256 ^ bs.length = b.toNat := by
        rw [Nat.add_comm, Nat.add_mul_div_right _ _ (by positivity), Nat.div_eq_of_lt low,
          Nat.zero_add]
      have tail : (b.toNat * 256 ^ bs.length + decodeBE bs) % 256 ^ bs.length = decodeBE bs := by
        rw [Nat.mul_comm, Nat.mul_add_mod, Nat.mod_eq_of_lt low]
      simp only [List.length_cons, decodeBE, encodeBE, head]
      rw [← encodeBE_mod, tail, ih]
      simp

theorem encodeBE_getElem (width n i : Nat) (inside : i < (encodeBE width n).length) :
    (encodeBE width n)[i] = UInt8.ofNat (n / 256 ^ (width - 1 - i)) := by
  induction width generalizing i with
  | zero => simp at inside
  | succ width ih =>
      cases i with
      | zero => simp [encodeBE]
      | succ i =>
          have deeper : i < (encodeBE width n).length := by simpa [encodeBE] using inside
          have position : width + 1 - 1 - (i + 1) = width - 1 - i := by omega
          simp only [encodeBE, List.getElem_cons_succ, ih i deeper, position]

/-- A number whose bytes are those of another one in reverse is written in reverse. -/
theorem encodeBE_reverse_of_testBit (width n m : Nat)
    (bits : ∀ k < width, ∀ j < 8,
      n.testBit (8 * k + j) = m.testBit (8 * (width - 1 - k) + j)) :
    (encodeBE width n).reverse = encodeBE width m := by
  apply List.ext_getElem
  · simp
  · intro i here there
    have inside : i < width := by simpa using there
    have byte (x k : Nat) (j : Nat) : (x / 256 ^ k).testBit j = x.testBit (8 * k + j) := by
      have power : (256 : Nat) ^ k = 2 ^ (8 * k) := by
        rw [pow_mul]
        norm_num
      rw [power, Nat.testBit_div_two_pow, Nat.add_comm]
    rw [List.getElem_reverse, encodeBE_getElem, encodeBE_getElem]
    apply UInt8.toNat_inj.mp
    simp only [UInt8.toNat_ofNat', encodeBE_length]
    apply Nat.eq_of_testBit_eq
    intro j
    have position : width - 1 - (width - 1 - i) = i := by omega
    rw [Nat.testBit_mod_two_pow, Nat.testBit_mod_two_pow, byte, byte,
      position]
    by_cases small : j < 8
    · rw [bits i inside j small]
    · simp [small]

/-! ### Machine integers in memory -/

/-- The bytes of a machine integer, in the machine's byte order. -/
def store (bigEndian : Bool) (width n : Nat) : List UInt8 :=
  if bigEndian then encodeBE width n else (encodeBE width n).reverse

/-- The machine integer that some bytes of memory are. -/
def load (bigEndian : Bool) (bs : List UInt8) : Nat :=
  decodeBE (if bigEndian then bs else bs.reverse)

/-- A number that fits is loaded as it was stored. -/
theorem load_store (bigEndian : Bool) {width n : Nat} (fits : n < 256 ^ width) :
    load bigEndian (store bigEndian width n) = n := by
  cases bigEndian with
  | false => simp [store, load, decodeBE_encodeBE width n fits]
  | true => simp [store, load, decodeBE_encodeBE width n fits]

theorem load_lt (bigEndian : Bool) (bs : List UInt8) : load bigEndian bs < 256 ^ bs.length := by
  cases bigEndian with
  | false =>
      have bound := decodeBE_lt bs.reverse
      rw [List.length_reverse] at bound
      exact bound
  | true => exact decodeBE_lt bs

theorem store_load (bigEndian : Bool) (bs : List UInt8) :
    store bigEndian bs.length (load bigEndian bs) = bs := by
  cases bigEndian with
  | false =>
      have whole := encodeBE_decodeBE bs.reverse
      rw [List.length_reverse] at whole
      simp [store, load, whole]
  | true => simp [store, load, encodeBE_decodeBE]

@[simp] theorem store_length (bigEndian : Bool) (width n : Nat) :
    (store bigEndian width n).length = width := by
  cases bigEndian <;> simp [store]

/-- A little-endian machine that reads the bytes it stored in reverse and stores what it read has
written them big-endian. -/
theorem store_swapped (width n : Nat) :
    store false width (load false (store false width n).reverse) = encodeBE width n := by
  have whole := store_load false (store false width n).reverse
  rw [List.length_reverse, store_length] at whole
  rw [whole]
  simp [store]

end Catlink.BigEndian
