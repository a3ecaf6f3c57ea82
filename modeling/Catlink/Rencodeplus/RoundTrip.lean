import Catlink.Rencodeplus.Encoding
import Mathlib.Data.Nat.Digits.Lemmas

/-! The decoder on what the encoder writes, with anything after it. -/

namespace Catlink.Rencodeplus

open BigEndian

/-! ### Bytes in memory -/

/-- The bytes at a position, which the decoder's counters can reach. -/
structure Holds (data : CharBuffer) (pos : Nat) (bs : Bytes) : Prop where
  within : pos + bs.length ≤ data.length
  addressable : pos + bs.length < 2 ^ 32
  read : ∀ i (inside : i < bs.length), data.peek (pos + i) = .ok bs[i]

namespace Holds

variable {data : CharBuffer} {pos : Nat} {b : UInt8} {bs cs : Bytes}

theorem left (held : Holds data pos (bs ++ cs)) : Holds data pos bs := by
  obtain ⟨within, addressable, read⟩ := held
  rw [List.length_append] at within addressable
  refine ⟨by omega, by omega, fun i inside => ?_⟩
  have byte := read i (by rw [List.length_append]; omega)
  rwa [List.getElem_append_left inside] at byte

theorem right (held : Holds data pos (bs ++ cs)) : Holds data (pos + bs.length) cs := by
  obtain ⟨within, addressable, read⟩ := held
  rw [List.length_append] at within addressable
  refine ⟨by omega, by omega, fun i inside => ?_⟩
  have byte := read (bs.length + i) (by rw [List.length_append]; omega)
  rw [List.getElem_append_right (by omega), ← Nat.add_assoc] at byte
  simpa only [Nat.add_sub_cancel_left] using byte

theorem head (held : Holds data pos (b :: bs)) : data.peek pos = .ok b := by
  exact held.read 0 (by simp)

theorem tail (held : Holds data pos (b :: bs)) : Holds data (pos + 1) bs :=
  @right data pos [b] bs held

theorem before_end (held : Holds data pos (b :: bs)) : pos < data.length := by
  have within := held.within
  rw [List.length_cons] at within
  omega

theorem slice_eq (held : Holds data pos bs) : slice data pos bs.length = .ok bs := by
  induction bs generalizing pos with
  | nil => rfl
  | cons b bs ih =>
      simp only [List.length_cons, slice, held.head, ih held.tail, bind, Except.bind]

end Holds

theorem holds_bytesBuffer (bs suffix : Bytes) (short : bs.length < 2 ^ 32) :
    Holds (bytesBuffer (bs ++ suffix)) 0 bs := by
  refine ⟨?_, by omega, fun i inside => ?_⟩
  · simp [bytesBuffer]
  · have before : i < (bs ++ suffix).length := by
      rw [List.length_append]
      omega
    simp only [bytesBuffer, Nat.zero_add, dif_pos before, List.getElem_append_left inside]

theorem uint_of_lt {n : Int} {m : Nat} (same : n = m) (small : m < 2 ^ 32) : uint n = m := by
  unfold uint
  omega

theorem checkPos_ok {data : CharBuffer} {pos : Nat} (before : pos < data.length) :
    checkPos data pos = .ok () := if_neg (by omega)

/-! ### Machine integers -/

theorem swapBytes_store_load (bs : Bytes) :
    swapBytes false (store false bs.length (load false bs)) = decodeBE bs := by
  rw [store_load, swapBytes, load, if_neg (by simp), List.reverse_reverse]

theorem decodeFixedWidth_ok (bigEndian : Bool) {data : CharBuffer} {pos width n : Nat} {code : UInt8}
    (held : Holds data pos (code :: encodeBE width n)) (wide : 0 < width) (fits : n < 256 ^ width) :
    decodeFixedWidth bigEndian data width pos = .ok (n, pos + (width + 1)) := by
  have within := held.within
  have addressable := held.addressable
  rw [List.length_cons, encodeBE_length] at within addressable
  have last : uint (pos + width) = pos + width := uint_of_lt (by push_cast; rfl) (by omega)
  have start : uint (pos + 1) = pos + 1 := uint_of_lt (by push_cast; rfl) (by omega)
  have stop : uint (pos + (width + 1)) = pos + (width + 1) :=
    uint_of_lt (by push_cast; rfl) (by omega)
  have bytes := held.tail.slice_eq
  rw [encodeBE_length] at bytes
  have value : (if bigEndian then load bigEndian (encodeBE width n)
      else swapBytes bigEndian (store bigEndian width (load bigEndian (encodeBE width n)))) = n := by
    cases bigEndian with
    | true => exact decodeBE_encodeBE width n fits
    | false =>
        have swapped := swapBytes_store_load (encodeBE width n)
        rw [encodeBE_length] at swapped
        rw [if_neg (by simp), swapped, decodeBE_encodeBE width n fits]
  simp only [decodeFixedWidth, last, start, stop, checkPos_ok (show pos + width < data.length by omega),
    bytes, bind, Except.bind, value]

theorem ofNat_toInt_ofInt (w : Nat) (x : Int) : (BitVec.ofNat w (BitVec.ofInt w x).toNat).toInt =
    x.bmod (2 ^ w) := by
  rw [BitVec.ofNat_toNat, BitVec.setWidth_eq, BitVec.toInt_ofInt]

/-! ### Decimal numbers -/

/-- ASCII digits. -/
def IsDigit (b : UInt8) : Prop := 48 ≤ b.toNat ∧ b.toNat ≤ 57

theorem intDigits_of_digits (ds : List Nat) (small : ∀ d ∈ ds, d < 10) (value : Nat) (after : Bool)
    (some_digit : after = true ∨ ds ≠ []) :
    intDigits value after (ds.map fun d => UInt8.ofNat (48 + d)) =
      some (ds.foldl (fun value d => 10 * value + d) value) := by
  induction ds generalizing value after with
  | nil =>
      have after : after = true := by simpa using some_digit
      simp [intDigits, after]
  | cons d ds ih =>
      obtain ⟨digit, others⟩ := List.forall_mem_cons.mp small
      have byte : (UInt8.ofNat (48 + d)).toNat = 48 + d := by
        rw [UInt8.toNat_ofNat']
        omega
      have inside : 48 ≤ UInt8.ofNat (48 + d) ∧ UInt8.ofNat (48 + d) ≤ 57 := by
        simp only [UInt8.le_iff_toNat_le, byte]
        constructor
        · simp
        · have : (57 : UInt8).toNat = 57 := rfl
          omega
      simp only [List.map_cons, intDigits, if_pos inside, byte, List.foldl_cons]
      rw [Nat.add_sub_cancel_left, ih others _ true (.inl rfl)]

theorem decimalNat_eq (n : Nat) : ∃ ds : List Nat, decimalNat n = ds.map (fun d => UInt8.ofNat (48 + d)) ∧
    (∀ d ∈ ds, d < 10) ∧ ds ≠ [] ∧ ds.foldl (fun value d => 10 * value + d) 0 = n := by
  unfold decimalNat
  by_cases zero : n = 0
  · exact ⟨[0], by simp [zero], by simp, by simp, by simp [zero]⟩
  · refine ⟨(Nat.digits 10 n).reverse, by rw [if_neg zero], ?_, ?_, ?_⟩
    · intro d member
      exact Nat.digits_lt_base (by norm_num) (List.mem_reverse.mp member)
    · simpa using Nat.digits_ne_nil_iff_ne_zero.mpr zero
    · have value := Nat.ofDigits_digits 10 n
      rw [Nat.ofDigits_eq_foldr] at value
      rw [List.foldl_reverse]
      calc
        _ = (Nat.digits 10 n).foldr (fun d value => d + 10 * value) 0 := by
          congr 1
          funext d value
          omega
        _ = n := by simpa using value

theorem isDigit_ofNat (d : Nat) (small : d < 10) : IsDigit (UInt8.ofNat (48 + d)) := by
  unfold IsDigit
  rw [UInt8.toNat_ofNat']
  omega

theorem decimalNat_digit (n : Nat) (b : UInt8) (member : b ∈ decimalNat n) : IsDigit b := by
  obtain ⟨ds, shape, small, -, -⟩ := decimalNat_eq n
  rw [shape] at member
  obtain ⟨d, digit, rfl⟩ := List.mem_map.mp member
  exact isDigit_ofNat d (small d digit)

theorem decimalNat_ne_nil (n : Nat) : decimalNat n ≠ [] := by
  obtain ⟨ds, shape, -, filled, -⟩ := decimalNat_eq n
  rw [shape]
  simpa using filled

theorem intDigits_decimalNat (n : Nat) : intDigits 0 false (decimalNat n) = some n := by
  obtain ⟨ds, shape, small, filled, value⟩ := decimalNat_eq n
  rw [shape, intDigits_of_digits ds small 0 false (.inr filled), value]

/-- No byte of a decimal number is a space, a separator or the terminator. -/
theorem decimal_byte (x : Int) (b : UInt8) (member : b ∈ decimal x) :
    b.toNat = 45 ∨ IsDigit b := by
  unfold decimal at member
  by_cases negative : x < 0
  · rw [if_pos negative] at member
    rcases List.mem_cons.mp member with rfl | digit
    · exact .inl rfl
    · exact .inr (decimalNat_digit _ _ digit)
  · rw [if_neg negative] at member
    exact .inr (decimalNat_digit _ _ member)

theorem strip_eq (bs : Bytes) (solid : ∀ b ∈ bs, isSpace b = false) : strip bs = bs := by
  have kept (cs : Bytes) (solid : ∀ b ∈ cs, isSpace b = false) : cs.dropWhile isSpace = cs := by
    cases cs with
    | nil => rfl
    | cons b cs => simp [solid b (by simp)]
  unfold strip
  rw [kept bs solid, kept _ (fun b member => solid b (List.mem_reverse.mp member)),
    List.reverse_reverse]

theorem signedDigits_decimal (x : Int) : signedDigits (decimal x) = some x := by
  unfold decimal
  by_cases negative : x < 0
  · rw [if_pos negative, signedDigits, intDigits_decimalNat, Option.map_some]
    congr 1
    omega
  · rw [if_neg negative]
    have digits := intDigits_decimalNat x.natAbs
    have first := decimalNat_digit x.natAbs
    unfold IsDigit at first
    have value : ((x.natAbs : Nat) : Int) = x := by omega
    -- a digit is not a sign
    unfold signedDigits
    split
    next bs shape =>
      rw [shape] at first
      simpa using first 43 (by simp)
    next bs shape =>
      rw [shape] at first
      simpa using first 45 (by simp)
    next =>
      rw [digits, Option.map_some, value]

theorem pyInt_decimal (x : Int) : pyInt (decimal x) = .ok x := by
  have solid : ∀ b ∈ decimal x, isSpace b = false := by
    intro b member
    have byte := decimal_byte x b member
    unfold IsDigit at byte
    have space : b ≠ 32 := by
      rintro rfl
      simp at byte
    have high : ¬b ≤ 13 := by
      rw [UInt8.le_iff_toNat_le]
      have : (13 : UInt8).toNat = 13 := rfl
      omega
    simp [isSpace, space, high]
  rw [pyInt, strip_eq _ solid, signedDigits_decimal]

/-! ### One type code -/

theorem kindOf_ranges : ∀ typecode < 256,
    (typecode < 44 → kindOf typecode = .fixedPosInt) ∧
    (70 ≤ typecode ∧ typecode < 102 → kindOf typecode = .fixedNegInt) ∧
    (128 ≤ typecode ∧ typecode < 192 → kindOf typecode = .fixedStr) ∧
    (48 ≤ typecode ∧ typecode ≤ 57 → kindOf typecode = .str) ∧
    (192 ≤ typecode → kindOf typecode = .fixedList) ∧
    (102 ≤ typecode ∧ typecode < 127 → kindOf typecode = .fixedDict) := by
  decide +kernel

/-- What `decode` does first: the type code is there, and after it comes the next position. -/
theorem Holds.code {data : CharBuffer} {pos : Nat} {c : UInt8} {bs : Bytes}
    (held : Holds data pos (c :: bs)) :
    checkPos data pos = .ok () ∧ data.peek pos = .ok c ∧ uint (pos + 1) = pos + 1 := by
  have addressable := held.addressable
  rw [List.length_cons] at addressable
  exact ⟨checkPos_ok held.before_end, held.head, uint_of_lt (by push_cast; rfl) (by omega)⟩

theorem scanNumber_ok {data : CharBuffer} {pos : Nat} {text : Bytes} (rounds x : Nat)
    (held : Holds data pos (text ++ [127])) (open_text : ∀ b ∈ text, b.toNat ≠ 127)
    (start : x ≤ text.length) (enough : text.length - x < rounds) :
    scanNumber data pos rounds x = .ok text.length := by
  induction rounds generalizing x with
  | zero => omega
  | succ rounds ih =>
      have within := held.within
      have addressable := held.addressable
      rw [List.length_append, List.length_singleton] at within addressable
      have here : uint (pos + x) = pos + x := uint_of_lt (by push_cast; rfl) (by omega)
      have byte := held.read x (by rw [List.length_append, List.length_singleton]; omega)
      simp only [scanNumber, here, checkPos_ok (show pos + x < data.length by omega), byte, bind,
        Except.bind]
      by_cases last : x = text.length
      · subst last
        simp
      · have inside : x < text.length := by omega
        rw [List.getElem_append_left inside, if_pos (open_text _ (List.getElem_mem inside))]
        exact ih (x + 1) (by omega) (by omega)

theorem scanSize_ok {data : CharBuffer} {pos : Nat} {digits body : Bytes} {separator : UInt8}
    (rounds x : Nat) (held : Holds data pos (digits ++ separator :: body))
    (separates : separator = 58 ∨ separator = 47)
    (open_digits : ∀ b ∈ digits, b ≠ 58 ∧ b ≠ 47)
    (start : x ≤ digits.length) (enough : digits.length - x < rounds) :
    scanSize data pos rounds x = .ok digits.length := by
  induction rounds generalizing x with
  | zero => omega
  | succ rounds ih =>
      have within := held.within
      have addressable := held.addressable
      rw [List.length_append, List.length_cons] at within addressable
      have here : uint (pos + x) = pos + x := uint_of_lt (by push_cast; rfl) (by omega)
      have byte := held.read x (by rw [List.length_append, List.length_cons]; omega)
      simp only [scanSize, here, checkPos_ok (show pos + x < data.length by omega), byte, bind,
        Except.bind]
      by_cases last : x = digits.length
      · subst last
        have closed : ¬(separator ≠ 58 ∧ separator ≠ 47) := by tauto
        rw [List.getElem_append_right (by omega)]
        simp only [Nat.sub_self, List.getElem_cons_zero, if_neg closed]
      · have inside : x < digits.length := by omega
        rw [List.getElem_append_left inside, if_pos (open_digits _ (List.getElem_mem inside))]
        exact ih (x + 1) (by omega) (by omega)

theorem decodeUtf8_utf8 (text : String) : decodeUtf8 (utf8 text) = .ok text := by
  have whole : String.fromUTF8? ⟨(utf8 text).toArray⟩ = some text := by
    have bytes : (⟨(utf8 text).toArray⟩ : ByteArray) = text.toByteArray := by
      simp [utf8]
    rw [bytes, String.fromUTF8?, dif_pos text.isValidUTF8]
    rfl
  rw [decodeUtf8, whole]

/-! ### Values without members -/

section Leaves

variable (bigEndian : Bool) {data : CharBuffer} {fuel pos : Nat}

theorem decode_inline (x : Int) (range : 0 ≤ x ∧ x < 44)
    (held : Holds data pos [UInt8.ofNat x.toNat]) :
    decode bigEndian data (fuel + 1) pos = .ok (.int x, pos + 1) := by
  obtain ⟨inside, code, next⟩ := held.code
  have byte : (UInt8.ofNat x.toNat).toNat = x.toNat := by
    rw [UInt8.toNat_ofNat']
    omega
  have kind := (kindOf_ranges x.toNat (by omega)).1 (by omega)
  have value : ((x.toNat : Nat) : Int) - ((INT_POS_FIXED_START : Nat) : Int) = x := by
    simp only [INT_POS_FIXED_START]
    omega
  simp only [decode, inside, code, bind, Except.bind, byte, kind, decodeFixedPosInt, value, next]

theorem decode_negative (x : Int) (range : -32 ≤ x ∧ x < 0)
    (held : Holds data pos [UInt8.ofNat (69 - x).toNat]) :
    decode bigEndian data (fuel + 1) pos = .ok (.int x, pos + 1) := by
  obtain ⟨inside, code, next⟩ := held.code
  have byte : (UInt8.ofNat (69 - x).toNat).toNat = (69 - x).toNat := by
    rw [UInt8.toNat_ofNat']
    omega
  have kind := (kindOf_ranges (69 - x).toNat (by omega)).2.1 (by omega)
  have value : (((69 - x).toNat : Int) - ((INT_NEG_FIXED_START : Nat) : Int) + 1) * -1 = x := by
    simp only [INT_NEG_FIXED_START]
    omega
  simp only [decode, inside, code, bind, Except.bind, byte, kind, decodeFixedNegInt, value, next]

theorem decode_char (x : Int) (range : -128 ≤ x ∧ x < 128)
    (held : Holds data pos [62, UInt8.ofInt x]) :
    decode bigEndian data (fuel + 1) pos = .ok (.int x, pos + 2) := by
  obtain ⟨inside, code, next⟩ := held.code
  obtain ⟨second, byte, -⟩ := held.tail.code
  have addressable : pos + 2 < 2 ^ 32 := held.addressable
  have stop : uint (pos + 2) = pos + 2 := uint_of_lt (by push_cast; rfl) addressable
  have value : (BitVec.ofNat 8 (UInt8.ofInt x).toNat).toInt = x := by
    have bits : BitVec.ofNat 8 (UInt8.ofInt x).toNat = BitVec.ofInt 8 x := by
      apply BitVec.eq_of_toNat_eq
      simp [UInt8.ofInt]
      omega
    rw [bits, BitVec.toInt_ofInt]
    exact Int.bmod_eq_of_le (by omega) (by omega)
  have kind : kindOf (62 : UInt8).toNat = .char := by decide
  simp only [decode, inside, code, bind, Except.bind, kind, decodeChar, next, second, byte, value,
    stop]

/-- The integers that are written with a fixed width. -/
theorem decode_machine (x : Int) (width bits : Nat) (code : UInt8) (wide : 0 < width)
    (same : 2 ^ bits = 256 ^ width) (low : -(2 ^ bits : Nat) ≤ 2 * x) (high : 2 * x < (2 ^ bits : Nat))
    (held : Holds data pos (code :: encodeBE width (BitVec.ofInt bits x).toNat)) :
    (decodeFixedWidth bigEndian data width pos >>= fun (n, pos) =>
      .ok (PyVal.int (BitVec.ofNat bits n).toInt, pos)) =
      (.ok (.int x, pos + (width + 1)) : Except Exn (PyVal × Nat)) := by
  have fits : (BitVec.ofInt bits x).toNat < 256 ^ width := by
    rw [← same]
    exact BitVec.isLt _
  have value : (BitVec.ofNat bits (BitVec.ofInt bits x).toNat).toInt = x := by
    rw [ofNat_toInt_ofInt]
    exact Int.bmod_eq_of_le_mul_two (by omega) (by omega)
  rw [decodeFixedWidth_ok bigEndian held wide fits]
  simp only [bind, Except.bind, value]

theorem decode_short (x : Int) (range : -32768 ≤ x ∧ x < 32768)
    (held : Holds data pos (63 :: encodeBE 2 (BitVec.ofInt 16 x).toNat)) :
    decode bigEndian data (fuel + 1) pos = .ok (.int x, pos + 3) := by
  obtain ⟨inside, code, -⟩ := held.code
  have kind : kindOf (63 : UInt8).toNat = .short := by decide
  have value := decode_machine bigEndian x 2 16 63 (by omega) (by norm_num) (by norm_num; omega)
    (by norm_num; omega) held
  simp only [decode, inside, code, bind, Except.bind, kind, decodeShort] at value ⊢
  exact value

theorem decode_int (x : Int) (range : -2 ^ 31 ≤ x ∧ x < 2 ^ 31)
    (held : Holds data pos (64 :: encodeBE 4 (BitVec.ofInt 32 x).toNat)) :
    decode bigEndian data (fuel + 1) pos = .ok (.int x, pos + 5) := by
  obtain ⟨inside, code, -⟩ := held.code
  have kind : kindOf (64 : UInt8).toNat = .int := by decide
  have value := decode_machine bigEndian x 4 32 64 (by omega) (by norm_num) (by norm_num; omega)
    (by norm_num; omega) held
  simp only [decode, inside, code, bind, Except.bind, kind, decodeInt] at value ⊢
  exact value

theorem decode_longLong (x : Int) (range : -2 ^ 63 ≤ x ∧ x < 2 ^ 63)
    (held : Holds data pos (65 :: encodeBE 8 (BitVec.ofInt 64 x).toNat)) :
    decode bigEndian data (fuel + 1) pos = .ok (.int x, pos + 9) := by
  obtain ⟨inside, code, -⟩ := held.code
  have kind : kindOf (65 : UInt8).toNat = .longLong := by decide
  have value := decode_machine bigEndian x 8 64 65 (by omega) (by norm_num) (by norm_num; omega)
    (by norm_num; omega) held
  simp only [decode, inside, code, bind, Except.bind, kind, decodeLongLong] at value ⊢
  exact value

theorem decode_float64 (bits : BitVec 64)
    (held : Holds data pos (44 :: encodeBE 8 bits.toNat)) :
    decode bigEndian data (fuel + 1) pos = .ok (.float bits, pos + 9) := by
  obtain ⟨inside, code, -⟩ := held.code
  have kind : kindOf (44 : UInt8).toNat = .float64 := by decide
  have fits : bits.toNat < 256 ^ 8 := bits.isLt
  have value := decodeFixedWidth_ok bigEndian held (by omega) fits
  simp only [decode, inside, code, bind, Except.bind, kind, decodeFloat64, value,
    BitVec.ofNat_toNat, BitVec.setWidth_eq]

/-- A number that no machine integer is has at least 19 digits. -/
theorem decimal_length_of_big (x : Int) (big : ¬(-2 ^ 63 ≤ x ∧ x < 2 ^ 63)) :
    18 < (decimal x).length := by
  have large : 10 ^ 18 ≤ x.natAbs := by omega
  have digits : 18 < (decimalNat x.natAbs).length := by
    rw [decimalNat, if_neg (by omega), List.length_map, List.length_reverse,
      Nat.lt_digits_length_iff (by norm_num)]
    exact large
  unfold decimal
  by_cases negative : x < 0
  · rw [if_pos negative, List.length_cons]
    omega
  · rw [if_neg negative]
    exact digits

theorem decode_bigNumber (x : Int) (short : (decimal x).length < MAX_INT_LENGTH)
    (big : ¬(-2 ^ 63 ≤ x ∧ x < 2 ^ 63))
    (held : Holds data pos (61 :: (decimal x ++ [127]))) :
    decode bigEndian data (fuel + 1) pos = .ok (.int x, pos + ((decimal x).length + 2)) := by
  obtain ⟨inside, code, next⟩ := held.code
  have kind : kindOf (61 : UInt8).toNat = .bigNumber := by decide
  have long := decimal_length_of_big x big
  have open_text : ∀ b ∈ decimal x, b.toNat ≠ 127 := by
    intro b member
    have byte := decimal_byte x b member
    unfold IsDigit at byte
    omega
  have addressable := held.addressable
  simp only [List.length_cons, List.length_append, List.length_nil] at addressable
  have scan := scanNumber_ok (MAX_INT_LENGTH - 18) 18 held.tail open_text (by omega) (by omega)
  have stop : uint ((pos + 1 : Nat) + ((decimal x).length + 1)) = pos + ((decimal x).length + 2) :=
    uint_of_lt (by push_cast; ring) (by omega)
  simp only [decode, inside, code, bind, Except.bind, kind, decodeBigNumber, next, scan,
    held.tail.left.slice_eq, pyInt_decimal, stop]

theorem decode_integer (x : Int) (short : (decimal x).length < MAX_INT_LENGTH)
    (held : Holds data pos (integerEncoding x)) :
    decode bigEndian data (fuel + 1) pos = .ok (.int x, pos + (integerEncoding x).length) := by
  unfold integerEncoding at held ⊢
  split_ifs at held ⊢ with inline negative char small int longLong
  · exact decode_inline bigEndian x inline held
  · exact decode_negative bigEndian x negative held
  · exact decode_char bigEndian x char held
  · rw [List.length_cons, encodeBE_length]
    exact decode_short bigEndian x small held
  · rw [List.length_cons, encodeBE_length]
    exact decode_int bigEndian x int held
  · rw [List.length_cons, encodeBE_length]
    exact decode_longLong bigEndian x longLong held
  · rw [List.length_cons, List.length_append, List.length_singleton]
    exact decode_bigNumber bigEndian x short longLong held

theorem sizeBefore_ok (n : Nat) (small : n < 2 ^ 31) (held : Holds data pos (decimal n)) :
    sizeBefore data pos (decimal n).length = .ok (n : Int) := by
  have fits : asInt n = .ok (n : Int) := by rw [asInt, if_pos (by omega)]
  rw [sizeBefore, held.slice_eq]
  simp only [bind, Except.bind]
  rw [pyInt_decimal]
  exact fits

/-- The length of some text or bytes, up to what the separator says they are. -/
theorem decodeStr_ok (separator : UInt8) (body : Bytes) (separates : separator = 58 ∨ separator = 47)
    (sized : body.length < 2 ^ 31) (held : Holds data pos (sizedEncoding separator body)) :
    decodeStr data pos =
      if separator = 47 then .ok (.bytes body, pos + (sizedEncoding separator body).length)
      else (decodeUtf8 body >>= fun text =>
        .ok (.str text, pos + (sizedEncoding separator body).length)) := by
  have size : (sizedEncoding separator body).length =
      (decimal body.length).length + (body.length + 1) := by
    rw [sizedEncoding, List.length_append, List.length_cons]
  have within := held.within
  have addressable := held.addressable
  rw [size] at within addressable ⊢
  have filled : 0 < (decimal body.length).length := by
    rw [decimal, if_neg (by omega)]
    exact List.length_pos_iff.mpr (decimalNat_ne_nil _)
  have open_digits : ∀ b ∈ decimal body.length, b ≠ 58 ∧ b ≠ 47 := by
    intro b member
    have byte := decimal_byte body.length b member
    unfold IsDigit at byte
    constructor
    · rintro rfl
      simp at byte
    · rintro rfl
      simp at byte
  have scan := scanSize_ok (data.length + 1) 1 held separates open_digits filled (by omega)
  have size := sizeBefore_ok body.length sized held.left
  have middle := held.right.head
  have content := held.right.tail.slice_eq
  have before : uint (pos + (decimal body.length).length) = pos + (decimal body.length).length :=
    uint_of_lt (by push_cast; rfl) (by omega)
  have after : uint (pos + ((decimal body.length).length + 1)) =
      pos + (decimal body.length).length + 1 := uint_of_lt (by push_cast; ring) (by omega)
  have last : uint ((pos + (decimal body.length).length + 1 : Nat) + (body.length : Int) - 1) =
      pos + (decimal body.length).length + body.length :=
    uint_of_lt (by push_cast; ring) (by omega)
  have stop : uint ((pos + (decimal body.length).length + 1 : Nat) + (body.length : Int)) =
      pos + ((decimal body.length).length + (body.length + 1)) :=
    uint_of_lt (by push_cast; ring) (by omega)
  have inside : checkPos data (pos + (decimal body.length).length + body.length) = .ok () :=
    checkPos_ok (by omega)
  simp only [decodeStr, scan, size, before, middle, after, last, inside,
    Int.toNat_natCast, content, stop, bind, Except.bind]

theorem decode_sized (separator : UInt8) (body : Bytes) (separates : separator = 58 ∨ separator = 47)
    (sized : body.length < 2 ^ 31) (held : Holds data pos (sizedEncoding separator body)) :
    decode bigEndian data (fuel + 1) pos =
      if separator = 47 then .ok (.bytes body, pos + (sizedEncoding separator body).length)
      else (decodeUtf8 body >>= fun text =>
        .ok (.str text, pos + (sizedEncoding separator body).length)) := by
  have value := decodeStr_ok separator body separates sized held
  rw [sizedEncoding] at held
  cases shape : decimal (body.length : Int) with
  | nil =>
      rw [decimal, if_neg (by omega)] at shape
      exact absurd shape (decimalNat_ne_nil _)
  | cons c digits =>
      rw [shape] at held
      obtain ⟨inside, code, -⟩ := held.code
      have digit : IsDigit c := by
        rw [decimal, if_neg (by omega)] at shape
        exact decimalNat_digit body.length c (by
          rw [Int.natAbs_natCast] at shape
          simp [shape])
      have kind := (kindOf_ranges c.toNat c.toNat_lt).2.2.2.1 digit
      simp only [decode, inside, code, kind, bind, Except.bind] at value ⊢
      exact value

theorem decode_bytes (body : Bytes) (sized : body.length < 2 ^ 31)
    (held : Holds data pos (sizedEncoding 47 body)) :
    decode bigEndian data (fuel + 1) pos =
      .ok (.bytes body, pos + (sizedEncoding 47 body).length) := by
  rw [decode_sized bigEndian 47 body (.inr rfl) sized held, if_pos rfl]

theorem decode_str (text : String) (sized : (utf8 text).length < 2 ^ 31)
    (held : Holds data pos (strEncoding (utf8 text))) :
    decode bigEndian data (fuel + 1) pos =
      .ok (.str text, pos + (strEncoding (utf8 text)).length) := by
  unfold strEncoding at held ⊢
  by_cases inline : (utf8 text).length < 64
  · rw [if_pos inline] at held ⊢
    obtain ⟨inside, code, next⟩ := held.code
    have within := held.within
    have addressable := held.addressable
    rw [List.length_cons] at within addressable
    have byte : (UInt8.ofNat (128 + (utf8 text).length)).toNat = 128 + (utf8 text).length := by
      rw [UInt8.toNat_ofNat']
      omega
    have kind := (kindOf_ranges (128 + (utf8 text).length) (by omega)).2.2.1 (by omega)
    have size : 128 + (utf8 text).length - STR_FIXED_START + 1 = (utf8 text).length + 1 := by
      simp only [STR_FIXED_START]
      omega
    have last : uint (pos + ((utf8 text).length + 1 : Nat) - 1) = pos + (utf8 text).length :=
      uint_of_lt (by push_cast; ring) (by omega)
    have stop : uint (pos + ((utf8 text).length + 1 : Nat)) = pos + ((utf8 text).length + 1) :=
      uint_of_lt (by push_cast; ring) (by omega)
    simp only [decode, inside, code, byte, kind, decodeFixedStr, size, last,
      checkPos_ok (show pos + (utf8 text).length < data.length by omega), next,
      Nat.add_sub_cancel, held.tail.slice_eq, decodeUtf8_utf8, stop, bind, Except.bind,
      List.length_cons]
  · rw [if_neg inline] at held ⊢
    rw [decode_sized bigEndian 58 (utf8 text) (.inl rfl) sized held, if_neg (by decide),
      decodeUtf8_utf8]
    rfl

end Leaves

/-! ### Containers -/

theorem integerEncoding_code (x : Int) :
    ∃ c bs, integerEncoding x = c :: bs ∧ c.toNat ≠ 127 := by
  unfold integerEncoding
  split_ifs with inline negative
  · refine ⟨_, [], rfl, ?_⟩
    rw [UInt8.toNat_ofNat']
    omega
  · refine ⟨_, [], rfl, ?_⟩
    rw [UInt8.toNat_ofNat']
    omega
  all_goals exact ⟨_, _, rfl, by decide⟩

theorem sizedEncoding_code (separator : UInt8) (data : Bytes) :
    ∃ c bs, sizedEncoding separator data = c :: bs ∧ c.toNat ≠ 127 := by
  have digit := decimalNat_digit data.length
  unfold sizedEncoding
  rw [decimal, if_neg (by omega), Int.natAbs_natCast]
  cases shape : decimalNat data.length with
  | nil => exact absurd shape (decimalNat_ne_nil _)
  | cons c digits =>
      have range := digit c (by simp [shape])
      unfold IsDigit at range
      exact ⟨c, _, rfl, by omega⟩

theorem containerEncoding_code (start limit : Nat) (code : UInt8) (size : Nat) (members : Bytes)
    (range : start + limit ≤ 256) (inline : ∀ n < limit, start + n ≠ 127) (open_code : code.toNat ≠ 127) :
    ∃ c bs, containerEncoding start limit code size members = c :: bs ∧ c.toNat ≠ 127 := by
  unfold containerEncoding
  by_cases small : size < limit
  · rw [if_pos small]
    refine ⟨_, members, rfl, ?_⟩
    rw [UInt8.toNat_ofNat', Nat.mod_eq_of_lt (by omega)]
    exact inline size small
  · rw [if_neg small]
    exact ⟨code, _, rfl, open_code⟩

/-- The terminator is no value's type code. -/
theorem encoding_code (v : PyVal) : ∃ c bs, encoding v = c :: bs ∧ c.toNat ≠ 127 := by
  cases v with
  | none => exact ⟨69, [], rfl, by decide⟩
  | bool value =>
      cases value with
      | true => exact ⟨67, [], rfl, by decide⟩
      | false => exact ⟨68, [], rfl, by decide⟩
  | int data => exact integerEncoding_code data
  | float bits => exact ⟨44, _, rfl, by decide⟩
  | bytes data => exact sizedEncoding_code 47 data
  | memoryview data => exact sizedEncoding_code 47 data
  | str text =>
      simp only [encoding, strEncoding]
      by_cases inline : (utf8 text).length < 64
      · rw [if_pos inline]
        refine ⟨_, _, rfl, ?_⟩
        rw [UInt8.toNat_ofNat']
        omega
      · rw [if_neg inline]
        exact sizedEncoding_code 58 _
  | list items =>
      exact containerEncoding_code 192 64 59 _ _ (by omega) (fun n _ => by omega) (by decide)
  | tuple items =>
      exact containerEncoding_code 192 64 59 _ _ (by omega) (fun n _ => by omega) (by decide)
  | dict entries =>
      exact containerEncoding_code 102 25 60 _ _ (by omega) (fun n _ => by omega) (by decide)

theorem encoding_filled (v : PyVal) : 0 < (encoding v).length := by
  obtain ⟨c, bs, shape, -⟩ := encoding_code v
  rw [shape, List.length_cons]
  omega

/-- A value is read back where its encoding stands, with two rounds for each of its bytes. -/
def Reads (bigEndian : Bool) (data : CharBuffer) (v : PyVal) : Prop :=
  Encodable v → Sized v → ∀ fuel pos, Holds data pos (encoding v) →
    2 * (encoding v).length ≤ fuel →
    decode bigEndian data fuel pos = .ok (decoded v, pos + (encoding v).length)

section Containers

variable (bigEndian : Bool) {data : CharBuffer}

theorem decodeFixedList_ok (items : List PyVal) (each : ∀ item ∈ items, Reads bigEndian data item)
    (encodable : EncodableItems items) (sized : SizedItems items) (fuel pos : Nat)
    (held : Holds data pos (encodingItems items))
    (enough : 2 * (encodingItems items).length + 1 ≤ fuel) :
    decodeFixedList bigEndian data fuel items.length pos =
      .ok (decodedItems items, pos + (encodingItems items).length) := by
  induction items generalizing fuel pos with
  | nil => simp [decodeFixedList, decodedItems, encodingItems]
  | cons item items ih =>
      obtain ⟨first, others⟩ := List.forall_mem_cons.mp each
      have filled := encoding_filled item
      simp only [encodingItems, List.length_append] at held enough ⊢
      obtain ⟨fuel, rfl⟩ : ∃ rest, fuel = rest + 1 := ⟨fuel - 1, by omega⟩
      have head := first encodable.1 sized.1 fuel pos held.left (by omega)
      have tail := ih others encodable.2 sized.2 fuel _ held.right (by omega)
      simp only [List.length_cons, decodeFixedList, head, bind, Except.bind, tail, decodedItems,
        Nat.add_assoc]

theorem decodeList_ok (items : List PyVal) (each : ∀ item ∈ items, Reads bigEndian data item)
    (encodable : EncodableItems items) (sized : SizedItems items) (fuel pos : Nat)
    (held : Holds data pos (encodingItems items ++ [127]))
    (enough : 2 * (encodingItems items).length + 1 ≤ fuel) :
    decodeList bigEndian data fuel pos =
      .ok (decodedItems items, pos + ((encodingItems items).length + 1)) := by
  induction items generalizing fuel pos with
  | nil =>
      simp only [encodingItems, List.nil_append, List.length_nil] at held enough ⊢
      obtain ⟨fuel, rfl⟩ : ∃ rest, fuel = rest + 1 := ⟨fuel - 1, by omega⟩
      obtain ⟨-, term, next⟩ := held.code
      have closed : ¬(127 : UInt8).toNat ≠ CHR_TERM := by decide
      simp only [decodeList, term, bind, Except.bind, if_neg closed, decodedItems, next]
  | cons item items ih =>
      obtain ⟨first, others⟩ := List.forall_mem_cons.mp each
      have filled := encoding_filled item
      obtain ⟨c, bs, shape, open_code⟩ := encoding_code item
      simp only [encodingItems, List.length_append, List.append_assoc] at held enough ⊢
      obtain ⟨fuel, rfl⟩ : ∃ rest, fuel = rest + 1 := ⟨fuel - 1, by omega⟩
      have start := held.left
      rw [shape] at start
      have code := start.head
      have head := first encodable.1 sized.1 fuel pos held.left (by omega)
      have tail := ih others encodable.2 sized.2 fuel _ held.right (by omega)
      simp only [decodeList, code, bind, Except.bind, if_pos open_code, head, tail, decodedItems,
        Nat.add_assoc]

theorem setEntry_fresh (k v : PyVal) (d : List (PyVal × PyVal))
    (fresh : ∀ entry ∈ d, keyEq entry.1 k = false) : setEntry k v d = d ++ [(k, v)] := by
  induction d with
  | nil => rfl
  | cons entry d ih =>
      obtain ⟨first, others⟩ := List.forall_mem_cons.mp fresh
      simp [setEntry, first, ih others]

/-- The entries read so far and those to come have different keys. -/
def Fresh (d entries : List (PyVal × PyVal)) : Prop :=
  ∀ old ∈ d, ∀ new ∈ entries, keyEq old.1 new.1 = false

theorem Fresh.next {d entries : List (PyVal × PyVal)} {entry : PyVal × PyVal}
    (fresh : Fresh d (entry :: entries)) (distinct : DistinctKeys (entry :: entries)) :
    Fresh (d ++ [entry]) entries := by
  intro old member new later
  rcases List.mem_append.mp member with before | now
  · exact fresh old before new (List.mem_cons_of_mem _ later)
  · rw [List.mem_singleton.mp now]
    exact List.rel_of_pairwise_cons distinct later

theorem setItem_ok {d entries : List (PyVal × PyVal)} {k v : PyVal} (key : hashable k = true)
    (fresh : Fresh d ((k, v) :: entries)) : setItem d k v = .ok (d ++ [(k, v)]) := by
  rw [setItem, if_pos key, setEntry_fresh k v d fun entry member =>
    fresh entry member (k, v) (by simp)]

theorem decodeFixedDict_ok (entries : List (PyVal × PyVal))
    (each : ∀ entry ∈ entries, Reads bigEndian data entry.1 ∧ Reads bigEndian data entry.2)
    (encodable : EncodableEntries entries) (sized : SizedEntries entries)
    (d : List (PyVal × PyVal)) (distinct : DistinctKeys (decodedEntries entries))
    (fresh : Fresh d (decodedEntries entries)) (fuel pos : Nat)
    (held : Holds data pos (encodingEntries entries))
    (enough : 2 * (encodingEntries entries).length + 1 ≤ fuel) :
    decodeFixedDict bigEndian data fuel entries.length d pos =
      .ok (d ++ decodedEntries entries, pos + (encodingEntries entries).length) := by
  induction entries generalizing d fuel pos with
  | nil => simp [decodeFixedDict, decodedEntries, encodingEntries]
  | cons entry entries ih =>
      obtain ⟨k, v⟩ := entry
      obtain ⟨⟨readsKey, readsValue⟩, others⟩ := List.forall_mem_cons.mp each
      dsimp only at readsKey readsValue
      have filled := encoding_filled k
      have filled' := encoding_filled v
      simp only [encodingEntries, encodingEntry, List.append_assoc, List.length_append] at held enough ⊢
      simp only [decodedEntries, decodedEntry] at distinct fresh ⊢
      obtain ⟨fuel, rfl⟩ : ∃ rest, fuel = rest + 1 := ⟨fuel - 1, by omega⟩
      have key := readsKey encodable.1.1 sized.1.1 fuel pos held.left (by omega)
      have value := readsValue encodable.1.2.2 sized.1.2 fuel _ held.right.left (by omega)
      have tail := ih others encodable.2 sized.2 _ (List.Pairwise.of_cons distinct)
        (fresh.next distinct) fuel _ held.right.right (by omega)
      simp only [Nat.add_assoc, List.append_assoc, List.singleton_append] at tail
      simp only [List.length_cons, decodeFixedDict, key, value,
        setItem_ok encodable.1.2.1 fresh, bind, Except.bind, tail, Nat.add_assoc]

theorem decodeDict_ok (entries : List (PyVal × PyVal))
    (each : ∀ entry ∈ entries, Reads bigEndian data entry.1 ∧ Reads bigEndian data entry.2)
    (encodable : EncodableEntries entries) (sized : SizedEntries entries)
    (d : List (PyVal × PyVal)) (distinct : DistinctKeys (decodedEntries entries))
    (fresh : Fresh d (decodedEntries entries)) (fuel pos : Nat)
    (held : Holds data pos (encodingEntries entries ++ [127]))
    (enough : 2 * (encodingEntries entries).length + 1 ≤ fuel) :
    decodeDict bigEndian data fuel d pos =
      .ok (d ++ decodedEntries entries, pos + ((encodingEntries entries).length + 1)) := by
  induction entries generalizing d fuel pos with
  | nil =>
      simp only [encodingEntries, List.nil_append, List.length_nil] at held enough ⊢
      obtain ⟨fuel, rfl⟩ : ∃ rest, fuel = rest + 1 := ⟨fuel - 1, by omega⟩
      obtain ⟨-, term, next⟩ := held.code
      have closed : ¬(127 : UInt8).toNat ≠ CHR_TERM := by decide
      simp only [decodeDict, term, bind, Except.bind, if_neg closed, decodedEntries, next,
        List.append_nil]
  | cons entry entries ih =>
      obtain ⟨k, v⟩ := entry
      obtain ⟨⟨readsKey, readsValue⟩, others⟩ := List.forall_mem_cons.mp each
      dsimp only at readsKey readsValue
      have filled := encoding_filled k
      have filled' := encoding_filled v
      obtain ⟨c, bs, shape, open_code⟩ := encoding_code k
      simp only [encodingEntries, encodingEntry, List.append_assoc, List.length_append] at held enough ⊢
      simp only [decodedEntries, decodedEntry] at distinct fresh ⊢
      obtain ⟨fuel, rfl⟩ : ∃ rest, fuel = rest + 1 := ⟨fuel - 1, by omega⟩
      have start := held.left
      rw [shape] at start
      have code := start.head
      have key := readsKey encodable.1.1 sized.1.1 fuel pos held.left (by omega)
      have value := readsValue encodable.1.2.2 sized.1.2 fuel _ held.right.left (by omega)
      have tail := ih others encodable.2 sized.2 _ (List.Pairwise.of_cons distinct)
        (fresh.next distinct) fuel _ held.right.right (by omega)
      simp only [Nat.add_assoc, List.append_assoc, List.singleton_append] at tail
      simp only [decodeDict, code, if_pos open_code, key, value,
        setItem_ok encodable.1.2.1 fresh, bind, Except.bind, tail, Nat.add_assoc]

theorem decode_items (items : List PyVal) (each : ∀ item ∈ items, Reads bigEndian data item)
    (encodable : EncodableItems items) (sized : SizedItems items) (fuel pos : Nat)
    (held : Holds data pos (containerEncoding 192 64 59 items.length (encodingItems items)))
    (enough : 2 * (containerEncoding 192 64 59 items.length (encodingItems items)).length ≤ fuel) :
    decode bigEndian data fuel pos = .ok (.tuple (decodedItems items),
      pos + (containerEncoding 192 64 59 items.length (encodingItems items)).length) := by
  unfold containerEncoding at held enough ⊢
  by_cases inline : items.length < 64
  · simp only [if_pos inline, List.length_cons] at held enough ⊢
    obtain ⟨fuel, rfl⟩ : ∃ rest, fuel = rest + 1 := ⟨fuel - 1, by omega⟩
    obtain ⟨inside, code, next⟩ := held.code
    have byte : (UInt8.ofNat (192 + items.length)).toNat = 192 + items.length := by
      rw [UInt8.toNat_ofNat']
      omega
    have kind := (kindOf_ranges (192 + items.length) (by omega)).2.2.2.2.1 (by omega)
    have size : 192 + items.length - LIST_FIXED_START = items.length := by
      simp only [LIST_FIXED_START, STR_FIXED_START, STR_FIXED_COUNT]
      omega
    have members := decodeFixedList_ok bigEndian items each encodable sized fuel (pos + 1) held.tail
      (by omega)
    simp only [decode, inside, code, byte, kind, size, next, members, bind, Except.bind,
      Nat.add_assoc, Nat.add_comm 1]
  · simp only [if_neg inline, List.length_cons, List.length_append, List.length_nil] at held enough ⊢
    obtain ⟨fuel, rfl⟩ : ∃ rest, fuel = rest + 1 := ⟨fuel - 1, by omega⟩
    obtain ⟨inside, code, next⟩ := held.code
    have kind : kindOf (59 : UInt8).toNat = .list := by decide
    have members := decodeList_ok bigEndian items each encodable sized fuel (pos + 1) held.tail
      (by omega)
    simp only [decode, inside, code, kind, next, members, bind, Except.bind, Nat.add_assoc,
      Nat.add_comm 1, Nat.zero_add]

theorem decode_entries (entries : List (PyVal × PyVal))
    (each : ∀ entry ∈ entries, Reads bigEndian data entry.1 ∧ Reads bigEndian data entry.2)
    (encodable : EncodableEntries entries) (sized : SizedEntries entries)
    (distinct : DistinctKeys (decodedEntries entries)) (fuel pos : Nat)
    (held : Holds data pos (containerEncoding 102 25 60 entries.length (encodingEntries entries)))
    (enough :
      2 * (containerEncoding 102 25 60 entries.length (encodingEntries entries)).length ≤ fuel) :
    decode bigEndian data fuel pos = .ok (.dict (decodedEntries entries),
      pos + (containerEncoding 102 25 60 entries.length (encodingEntries entries)).length) := by
  have fresh : Fresh [] (decodedEntries entries) := fun old member => by cases member
  unfold containerEncoding at held enough ⊢
  by_cases inline : entries.length < 25
  · simp only [if_pos inline, List.length_cons] at held enough ⊢
    obtain ⟨fuel, rfl⟩ : ∃ rest, fuel = rest + 1 := ⟨fuel - 1, by omega⟩
    obtain ⟨inside, code, next⟩ := held.code
    have byte : (UInt8.ofNat (102 + entries.length)).toNat = 102 + entries.length := by
      rw [UInt8.toNat_ofNat']
      omega
    have kind := (kindOf_ranges (102 + entries.length) (by omega)).2.2.2.2.2 (by omega)
    have size : 102 + entries.length - DICT_FIXED_START = entries.length := by
      simp only [DICT_FIXED_START]
      omega
    have members := decodeFixedDict_ok bigEndian entries each encodable sized [] distinct fresh fuel
      (pos + 1) held.tail (by omega)
    simp only [decode, inside, code, byte, kind, size, next, members, bind, Except.bind,
      List.nil_append, Nat.add_assoc, Nat.add_comm 1]
  · simp only [if_neg inline, List.length_cons, List.length_append, List.length_nil] at held enough ⊢
    obtain ⟨fuel, rfl⟩ : ∃ rest, fuel = rest + 1 := ⟨fuel - 1, by omega⟩
    obtain ⟨inside, code, next⟩ := held.code
    have kind : kindOf (60 : UInt8).toNat = .dict := by decide
    have within := held.within
    simp only [List.length_cons, List.length_append, List.length_nil] at within
    have members := decodeDict_ok bigEndian entries each encodable sized [] distinct fresh fuel
      (pos + 1) held.tail (by omega)
    simp only [decode, inside, code, kind, next, checkPos_ok (show pos + 1 < data.length by omega),
      members, bind, Except.bind, List.nil_append, Nat.add_assoc, Nat.add_comm 1, Nat.zero_add]

end Containers

theorem decode_encoding (bigEndian : Bool) (data : CharBuffer) (v : PyVal) :
    Reads bigEndian data v := by
  induction v using value_induction with
  | none =>
      intro _ _ fuel pos held enough
      obtain ⟨fuel, rfl⟩ : ∃ rest, fuel = rest + 1 := ⟨fuel - 1, by simp [encoding] at enough; omega⟩
      obtain ⟨inside, code, next⟩ := held.code
      have kind : kindOf (69 : UInt8).toNat = .none := by decide
      simp only [decode, inside, code, kind, next, bind, Except.bind]
      rfl
  | bool value =>
      intro _ _ fuel pos held enough
      obtain ⟨fuel, rfl⟩ : ∃ rest, fuel = rest + 1 := ⟨fuel - 1, by simp [encoding] at enough; omega⟩
      obtain ⟨inside, code, next⟩ := held.code
      cases value with
      | true =>
          have kind : kindOf (67 : UInt8).toNat = .true := by decide
          simp only [decode, inside, code, if_true, kind, next, bind, Except.bind]
          rfl
      | false =>
          have kind : kindOf (68 : UInt8).toNat = .false := by decide
          simp only [decode, inside, code, Bool.false_eq_true, if_false, kind, next, bind,
            Except.bind]
          rfl
  | int data =>
      intro encodable _ fuel pos held enough
      have filled := encoding_filled (.int data)
      obtain ⟨fuel, rfl⟩ : ∃ rest, fuel = rest + 1 := ⟨fuel - 1, by omega⟩
      exact decode_integer bigEndian data encodable held
  | float bits =>
      intro _ _ fuel pos held enough
      have filled := encoding_filled (.float bits)
      obtain ⟨fuel, rfl⟩ : ∃ rest, fuel = rest + 1 := ⟨fuel - 1, by omega⟩
      simpa [encoding, decoded] using decode_float64 bigEndian bits held
  | bytes body =>
      intro _ sized fuel pos held enough
      have filled := encoding_filled (.bytes body)
      obtain ⟨fuel, rfl⟩ : ∃ rest, fuel = rest + 1 := ⟨fuel - 1, by omega⟩
      exact decode_bytes bigEndian body sized held
  | memoryview body =>
      intro _ sized fuel pos held enough
      have filled := encoding_filled (.memoryview body)
      obtain ⟨fuel, rfl⟩ : ∃ rest, fuel = rest + 1 := ⟨fuel - 1, by omega⟩
      exact decode_bytes bigEndian body sized held
  | str text =>
      intro _ sized fuel pos held enough
      have filled := encoding_filled (.str text)
      obtain ⟨fuel, rfl⟩ : ∃ rest, fuel = rest + 1 := ⟨fuel - 1, by omega⟩
      exact decode_str bigEndian text sized held
  | list items each =>
      intro encodable sized fuel pos held enough
      exact decode_items bigEndian items each encodable sized fuel pos held enough
  | tuple items each =>
      intro encodable sized fuel pos held enough
      exact decode_items bigEndian items each encodable sized fuel pos held enough
  | dict entries each =>
      intro encodable sized fuel pos held enough
      exact decode_entries bigEndian entries each encodable.1 sized encodable.2 fuel pos held enough

/-! ### Round trip -/

theorem decodeStart_encoding (bigEndian : Bool) (v : PyVal) (encodable : Encodable v)
    (sized : Sized v) (fits : (encoding v).length < 2 ^ 32) (suffix : Bytes) :
    decodeStart bigEndian (encoding v ++ suffix) = .ok (decoded v, (encoding v).length) := by
  have enough : 2 * (encoding v).length ≤ decodeFuel (encoding v ++ suffix) := by
    rw [decodeFuel, List.length_append]
    omega
  have value := decode_encoding bigEndian (bytesBuffer (encoding v ++ suffix)) v encodable sized
    (decodeFuel (encoding v ++ suffix)) 0 (holds_bytesBuffer _ suffix fits) enough
  rwa [Nat.zero_add] at value

/-- A decoder that finds one value at the start of the data finds no shorter or longer one. -/
theorem encoding_prefix (bigEndian : Bool) (v v' : PyVal) (encodable : Encodable v)
    (encodable' : Encodable v') (sized : Sized v) (sized' : Sized v')
    (fits : (encoding v).length < 2 ^ 32) (fits' : (encoding v').length < 2 ^ 32)
    (starts : encoding v <+: encoding v') : encoding v = encoding v' := by
  obtain ⟨suffix, whole⟩ := starts
  have here := decodeStart_encoding bigEndian v encodable sized fits suffix
  have there := decodeStart_encoding bigEndian v' encodable' sized' fits' []
  rw [List.append_nil, ← whole, here] at there
  have lengths : (encoding v).length = (encoding v ++ suffix).length := by
    injection there with both
    injection both
  rw [List.length_append] at lengths
  have nothing : suffix = [] := List.eq_nil_of_length_eq_zero (by omega)
  rw [← whole, nothing, List.append_nil]

/-- What is dumped is read back, wherever it stops being the data, and no dump continues another. -/
theorem loads_dumps (bigEndian : Bool) (v : PyVal) (encodable : Encodable v) (sized : Sized v)
    (fits : (encoding v).length < 2 ^ 32) :
    ∃ bs, dumps bigEndian v = .ok bs ∧
      (∀ w, decodeStart bigEndian (bs ++ w) = .ok (decoded v, bs.length)) ∧
      loads bigEndian bs = .ok (decoded v) ∧
      ∀ v' bs', Encodable v' → Sized v' → (encoding v').length < 2 ^ 32 →
        dumps bigEndian v' = .ok bs' → bs <+: bs' → bs = bs' := by
  refine ⟨encoding v, dumps_ok bigEndian v encodable sized fits,
    decodeStart_encoding bigEndian v encodable sized fits, ?_, ?_⟩
  · have alone := decodeStart_encoding bigEndian v encodable sized fits []
    rw [List.append_nil] at alone
    rw [loads, alone]
    rfl
  · intro v' bs' encodable' sized' fits' written starts
    rw [dumps_ok bigEndian v' encodable' sized' fits'] at written
    injection written with same
    subst same
    exact encoding_prefix bigEndian v v' encodable encodable' sized sized' fits fits' starts

/-- A list under a text, a view under a tuple, and numbers of two lengths. -/
theorem loads_dumps_nested :
    let v : PyVal := .dict [(.str "a", .list [.int 44, .int (-2 ^ 64), .none]),
      (.tuple [.int 1], .memoryview [127, 0])]
    ∃ bs, dumps false v = .ok bs ∧
      (∀ w, decodeStart false (bs ++ w) = .ok (decoded v, bs.length)) ∧
      loads false bs = .ok (decoded v) ∧
      ∀ v' bs', Encodable v' → Sized v' → (encoding v').length < 2 ^ 32 →
        dumps false v' = .ok bs' → bs <+: bs' → bs = bs' := by
  intro v
  have short (x : Int) (digits : (decimal x).length < 64) : Encodable (.int x) := digits
  have list : Encodable (.list [.int 44, .int (-2 ^ 64), .none]) :=
    ⟨short 44 (by decide), short (-2 ^ 64) (by decide), trivial, trivial⟩
  have tuple : Encodable (.tuple [.int 1]) := ⟨short 1 (by decide), trivial⟩
  have distinct : DistinctKeys (decodedEntries [(.str "a", .list [.int 44, .int (-2 ^ 64), .none]),
      (.tuple [.int 1], .memoryview [127, 0])]) := by
    unfold DistinctKeys
    decide
  have text : (utf8 "a").length < 2 ^ 31 := by decide
  have view : ([127, 0] : Bytes).length < 2 ^ 31 := by decide
  have sized : Sized v := ⟨⟨text, trivial, trivial, trivial, trivial⟩, ⟨⟨trivial, trivial⟩, view⟩, trivial⟩
  exact loads_dumps false v ⟨⟨⟨trivial, rfl, list⟩, ⟨tuple, rfl, trivial⟩, trivial⟩, distinct⟩ sized
    (by decide)

/-- An `int` that is given the length of four gigabytes is zero. -/
theorem dumps_wrapped (bigEndian : Bool) (data : Bytes) (size : data.length = 2 ^ 32) :
    dumps bigEndian (.bytes data) = .ok [48, 47] := by
  have wrapped : cInt data.length = 0 := by
    rw [size]
    decide
  simp only [dumps, encode, encodeBytes, wrapped]
  rfl

theorem not_loads_dumps :
    ¬∀ bigEndian v, Encodable v →
      ∃ bs, dumps bigEndian v = .ok bs ∧ loads bigEndian bs = .ok (decoded v) := by
  intro round_trip
  have size : (List.replicate (2 ^ 32) (0 : UInt8)).length = 2 ^ 32 := List.length_replicate
  obtain ⟨bs, written, read⟩ := round_trip false (.bytes (List.replicate (2 ^ 32) 0)) trivial
  rw [dumps_wrapped false _ size] at written
  injection written with same
  subst same
  have empty : loads false [48, 47] = .ok (.bytes []) := by rfl
  rw [empty] at read
  simp only [decoded] at read
  injection read with value
  injection value with nothing
  rw [← nothing] at size
  exact absurd size (by decide)

end Catlink.Rencodeplus
