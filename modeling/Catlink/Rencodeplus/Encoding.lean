import Catlink.Rencodeplus.Decode

/-! What the format is: the bytes of a value as one function of it, and what the encoder writes. -/

namespace Catlink.Rencodeplus

open BigEndian

/-! ### The format -/

def integerEncoding (data : Int) : Bytes :=
  if 0 ≤ data ∧ data < 44 then [UInt8.ofNat data.toNat]
  else if -32 ≤ data ∧ data < 0 then [UInt8.ofNat (69 - data).toNat]
  else if -128 ≤ data ∧ data < 128 then [62, UInt8.ofInt data]
  else if -32768 ≤ data ∧ data < 32768 then 63 :: encodeBE 2 (BitVec.ofInt 16 data).toNat
  else if -2 ^ 31 ≤ data ∧ data < 2 ^ 31 then 64 :: encodeBE 4 (BitVec.ofInt 32 data).toNat
  else if -2 ^ 63 ≤ data ∧ data < 2 ^ 63 then 65 :: encodeBE 8 (BitVec.ofInt 64 data).toNat
  else 61 :: (decimal data ++ [127])

/-- The length in decimal, a separator and the bytes. -/
def sizedEncoding (separator : UInt8) (data : Bytes) : Bytes :=
  decimal data.length ++ separator :: data

def strEncoding (text : Bytes) : Bytes :=
  if text.length < 64 then UInt8.ofNat (128 + text.length) :: text else sizedEncoding 58 text

/-- The number of members in the type code, or a terminator after them. -/
def containerEncoding (start limit : Nat) (code : UInt8) (size : Nat) (members : Bytes) : Bytes :=
  if size < limit then UInt8.ofNat (start + size) :: members else code :: (members ++ [127])

mutual
def encoding : PyVal → Bytes
  | .int data => integerEncoding data
  | .float bits => 44 :: encodeBE 8 bits.toNat
  | .bytes data | .memoryview data => sizedEncoding 47 data
  | .str text => strEncoding (utf8 text)
  | .none => [69]
  | .bool value => [if value then 67 else 68]
  | .list items | .tuple items => containerEncoding 192 64 59 items.length (encodingItems items)
  | .dict entries => containerEncoding 102 25 60 entries.length (encodingEntries entries)

def encodingItems : List PyVal → Bytes
  | [] => []
  | item :: items => encoding item ++ encodingItems items

def encodingEntries : List (PyVal × PyVal) → Bytes
  | [] => []
  | entry :: entries => encodingEntry entry ++ encodingEntries entries

def encodingEntry : PyVal × PyVal → Bytes
  | (k, v) => encoding k ++ encoding v
end

mutual
/-- What the other side gets: lists become tuples and views bytes. -/
def decoded : PyVal → PyVal
  | .memoryview data => .bytes data
  | .list items | .tuple items => .tuple (decodedItems items)
  | .dict entries => .dict (decodedEntries entries)
  | v => v

def decodedItems : List PyVal → List PyVal
  | [] => []
  | item :: items => decoded item :: decodedItems items

def decodedEntries : List (PyVal × PyVal) → List (PyVal × PyVal)
  | [] => []
  | entry :: entries => decodedEntry entry :: decodedEntries entries

def decodedEntry : PyVal × PyVal → PyVal × PyVal
  | (k, v) => (decoded k, decoded v)
end

def DistinctKeys (entries : List (PyVal × PyVal)) : Prop :=
  entries.Pairwise fun first second => keyEq first.1 second.1 = false

mutual
/-- Short enough integers, and dictionaries whose keys are still keys at the other end. -/
def Encodable : PyVal → Prop
  | .int data => (decimal data).length < MAX_INT_LENGTH
  | .list items | .tuple items => EncodableItems items
  | .dict entries => EncodableEntries entries ∧ DistinctKeys (decodedEntries entries)
  | _ => True

def EncodableItems : List PyVal → Prop
  | [] => True
  | item :: items => Encodable item ∧ EncodableItems items

def EncodableEntries : List (PyVal × PyVal) → Prop
  | [] => True
  | entry :: entries => EncodableEntry entry ∧ EncodableEntries entries

def EncodableEntry : PyVal × PyVal → Prop
  | (k, v) => Encodable k ∧ hashable (decoded k) = true ∧ Encodable v
end

mutual
/-- Every length is one that an `int` can be. -/
def Sized : PyVal → Prop
  | .bytes data | .memoryview data => data.length < 2 ^ 31
  | .str text => (utf8 text).length < 2 ^ 31
  | .list items | .tuple items => SizedItems items
  | .dict entries => SizedEntries entries
  | _ => True

def SizedItems : List PyVal → Prop
  | [] => True
  | item :: items => Sized item ∧ SizedItems items

def SizedEntries : List (PyVal × PyVal) → Prop
  | [] => True
  | entry :: entries => SizedEntry entry ∧ SizedEntries entries

def SizedEntry : PyVal × PyVal → Prop
  | (k, v) => Sized k ∧ Sized v
end

/-- Containers from their members, everything else as it is. -/
theorem value_induction {P : PyVal → Prop}
    (none : P .none) (bool : ∀ value, P (.bool value)) (int : ∀ data, P (.int data))
    (float : ∀ bits, P (.float bits)) (bytes : ∀ data, P (.bytes data))
    (memoryview : ∀ data, P (.memoryview data)) (str : ∀ text, P (.str text))
    (list : ∀ items : List PyVal, (∀ item ∈ items, P item) → P (.list items))
    (tuple : ∀ items : List PyVal, (∀ item ∈ items, P item) → P (.tuple items))
    (dict : ∀ entries : List (PyVal × PyVal),
      (∀ entry ∈ entries, P entry.1 ∧ P entry.2) → P (.dict entries)) :
    ∀ v, P v := by
  intro v
  refine @PyVal.rec P (fun items => ∀ item ∈ items, P item)
    (fun entries => ∀ entry ∈ entries, P entry.1 ∧ P entry.2) (fun entry => P entry.1 ∧ P entry.2)
    none bool int float bytes memoryview str list tuple dict ?_ ?_ ?_ ?_ ?_ v
  · intro item member
    cases member
  · intro head tail first rest
    exact List.forall_mem_cons.mpr ⟨first, rest⟩
  · intro entry member
    cases member
  · intro head tail first rest
    exact List.forall_mem_cons.mpr ⟨first, rest⟩
  · intro k v key value
    exact ⟨key, value⟩

/-! ### Byte swaps -/

/-- The bytes of a machine integer, most significant first, once in memory in the machine's order. -/
theorem store_swapBytes (bigEndian : Bool) (width n : Nat) :
    store bigEndian width
      (if bigEndian then n else swapBytes bigEndian (store bigEndian width n)) =
      encodeBE width n := by
  cases bigEndian with
  | true => rfl
  | false => exact store_swapped width n

theorem store_swapByteOrderUshort (s : BitVec 16) :
    store false 2 (swapByteOrderUshort s).toNat = encodeBE 2 s.toNat := by
  refine encodeBE_reverse_of_testBit 2 _ _ fun k hk j hj => ?_
  simp only [BitVec.testBit_toNat, swapByteOrderUshort]
  interval_cases k <;> interval_cases j <;> simp

/-- The shifts copy the sign, which positive numbers do not have. -/
theorem store_swapByteOrderUint (i : BitVec 32) (positive : i.msb = false) :
    store false 4 (swapByteOrderUint i).toNat = encodeBE 4 i.toNat := by
  refine encodeBE_reverse_of_testBit 4 _ _ fun k hk j hj => ?_
  simp only [BitVec.testBit_toNat, swapByteOrderUint, BitVec.sshiftRight_eq_of_msb_false positive]
  interval_cases k <;> interval_cases j <;> simp

theorem store_swapByteOrderUlongLong (v : BitVec 64) (positive : v.msb = false) :
    store false 8 (swapByteOrderUlongLong v).toNat = encodeBE 8 v.toNat := by
  refine encodeBE_reverse_of_testBit 8 _ _ fun k hk j hj => ?_
  simp only [BitVec.testBit_toNat, swapByteOrderUlongLong,
    BitVec.sshiftRight_eq_of_msb_false positive]
  interval_cases k <;> interval_cases j <;> simp

/-! ### The encoder writes the format -/

theorem writeBuffer_ok (buf data : Bytes) (fits : buf.length + data.length < 2 ^ 32) :
    writeBuffer buf data = .ok (buf ++ data) := if_pos fits

theorem writeBufferChar_ok (buf : Bytes) (c : UInt8) (fits : buf.length + 1 < 2 ^ 32) :
    writeBufferChar buf c = .ok (buf ++ [c]) := writeBuffer_ok buf [c] fits

theorem writeBufferSize_ok (buf data : Bytes) (fits : buf.length + data.length < 2 ^ 32) :
    writeBufferSize buf data data.length = .ok (buf ++ data) := by
  have size : ¬((data.length : Int) < 0) := by omega
  rw [writeBufferSize, if_neg size, Int.toNat_natCast, List.take_length]
  exact writeBuffer_ok buf data fits

/-- A type code and the bytes after it. -/
theorem write_code (buf bytes : Bytes) (code : UInt8)
    (fits : buf.length + (code :: bytes).length < 2 ^ 32) :
    (writeBufferChar buf code >>= fun buf => writeBuffer buf bytes) = .ok (buf ++ code :: bytes) := by
  have room : buf.length + (bytes.length + 1) < 2 ^ 32 := fits
  have body : writeBuffer (buf ++ [code]) bytes = .ok (buf ++ [code] ++ bytes) := by
    refine writeBuffer_ok _ _ ?_
    rw [List.length_append, List.length_singleton]
    omega
  rw [writeBufferChar_ok buf code (by omega)]
  calc
    writeBuffer (buf ++ [code]) bytes = .ok (buf ++ [code] ++ bytes) := body
    _ = .ok (buf ++ code :: bytes) := by rw [List.append_assoc, List.singleton_append]

/-- Positive integers are swapped by shifts and the others byte by byte. -/
theorem store_swapped_by_sign (bigEndian : Bool) (width n shifted : Nat) (x : Int)
    (agrees : x > 0 → store false width shifted = encodeBE width n) :
    store bigEndian width
      (if bigEndian then n
        else if x > 0 then shifted
        else swapBytes bigEndian (store bigEndian width n)) = encodeBE width n := by
  have swapped := store_swapBytes bigEndian width n
  cases bigEndian with
  | true => exact swapped
  | false =>
      by_cases positive : x > 0
      · rw [if_neg (by simp), if_pos positive, agrees positive]
      · rw [if_neg (by simp), if_neg positive]
        exact swapped

theorem ofInt_msb_of_pos (w : Nat) (x : Int) (positive : x > 0) (small : 2 * x < 2 ^ w) :
    (BitVec.ofInt w x).msb = false := by
  have inside : x % ((2 ^ w : Nat) : Int) = x := by
    refine Int.emod_eq_of_lt (by omega) ?_
    push_cast
    omega
  rw [BitVec.msb_eq_false_iff_two_mul_lt, BitVec.toNat_ofInt, inside]
  zify
  rw [Int.toNat_of_nonneg (by omega)]
  exact small

theorem encodeShort_ok (bigEndian : Bool) (buf : Bytes) (x : Int) (fits : buf.length + 3 < 2 ^ 32) :
    encodeShort bigEndian buf x = .ok (buf ++ 63 :: encodeBE 2 (BitVec.ofInt 16 x).toNat) := by
  have swapped := store_swapped_by_sign bigEndian 2 _ _ x fun _ =>
    store_swapByteOrderUshort (BitVec.ofInt 16 x)
  rw [encodeShort]
  simp only [swapped]
  exact write_code buf _ 63 (by rwa [List.length_cons, encodeBE_length])

theorem encodeInt_ok (bigEndian : Bool) (buf : Bytes) (x : Int) (range : x < 2 ^ 31)
    (fits : buf.length + 5 < 2 ^ 32) :
    encodeInt bigEndian buf x = .ok (buf ++ 64 :: encodeBE 4 (BitVec.ofInt 32 x).toNat) := by
  have swapped := store_swapped_by_sign bigEndian 4 _ _ x fun positive =>
    store_swapByteOrderUint (BitVec.ofInt 32 x) (ofInt_msb_of_pos 32 x positive (by omega))
  rw [encodeInt]
  simp only [swapped]
  exact write_code buf _ 64 (by rwa [List.length_cons, encodeBE_length])

theorem encodeLongLong_ok (bigEndian : Bool) (buf : Bytes) (x : Int) (range : x < 2 ^ 63)
    (fits : buf.length + 9 < 2 ^ 32) :
    encodeLongLong bigEndian buf x = .ok (buf ++ 65 :: encodeBE 8 (BitVec.ofInt 64 x).toNat) := by
  have swapped := store_swapped_by_sign bigEndian 8 _ _ x fun positive =>
    store_swapByteOrderUlongLong (BitVec.ofInt 64 x) (ofInt_msb_of_pos 64 x positive (by omega))
  rw [encodeLongLong]
  simp only [swapped]
  exact write_code buf _ 65 (by rwa [List.length_cons, encodeBE_length])

theorem encodeFloat64_ok (bigEndian : Bool) (buf : Bytes) (x : BitVec 64)
    (fits : buf.length + 9 < 2 ^ 32) :
    encodeFloat64 bigEndian buf x = .ok (buf ++ 44 :: encodeBE 8 x.toNat) := by
  rw [encodeFloat64]
  simp only [store_swapBytes]
  exact write_code buf _ 44 (by rwa [List.length_cons, encodeBE_length])

theorem encodeChar_ok (buf : Bytes) (x : Int) (range : -128 ≤ x ∧ x < 128)
    (fits : buf.length + (integerEncoding x).length < 2 ^ 32) :
    encodeChar buf x = .ok (buf ++ integerEncoding x) := by
  have branches : encodeChar buf x =
      if 0 ≤ x ∧ x < 44 then writeBufferChar buf (UInt8.ofNat (0 + x.toNat))
      else if -32 ≤ x ∧ x < 0 then writeBufferChar buf (UInt8.ofNat (69 - x).toNat)
      else writeBufferChar buf 62 >>= fun buf => writeBuffer buf [UInt8.ofInt x] := rfl
  rw [branches]
  unfold integerEncoding at fits ⊢
  by_cases inline : 0 ≤ x ∧ x < 44
  · rw [if_pos inline] at fits ⊢
    rw [if_pos inline, Nat.zero_add]
    exact writeBufferChar_ok buf _ fits
  rw [if_neg inline] at fits ⊢
  rw [if_neg inline]
  by_cases negative : -32 ≤ x ∧ x < 0
  · rw [if_pos negative] at fits ⊢
    rw [if_pos negative]
    exact writeBufferChar_ok buf _ fits
  rw [if_neg negative, if_pos range] at fits ⊢
  rw [if_neg negative]
  exact write_code buf [UInt8.ofInt x] 62 fits

theorem encodeBigNumber_ok (buf x : Bytes)
    (fits : buf.length + (61 :: (x ++ [127])).length < 2 ^ 32) :
    encodeBigNumber buf x = .ok (buf ++ 61 :: (x ++ [127])) := by
  have room : buf.length + (x.length + 1 + 1) < 2 ^ 32 := by simpa using fits
  have code := write_code buf x 61 (by simp only [List.length_cons]; omega)
  have term : writeBufferChar (buf ++ 61 :: x) 127 = .ok (buf ++ 61 :: x ++ [127]) := by
    refine writeBufferChar_ok _ _ ?_
    rw [List.length_append, List.length_cons]
    omega
  obtain ⟨first, written, body⟩ := ok_of_bind code
  rw [encodeBigNumber]
  simp only [CHR_INT, CHR_TERM]
  calc
    _ = writeBufferChar (buf ++ 61 :: x) 127 := by
      rw [show writeBufferChar buf (UInt8.ofNat 61) = .ok first from written]
      simp only [bind, Except.bind, body]
      rfl
    _ = .ok (buf ++ 61 :: x ++ [127]) := term
    _ = .ok (buf ++ 61 :: (x ++ [127])) := by rw [List.append_assoc, List.cons_append]

theorem encodeInteger_ok (bigEndian : Bool) (buf : Bytes) (data : Int)
    (short : (decimal data).length < MAX_INT_LENGTH)
    (fits : buf.length + (integerEncoding data).length < 2 ^ 32) :
    encodeInteger bigEndian buf data = .ok (buf ++ integerEncoding data) := by
  unfold encodeInteger
  by_cases char : -128 ≤ data ∧ data < 128
  · rw [if_pos char]
    exact encodeChar_ok buf data char fits
  have inline : ¬(0 ≤ data ∧ data < 44) := by omega
  have negative : ¬(-32 ≤ data ∧ data < 0) := by omega
  unfold integerEncoding at fits ⊢
  rw [if_neg inline, if_neg negative, if_neg char] at fits ⊢
  rw [if_neg char]
  by_cases short : -32768 ≤ data ∧ data < 32768
  · rw [if_pos short] at fits ⊢
    rw [if_pos short]
    exact encodeShort_ok bigEndian buf data (by rwa [List.length_cons, encodeBE_length] at fits)
  rw [if_neg short] at fits ⊢
  rw [if_neg short]
  by_cases int : -2 ^ 31 ≤ data ∧ data < 2 ^ 31
  · rw [if_pos int] at fits ⊢
    rw [if_pos int]
    exact encodeInt_ok bigEndian buf data int.2 (by rwa [List.length_cons, encodeBE_length] at fits)
  rw [if_neg int] at fits ⊢
  rw [if_neg int]
  by_cases longLong : -2 ^ 63 ≤ data ∧ data < 2 ^ 63
  · rw [if_pos longLong] at fits ⊢
    rw [if_pos longLong]
    exact encodeLongLong_ok bigEndian buf data longLong.2
      (by rwa [List.length_cons, encodeBE_length] at fits)
  rw [if_neg longLong] at fits ⊢
  rw [if_neg longLong]
  dsimp only
  rw [if_neg (by omega)]
  exact encodeBigNumber_ok buf _ fits

theorem cInt_of_lt (n : Nat) (small : n < 2 ^ 31) : cInt n = n := by
  unfold cInt
  exact Int.bmod_eq_of_le (by omega) (by omega)

/-- A length in decimal, its separator, and that many bytes. -/
theorem write_sized (buf data : Bytes) (separator : UInt8)
    (fits : buf.length + (sizedEncoding separator data).length < 2 ^ 32) :
    (writeBuffer buf (decimal data.length ++ [separator]) >>= fun buf =>
      writeBufferSize buf data data.length) = .ok (buf ++ sizedEncoding separator data) := by
  have room : buf.length + ((decimal data.length).length + (data.length + 1)) < 2 ^ 32 := by
    rwa [sizedEncoding, List.length_append, List.length_cons] at fits
  have size : writeBuffer buf (decimal data.length ++ [separator]) =
      .ok (buf ++ (decimal data.length ++ [separator])) := by
    refine writeBuffer_ok _ _ ?_
    rw [List.length_append, List.length_singleton]
    omega
  have body : writeBufferSize (buf ++ (decimal data.length ++ [separator])) data data.length =
      .ok (buf ++ (decimal data.length ++ [separator]) ++ data) := by
    refine writeBufferSize_ok _ _ ?_
    simp only [List.length_append, List.length_singleton]
    omega
  rw [size]
  calc
    _ = .ok (buf ++ (decimal data.length ++ [separator]) ++ data) := body
    _ = _ := by simp [sizedEncoding]

theorem encodeBytes_ok (buf x : Bytes) (sized : x.length < 2 ^ 31)
    (fits : buf.length + (sizedEncoding 47 x).length < 2 ^ 32) :
    encodeBytes buf x = .ok (buf ++ sizedEncoding 47 x) := by
  rw [encodeBytes]
  simp only [cInt_of_lt _ sized]
  exact write_sized buf x 47 fits

theorem encodeStr_ok (buf x : Bytes) (sized : x.length < 2 ^ 31)
    (fits : buf.length + (strEncoding x).length < 2 ^ 32) :
    encodeStr buf x = .ok (buf ++ strEncoding x) := by
  rw [encodeStr]
  simp only [cInt_of_lt _ sized]
  unfold strEncoding at fits ⊢
  by_cases inline : x.length < 64
  · have code : UInt8.ofInt ((STR_FIXED_START : Int) + x.length) = UInt8.ofNat (128 + x.length) := by
      rw [UInt8.ofInt]
      congr 1
      simp only [STR_FIXED_START]
      omega
    have size : (x.length : Int) < STR_FIXED_COUNT := Int.ofNat_lt.mpr inline
    rw [if_pos inline] at fits ⊢
    rw [if_pos size, code]
    have whole : writeBufferSize (buf ++ [UInt8.ofNat (128 + x.length)]) x x.length =
        .ok (buf ++ [UInt8.ofNat (128 + x.length)] ++ x) := by
      refine writeBufferSize_ok _ _ ?_
      simp only [List.length_append, List.length_cons, List.length_nil] at fits ⊢
      omega
    have room : buf.length + (x.length + 1) < 2 ^ 32 := fits
    rw [writeBufferChar_ok buf _ (by omega)]
    calc
      _ = .ok (buf ++ [UInt8.ofNat (128 + x.length)] ++ x) := whole
      _ = _ := by rw [List.append_assoc, List.singleton_append]
  · have size : ¬((x.length : Int) < STR_FIXED_COUNT) := fun small => inline (Int.ofNat_lt.mp small)
    rw [if_neg inline] at fits ⊢
    rw [if_neg size]
    exact write_sized buf x 58 fits

/-- What is written for a value goes after what the buffer holds. -/
def Writes (bigEndian : Bool) (v : PyVal) : Prop :=
  Encodable v → Sized v → ∀ buf : Bytes, buf.length + (encoding v).length < 2 ^ 32 →
    encode bigEndian buf v = .ok (buf ++ encoding v)

theorem encodeItems_ok (bigEndian : Bool) (items : List PyVal)
    (each : ∀ item ∈ items, Writes bigEndian item) (encodable : EncodableItems items)
    (sized : SizedItems items) (buf : Bytes)
    (fits : buf.length + (encodingItems items).length < 2 ^ 32) :
    encodeItems bigEndian buf items = .ok (buf ++ encodingItems items) := by
  induction items generalizing buf with
  | nil => simp [encodeItems, encodingItems]
  | cons item items ih =>
      obtain ⟨first, others⟩ := List.forall_mem_cons.mp each
      simp only [encodingItems, List.length_append] at fits ⊢
      have head := first encodable.1 sized.1 buf (by omega)
      have tail := ih others encodable.2 sized.2 (buf ++ encoding item)
        (by rw [List.length_append]; omega)
      simp only [encodeItems, head, bind, Except.bind, tail, List.append_assoc]

theorem encodeEntries_ok (bigEndian : Bool) (entries : List (PyVal × PyVal))
    (each : ∀ entry ∈ entries, Writes bigEndian entry.1 ∧ Writes bigEndian entry.2)
    (encodable : EncodableEntries entries) (sized : SizedEntries entries) (buf : Bytes)
    (fits : buf.length + (encodingEntries entries).length < 2 ^ 32) :
    encodeEntries bigEndian buf entries = .ok (buf ++ encodingEntries entries) := by
  induction entries generalizing buf with
  | nil => simp [encodeEntries, encodingEntries]
  | cons entry entries ih =>
      obtain ⟨k, v⟩ := entry
      obtain ⟨⟨writesKey, writesValue⟩, others⟩ := List.forall_mem_cons.mp each
      dsimp only at writesKey writesValue
      simp only [encodingEntries, encodingEntry, List.length_append] at fits ⊢
      have key := writesKey encodable.1.1 sized.1.1 buf (by omega)
      have value := writesValue encodable.1.2.2 sized.1.2 (buf ++ encoding k)
        (by rw [List.length_append]; omega)
      have tail := ih others encodable.2 sized.2 (buf ++ encoding k ++ encoding v)
        (by simp only [List.length_append]; omega)
      simp only [List.append_assoc] at tail
      simp only [encodeEntries, encodeEntry, key, bind, Except.bind, value, tail,
        List.append_assoc]

/-- A container whose members are written as they should be. -/
theorem write_container (buf members : Bytes) (write : Bytes → Except Exn Bytes)
    (start limit : Nat) (code : UInt8) (size : Nat)
    (written : ∀ buf : Bytes, buf.length + members.length < 2 ^ 32 →
      write buf = .ok (buf ++ members))
    (fits : buf.length + (containerEncoding start limit code size members).length < 2 ^ 32) :
    (if size < limit then
        writeBufferChar buf (UInt8.ofNat (start + size)) >>= write
      else
        writeBufferChar buf code >>= fun buf => write buf >>= fun buf =>
          writeBufferChar buf 127) =
      .ok (buf ++ containerEncoding start limit code size members) := by
  unfold containerEncoding at fits ⊢
  by_cases inline : size < limit
  · simp only [if_pos inline, List.length_cons] at fits ⊢
    have inside := written (buf ++ [UInt8.ofNat (start + size)])
      (by simp only [List.length_append, List.length_singleton]; omega)
    rw [writeBufferChar_ok buf _ (by omega)]
    simp only [bind, Except.bind, inside, List.append_assoc, List.singleton_append]
  · simp only [if_neg inline, List.length_cons, List.length_append, List.length_nil] at fits ⊢
    have inside := written (buf ++ [code])
      (by simp only [List.length_append, List.length_singleton]; omega)
    have term := writeBufferChar_ok (buf ++ [code] ++ members) 127
      (by simp only [List.length_append, List.length_singleton]; omega)
    rw [writeBufferChar_ok buf _ (by omega)]
    simp only [bind, Except.bind, inside, term]
    simp

theorem encode_ok (bigEndian : Bool) (v : PyVal) : Writes bigEndian v := by
  induction v using value_induction with
  | none =>
      intro _ _ buf fits
      simp only [encode]
      exact writeBufferChar_ok buf 69 fits
  | bool value =>
      intro _ _ buf fits
      simp only [encode, encodeBool, encoding]
      cases value with
      | true => exact writeBufferChar_ok buf 67 fits
      | false => exact writeBufferChar_ok buf 68 fits
  | int data =>
      intro encodable _ buf fits
      simp only [encode, encoding] at fits ⊢
      exact encodeInteger_ok bigEndian buf data encodable fits
  | float bits =>
      intro _ _ buf fits
      simp only [encode, encoding] at fits ⊢
      exact encodeFloat64_ok bigEndian buf bits (by rwa [List.length_cons, encodeBE_length] at fits)
  | bytes data =>
      intro _ sized buf fits
      simp only [encode, encoding] at fits ⊢
      exact encodeBytes_ok buf data sized fits
  | memoryview data =>
      intro _ sized buf fits
      simp only [encode, encoding] at fits ⊢
      exact encodeBytes_ok buf data sized fits
  | str text =>
      intro _ sized buf fits
      simp only [encode, encoding] at fits ⊢
      exact encodeStr_ok buf (utf8 text) sized fits
  | list items each =>
      intro encodable sized buf fits
      simp only [encode, encoding] at fits ⊢
      exact write_container buf _ (fun buf => encodeItems bigEndian buf items) 192 64 59
        items.length (encodeItems_ok bigEndian items each encodable sized) fits
  | tuple items each =>
      intro encodable sized buf fits
      simp only [encode, encoding] at fits ⊢
      exact write_container buf _ (fun buf => encodeItems bigEndian buf items) 192 64 59
        items.length (encodeItems_ok bigEndian items each encodable sized) fits
  | dict entries each =>
      intro encodable sized buf fits
      simp only [encode, encoding] at fits ⊢
      exact write_container buf _ (fun buf => encodeEntries bigEndian buf entries) 102 25 60
        entries.length (encodeEntries_ok bigEndian entries each encodable.1 sized) fits

/-- The encoder writes the format of every value that fits. -/
theorem dumps_ok (bigEndian : Bool) (v : PyVal) (encodable : Encodable v) (sized : Sized v)
    (fits : (encoding v).length < 2 ^ 32) : dumps bigEndian v = .ok (encoding v) :=
  encode_ok bigEndian v encodable sized [] (by rwa [List.length_nil, Nat.zero_add])

end Catlink.Rencodeplus
