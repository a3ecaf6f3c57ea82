import Catlink.Net.WebSocket

/-! The mask of a frame runs over its whole payload; the items sent are masked one by one. -/

namespace Catlink.WebSocket

open BigEndian

/-! ### The mask, byte by byte -/

/-- Data with its mask, when `k` bytes stand before it. -/
def masked (mask : Bytes) : Nat → Bytes → Bytes
  | _, [] => []
  | k, b :: data => (b ^^^ mask.getD (k % 4) 0) :: masked mask (k + 1) data

@[simp] theorem masked_length (mask : Bytes) (k : Nat) (data : Bytes) :
    (masked mask k data).length = data.length := by
  induction data generalizing k with
  | nil => rfl
  | cons b data ih => simp [masked, ih]

theorem masked_append (mask : Bytes) (k : Nat) (data data' : Bytes) :
    masked mask k (data ++ data') = masked mask k data ++ masked mask (k + data.length) data' := by
  induction data generalizing k with
  | nil => rfl
  | cons b data ih =>
      simp only [List.cons_append, masked, List.length_cons, ih]
      rw [show k + 1 + data.length = k + (data.length + 1) by omega]

/-- Only the phase counts. -/
theorem masked_mod (mask : Bytes) {k k' : Nat} (same : k % 4 = k' % 4) (data : Bytes) :
    masked mask k data = masked mask k' data := by
  induction data generalizing k k' with
  | nil => rfl
  | cons b data ih =>
      have next : (k + 1) % 4 = (k' + 1) % 4 := by omega
      rw [masked, masked, same, ih next]

@[simp] theorem masked_masked (mask : Bytes) (k : Nat) (data : Bytes) :
    masked mask k (masked mask k data) = data := by
  induction data generalizing k with
  | nil => rfl
  | cons b data ih =>
      rw [masked, masked, ih, UInt8.xor_assoc, UInt8.xor_self, UInt8.xor_zero]

theorem maskByte_eq (mask data : Bytes) (i : Nat) :
    maskByte mask data i = data.getD i 0 ^^^ mask.getD (i % 4) 0 := by
  rw [maskByte, show i &&& 0x3 = i % 4 from Nat.and_two_pow_sub_one_eq_mod i 2]

/-- Bytes masked one at a time. -/
theorem map_maskByte (mask data : Bytes) (k n : Nat) (inside : k + n ≤ data.length) :
    (List.range n).map (fun i => maskByte mask data (k + i)) = masked mask k ((data.drop k).take n) := by
  induction n with
  | zero => simp [masked]
  | succ n ih =>
      have one : (data.drop k).take (n + 1) = (data.drop k).take n ++ [data.getD (k + n) 0] := by
        rw [List.take_add_one, List.getElem?_drop, List.getElem?_eq_getElem (by omega),
          List.getD_eq_getElem _ _ (by omega), Option.toList_some]
      have length : ((data.drop k).take n).length = n := by
        rw [List.length_take, List.length_drop]
        omega
      rw [List.range_succ, List.map_append, ih (by omega), one, masked_append, length]
      simp [masked, maskByte_eq]

/-! ### Words -/

theorem decodeBE_xor {as bs : Bytes} (same : as.length = bs.length) :
    decodeBE as ^^^ decodeBE bs = decodeBE (List.zipWith (· ^^^ ·) as bs) := by
  induction as generalizing bs with
  | nil =>
      cases bs with
      | nil => rfl
      | cons b bs => cases same
  | cons a as ih =>
      cases bs with
      | nil => cases same
      | cons b bs =>
          have length : as.length = bs.length := Nat.succ.inj same
          have low := decodeBE_lt as
          have low' := decodeBE_lt bs
          have low'' := decodeBE_lt (List.zipWith (· ^^^ ·) as bs)
          simp only [List.zipWith_cons_cons, decodeBE, List.length_zipWith, ← length, Nat.min_self,
            UInt8.toNat_xor] at low'' ⊢
          rw [← length] at low'
          rw [← ih length] at low'' ⊢
          have power : 256 ^ as.length = 2 ^ (8 * as.length) := by
            rw [pow_mul]
            norm_num
          rw [power] at low low' low'' ⊢
          apply Nat.eq_of_testBit_eq
          intro j
          rw [Nat.testBit_xor, Nat.mul_comm a.toNat, Nat.mul_comm b.toNat,
            Nat.mul_comm (a.toNat ^^^ b.toNat), Nat.testBit_two_pow_mul_add _ low,
            Nat.testBit_two_pow_mul_add _ low', Nat.testBit_two_pow_mul_add _ low'']
          split <;> rw [Nat.testBit_xor]

/-- A word with its mask is its bytes with theirs. -/
theorem store_xor (data mask : Bytes) (same : data.length = mask.length) :
    store false data.length (load false data ^^^ load false mask) = List.zipWith (· ^^^ ·) data mask := by
  have length : data.reverse.length = mask.reverse.length := by simpa using same
  have whole := encodeBE_decodeBE (List.zipWith (· ^^^ ·) data.reverse mask.reverse)
  rw [← decodeBE_xor length] at whole
  simp only [List.length_zipWith, List.length_reverse, ← same, Nat.min_self] at whole
  simp only [store, load, Bool.false_eq_true, if_false]
  rw [whole, ← List.reverse_zipWith same, List.reverse_reverse]

theorem maskValue_eq (mask : Bytes) (k : Nat) :
    maskValue mask k = load false ((List.range 4).map fun i => mask.getD ((k + i) % 4) 0) := by
  have phase : ∀ n, n &&& 0x3 = n % 4 := fun n => Nat.and_two_pow_sub_one_eq_mod n 2
  simp only [maskValue, load, List.range_succ, List.range_zero, List.nil_append, List.foldl_cons,
    List.foldl_nil, List.map_cons, List.map_nil, Bool.false_eq_true, if_false, List.reverse_cons,
    List.reverse_nil, phase, List.cons_append, decodeBE, Nat.shiftLeft_eq, List.length_cons,
    List.length_nil]
  rw [Nat.add_comm k 3, Nat.add_comm k 2, Nat.add_comm k 1, Nat.add_comm k 0]
  simp only [Nat.sub_zero, Nat.reduceSub, Nat.zero_add, Nat.zero_mul]
  ring

theorem word_masked (mask : Bytes) (k : Nat) {data : Bytes} (four : data.length = 4) :
    store false 4 (load false data ^^^ maskValue mask k) = masked mask k data := by
  obtain ⟨a, b, c, d, rfl⟩ : ∃ a b c d, data = [a, b, c, d] := by
    match data, four with
    | [a, b, c, d], _ => exact ⟨a, b, c, d, rfl⟩
  rw [maskValue_eq]
  exact store_xor [a, b, c, d] _ (by simp)

theorem words_masked (mask data : Bytes) (k steps : Nat) (inside : k + 4 * steps ≤ data.length) :
    ((List.range steps).flatMap fun i =>
      store false 4 (load false ((data.drop (k + 4 * i)).take 4) ^^^ maskValue mask k)) =
      masked mask k ((data.drop k).take (4 * steps)) := by
  induction steps with
  | zero => simp [masked]
  | succ steps ih =>
      have four : ((data.drop (k + 4 * steps)).take 4).length = 4 := by
        rw [List.length_take, List.length_drop]
        omega
      have length : ((data.drop k).take (4 * steps)).length = 4 * steps := by
        rw [List.length_take, List.length_drop]
        omega
      rw [List.range_succ, List.flatMap_append, ih (by omega), Nat.mul_succ, List.take_add,
        List.drop_drop, masked_append, length, List.flatMap_singleton, word_masked mask k four]
      rw [masked_mod mask (by omega : (k + 4 * steps) % 4 = k % 4)]

/-- However the data is aligned, every byte gets the mask of its position. -/
theorem doHybiMask_eq (align : Fin 4) (mask data : Bytes) :
    doHybiMask align mask data =
      if data.length > MAX_WEBSOCKET_PAYLOAD then
        .error (.valueError s!"data too large: {data.length} bytes")
      else .ok (masked mask 0 data) := by
  unfold doHybiMask
  dsimp only
  split
  · rfl
  have bytes := map_maskByte mask data 0 (min (4 - align.val) data.length) (by omega)
  simp only [Nat.zero_add, List.drop_zero] at bytes
  have first : (List.range (min (4 - align.val) data.length)).map (maskByte mask data) =
      masked mask 0 (data.take (4 - align.val)) := by
    rw [← List.take_eq_take_min] at bytes
    exact bytes
  rw [first]
  split
  · rename_i more
    generalize initial : 4 - align.val = k at more
    have words := words_masked mask data k ((data.length - k) / 4) (by omega)
    rw [words]
    have remainder : (data.length - k) &&& 0x3 = (data.length - k) % 4 :=
      Nat.and_two_pow_sub_one_eq_mod _ 2
    rw [remainder]
    have last := map_maskByte mask data (data.length - (data.length - k) % 4) ((data.length - k) % 4)
      (by omega)
    rw [last]
    have parts : data = data.take k ++ ((data.drop k).take (4 * ((data.length - k) / 4)) ++
        (data.drop (data.length - (data.length - k) % 4)).take ((data.length - k) % 4)) := by
      have rest : (data.drop k).drop (4 * ((data.length - k) / 4)) =
          (data.drop (data.length - (data.length - k) % 4)).take ((data.length - k) % 4) := by
        rw [List.drop_drop, List.take_of_length_le (by rw [List.length_drop]; omega)]
        congr 1
        omega
      rw [← rest, List.take_append_drop, List.take_append_drop]
    congr 1
    conv_rhs => rw [parts, masked_append, masked_append]
    have lengthFirst : (data.take k).length = k := by
      rw [List.length_take]
      omega
    have lengthWords : ((data.drop k).take (4 * ((data.length - k) / 4))).length =
        4 * ((data.length - k) / 4) := by
      rw [List.length_take, List.length_drop]
      omega
    rw [lengthFirst, lengthWords, List.append_assoc]
    simp only [Nat.zero_add]
    rw [show data.length - (data.length - k) % 4 = k + 4 * ((data.length - k) / 4) by omega]
  · rename_i few
    rw [List.take_of_length_le (by omega)]

/-! ### Frames -/

/-- What the second byte says of the length, and the bytes of the extended length. -/
inductive LengthForm (length : Nat) : Nat → Bytes → Prop
  | short (fits : length ≤ 125) : LengthForm length length []
  | medium (fits : length < 65536) : LengthForm length 126 (encodeBE 2 length)
  | long (fits : length < 2 ^ 64) : LengthForm length 127 (encodeBE 8 length)

/-- The bytes of a header, as `decode_hybi` reads them. -/
structure HeaderBytes (opcode payloadLen : Nat) (hasMask fin : Bool) (b1 b2 : UInt8) (ext : Bytes) :
    Prop where
  code : b1.toNat &&& 0x0f = opcode
  final : decide (b1.toNat &&& 0x80 ≠ 0) = fin
  mask : decide (b2.toNat &&& 0x80 ≠ 0) = hasMask
  length : LengthForm payloadLen (b2.toNat &&& 0x7f) ext

theorem first_byte : ∀ opcode < 16, ∀ fin : Bool,
    (UInt8.ofNat (opcode ||| if fin then 0x80 else 0)).toNat &&& 0x0f = opcode ∧
      decide ((UInt8.ofNat (opcode ||| if fin then 0x80 else 0)).toNat &&& 0x80 ≠ 0) = fin := by
  decide

theorem second_byte : ∀ n < 128, ∀ hasMask : Bool,
    (UInt8.ofNat (n ||| if hasMask then 0x80 else 0)).toNat &&& 0x7f = n ∧
      decide ((UInt8.ofNat (n ||| if hasMask then 0x80 else 0)).toNat &&& 0x80 ≠ 0) = hasMask := by
  decide

theorem encodeHybiHeader_ok {opcode payloadLen : Nat} {hasMask fin : Bool} {header : Bytes}
    (encoded : encodeHybiHeader opcode payloadLen hasMask fin = .ok header) :
    ∃ b1 b2 ext, header = b1 :: b2 :: ext ∧ HeaderBytes opcode payloadLen hasMask fin b1 b2 ext := by
  unfold encodeHybiHeader at encoded
  split at encoded
  · cases encoded
  rename_i valid
  have small : opcode < 16 := by
    have mod : opcode &&& 0x0f = opcode % 16 := Nat.and_two_pow_sub_one_eq_mod opcode 4
    rw [not_not, mod] at valid
    omega
  obtain ⟨code, final⟩ := first_byte opcode small fin
  dsimp only at encoded
  split at encoded
  · rename_i fits
    obtain ⟨low, mask⟩ := second_byte payloadLen (by omega) hasMask
    cases encoded
    exact ⟨_, _, [], rfl, code, final, mask, by rw [low]; exact .short fits⟩
  split at encoded
  · rename_i fits
    obtain ⟨low, mask⟩ := second_byte 126 (by omega) hasMask
    cases encoded
    exact ⟨_, _, _, rfl, code, final, mask, by rw [low]; exact .medium fits⟩
  split at encoded
  · rename_i fits
    obtain ⟨low, mask⟩ := second_byte 127 (by omega) hasMask
    cases encoded
    exact ⟨_, _, _, rfl, code, final, mask, by rw [low]; exact .long fits⟩
  · cases encoded

theorem hybiLengths_ok {length low : Nat} {ext : Bytes} (form : LengthForm length low ext)
    (b1 b2 : UInt8) (hasMask : Bool) (rest : Bytes) (enough : (if hasMask then 4 else 0) ≤ rest.length) :
    hybiLengths (b1 :: b2 :: (ext ++ rest)) hasMask low =
      some (2 + ext.length + (if hasMask then 4 else 0), length) := by
  have hlen : (if hasMask = true then 6 else 2) = 2 + if hasMask then 4 else 0 := by
    cases hasMask <;> rfl
  unfold hybiLengths
  simp only [hlen, List.length_cons, List.length_append, List.drop_succ_cons, List.drop_zero]
  rw [if_neg (by omega)]
  cases form with
  | short fits =>
      rw [if_neg (by omega), if_neg (by omega)]
      rfl
  | medium fits =>
      rw [if_pos rfl, encodeBE_length, if_neg (by omega),
        List.take_left' (encodeBE_length 2 length), decodeBE_encodeBE 2 length fits]
      congr 2
      omega
  | long fits =>
      rw [if_neg (by omega), if_pos rfl, encodeBE_length, if_neg (by omega),
        List.take_left' (encodeBE_length 8 length), decodeBE_encodeBE 8 length fits]
      congr 2
      omega

/-- What is made of a whole frame; its payload is there with its mask, if it has one. -/
def opened (opcode : Nat) (fin : Bool) (mask data : Bytes) (length : Nat) : Except Exn (Option Frame) :=
  if mask = [] then .ok (some ⟨opcode, data, length, fin⟩)
  else if data.length > MAX_WEBSOCKET_PAYLOAD then
    .error (.valueError s!"data too large: {data.length} bytes")
  else .ok (some ⟨opcode, masked mask 0 data, length, fin⟩)

theorem decodeHybi_frame (align : Fin 4) (mask : Bytes) {opcode : Nat} {hasMask fin : Bool}
    {header data : Bytes}
    (encoded : encodeHybiHeader opcode data.length hasMask fin = .ok header)
    (maskLength : mask.length = if hasMask then 4 else 0) (rest : Bytes) :
    decodeHybi align (header ++ mask ++ data ++ rest) =
      opened opcode fin mask data (header ++ mask ++ data).length := by
  obtain ⟨b1, b2, ext, rfl, bytes⟩ := encodeHybiHeader_ok encoded
  have lengths := hybiLengths_ok bytes.length b1 b2 hasMask (mask ++ data ++ rest)
    (by simp only [List.length_append, maskLength]; omega)
  have whole : b1 :: b2 :: ext ++ mask ++ data ++ rest = b1 :: b2 :: (ext ++ (mask ++ data ++ rest)) := by
    simp
  rw [whole]
  unfold decodeHybi
  simp only [bytes.mask, bytes.final, bytes.code, lengths]
  rw [if_neg (by simp only [List.length_cons, List.length_append]; omega)]
  cases hasMask with
  | false =>
      have none : mask = [] := List.eq_nil_of_length_eq_zero maskLength
      subst none
      have payload : ((b1 :: b2 :: (ext ++ ([] ++ data ++ rest))).drop (2 + ext.length)).take data.length =
          data := by
        rw [show 2 + ext.length = ext.length + 1 + 1 by omega, List.drop_succ_cons,
          List.drop_succ_cons, List.drop_left' rfl, List.nil_append, List.take_left' rfl]
      simp only [opened, if_true, Bool.false_eq_true, if_false, Nat.add_zero, payload]
      congr 3
      simp only [List.length_cons, List.length_append, List.length_nil]
      omega
  | true =>
      have four : mask.length = 4 := maskLength
      have there : mask ≠ [] := by
        intro none
        rw [none] at four
        cases four
      simp only [if_true, hybiUnmask]
      rw [show 2 + ext.length + 4 - 4 = ext.length + 1 + 1 by omega]
      have key : ((b1 :: b2 :: (ext ++ (mask ++ data ++ rest))).drop (ext.length + 1 + 1)).take 4 = mask := by
        rw [List.drop_succ_cons, List.drop_succ_cons, List.drop_left' rfl, List.append_assoc,
          List.take_left' four]
      have payload : ((b1 :: b2 :: (ext ++ (mask ++ data ++ rest))).drop (ext.length + 1 + 1 + 4)).take
          data.length = data := by
        rw [show ext.length + 1 + 1 + 4 = ext.length + 4 + 1 + 1 by omega, List.drop_succ_cons,
          List.drop_succ_cons, ← List.drop_drop, List.drop_left' rfl, List.append_assoc,
          List.drop_left' four, List.take_left' rfl]
      have enough : ¬(b1 :: b2 :: (ext ++ (mask ++ data ++ rest))).length <
          (ext.length + 1 + 1 + 4 + data.length) % 2 ^ 32 := by
        have least := Nat.mod_le (ext.length + 1 + 1 + 4 + data.length) (2 ^ 32)
        simp only [List.length_cons, List.length_append]
        omega
      rw [if_neg enough, key, payload, doHybiMask_eq]
      unfold opened
      rw [if_neg there]
      by_cases large : data.length > MAX_WEBSOCKET_PAYLOAD
      · rw [if_pos large, if_pos large]
        rfl
      · rw [if_neg large, if_neg large]
        simp only [bind, Except.bind]
        congr 3
        simp only [List.length_cons, List.length_append]
        omega

/-! ### Items masked one by one -/

/-- Every item starts at a multiple of four, when `k` bytes stand before them. -/
def InPhase : Nat → List Bytes → Prop
  | _, [] => True
  | k, item :: items => k % 4 = 0 ∧ InPhase (k + item.length) items

theorem sum_length_flatten (items : List Bytes) : (items.map List.length).sum = items.flatten.length := by
  rw [List.length_flatten]

theorem maskItems_ok {mask : Bytes} {aligns : List (Fin 4)} {items items' : List Bytes}
    (sent : maskItems mask aligns items = .ok items') :
    items' = items.map (masked mask 0) ∧ [] ∉ items := by
  induction items generalizing aligns items' with
  | nil =>
      cases sent
      exact ⟨rfl, List.not_mem_nil⟩
  | cons item items ih =>
      obtain ⟨first, one, sent⟩ := ok_of_bind sent
      obtain ⟨others, rest, sent⟩ := ok_of_bind sent
      cases sent
      unfold hybiMask at one
      split at one
      · cases one
      split at one
      · cases one
      · rename_i filled
        rw [doHybiMask_eq] at one
        split at one
        · cases one
        · cases one
          obtain ⟨same, others⟩ := ih rest
          rw [List.map_cons, same, List.mem_cons, not_or]
          exact ⟨rfl, Ne.symm filled, others⟩

theorem maskItems_sends {mask : Bytes} (four : mask.length = 4) (aligns : List (Fin 4))
    {items : List Bytes} (small : items.flatten.length ≤ MAX_WEBSOCKET_PAYLOAD) (filled : [] ∉ items) :
    maskItems mask aligns items = .ok (items.map (masked mask 0)) := by
  induction items generalizing aligns with
  | nil => rfl
  | cons item items ih =>
      rw [List.flatten_cons, List.length_append] at small
      rw [List.mem_cons, not_or] at filled
      rw [maskItems, hybiMask, if_neg (by omega), if_neg (Ne.symm filled.1), doHybiMask_eq,
        if_neg (by omega), ih _ (by omega) filled.2]
      rfl

theorem flatten_masked_length (mask : Bytes) (items : List Bytes) :
    (items.map (masked mask 0)).flatten.length = items.flatten.length := by
  induction items with
  | nil => rfl
  | cons item items ih => simp [ih]

/-- In phase, the masks of the items make one mask. -/
theorem InPhase.flatten (mask : Bytes) {k : Nat} {items : List Bytes} (inPhase : InPhase k items) :
    (items.map (masked mask 0)).flatten = masked mask k items.flatten := by
  induction items generalizing k with
  | nil => rfl
  | cons item items ih =>
      obtain ⟨first, rest⟩ := inPhase
      rw [List.map_cons, List.flatten_cons, List.flatten_cons, masked_append, ih rest]
      congr 1
      apply masked_mod
      omega

theorem mask_start : ∀ p < 4, (1 : UInt8) ^^^ ([1, 0, 0, 0] : Bytes).getD p 0 = 0 → p = 0 := by
  decide

/-- A mask that shows where it starts. -/
theorem inPhase_of_unmasked {k : Nat} {items : List Bytes} (filled : [] ∉ items)
    (same : masked [1, 0, 0, 0] k (items.map (masked [1, 0, 0, 0] 0)).flatten = items.flatten) :
    InPhase k items := by
  induction items generalizing k with
  | nil => trivial
  | cons item items ih =>
      rw [List.map_cons, List.flatten_cons, List.flatten_cons, masked_append, masked_length] at same
      obtain ⟨first, rest⟩ := List.append_inj same (by rw [masked_length, masked_length])
      rw [List.mem_cons, not_or] at filled
      constructor
      · cases item with
        | nil => exact absurd rfl filled.1
        | cons b item =>
            simp only [masked, List.cons.injEq, UInt8.xor_assoc] at first
            have key : (1 : UInt8) ^^^ ([1, 0, 0, 0] : Bytes).getD (k % 4) 0 = 0 := by
              have cancel := congrArg (b ^^^ ·) first.1
              simp only [← UInt8.xor_assoc, UInt8.xor_self, UInt8.zero_xor] at cancel
              simpa using cancel
            exact mask_start (k % 4) (Nat.mod_lt _ (by decide)) key
      · exact ih filled.2 rest

/-- What the frame builder makes of the items decodes to their concatenation, with any mask and
wherever the data is in memory. -/
def SendsRight (items : List Bytes) : Prop :=
  ∀ (urandom : Bytes) (aligns : List (Fin 4)) (align : Fin 4), urandom.length = 4 →
    ∃ header items' frame, makeWsframeHeader true urandom aligns items = .ok (header, items') ∧
      decodeHybi align (header ++ items'.flatten) = .ok (some frame) ∧ frame.payload = items.flatten

theorem makeWsframeHeader_ok {urandom : Bytes} {aligns : List (Fin 4)} {items items' : List Bytes}
    {header : Bytes} (made : makeWsframeHeader true urandom aligns items = .ok (header, items')) :
    ∃ plain, encodeHybiHeader OPCODE_BINARY items.flatten.length true true = .ok plain ∧
      header = plain ++ urandom ∧ items' = items.map (masked urandom 0) ∧ [] ∉ items := by
  obtain ⟨plain, encoded, made⟩ := ok_of_bind made
  obtain ⟨sent, masks, made⟩ := ok_of_bind made
  cases made
  rw [sum_length_flatten] at encoded
  exact ⟨plain, encoded, rfl, maskItems_ok masks⟩

theorem encodeHybiHeader_binary {n : Nat} (small : n ≤ MAX_WEBSOCKET_PAYLOAD) :
    ∃ header, encodeHybiHeader OPCODE_BINARY n true true = .ok header := by
  have limit : MAX_WEBSOCKET_PAYLOAD < 2 ^ 64 := by decide
  unfold encodeHybiHeader
  rw [if_neg (by decide)]
  dsimp only
  split
  · exact ⟨_, rfl⟩
  split
  · exact ⟨_, rfl⟩
  · rw [if_pos (Nat.lt_of_le_of_lt small limit)]
    exact ⟨_, rfl⟩

theorem SendsRight.inPhase {items : List Bytes} (right : SendsRight items) :
    items.flatten.length ≤ MAX_WEBSOCKET_PAYLOAD ∧ [] ∉ items ∧ InPhase 0 items := by
  obtain ⟨header, items', frame, made, decoded, payload⟩ := right [1, 0, 0, 0] [] 0 rfl
  obtain ⟨plain, encoded, rfl, rfl, filled⟩ := makeWsframeHeader_ok made
  rw [← flatten_masked_length [1, 0, 0, 0]] at encoded
  have whole := decodeHybi_frame 0 [1, 0, 0, 0] encoded rfl []
  rw [List.append_nil, decoded] at whole
  unfold opened at whole
  rw [if_neg (List.cons_ne_nil _ _), flatten_masked_length] at whole
  split at whole
  · cases whole
  · rename_i small
    cases whole
    exact ⟨Nat.not_lt.mp small, filled, inPhase_of_unmasked filled payload⟩

theorem frame_round_trip (items : List Bytes) :
    SendsRight items ↔
      items.flatten.length ≤ MAX_WEBSOCKET_PAYLOAD ∧ [] ∉ items ∧ InPhase 0 items := by
  constructor
  · exact SendsRight.inPhase
  · rintro ⟨small, filled, inPhase⟩ urandom aligns align four
    obtain ⟨plain, encoded⟩ := encodeHybiHeader_binary small
    have made : makeWsframeHeader true urandom aligns items =
        .ok (plain ++ urandom, items.map (masked urandom 0)) := by
      rw [makeWsframeHeader, sum_length_flatten, encoded, maskItems_sends four aligns small filled]
      rfl
    rw [← flatten_masked_length urandom] at encoded
    have whole := decodeHybi_frame align urandom encoded four []
    rw [List.append_nil] at whole
    unfold opened at whole
    have there : urandom ≠ [] := by
      intro none
      rw [none] at four
      cases four
    rw [if_neg there, flatten_masked_length, if_neg (Nat.not_lt.mpr small)] at whole
    refine ⟨_, _, _, made, whole, ?_⟩
    dsimp only
    rw [inPhase.flatten urandom, masked_masked]

/-- The second item is masked from the start of the mask, and unmasked from its second byte. -/
theorem not_frame_round_trip : ¬∀ items : List Bytes, SendsRight items := by
  intro right
  obtain ⟨_, _, _, second, _⟩ := (right [[0x50], [0x60, 0x70]]).inPhase
  cases second

end Catlink.WebSocket
