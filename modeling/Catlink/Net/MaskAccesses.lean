import Catlink.Lib.Accesses
import Catlink.Net.WebSocketMask

/-! What `do_hybi_mask` reads from the payload and writes to its output buffer. -/

namespace Catlink.WebSocket

open Accesses BigEndian

/-! ### The loops of do_hybi_mask -/

/-- The bytes of memory, by address. -/
abbrev Memory := Nat → UInt8

def bytesAt (memory : Memory) (address count : Nat) : Bytes :=
  (List.range count).map fun k => memory (address + k)

/-- `ocbuf[align + j] = dcbuf[j] ^ mcbuf[j & 0x3]` -/
def byteAccess (memory : Memory) (mp dp align j : Nat) : Access UInt8 :=
  ⟨[j], align + j, memory (dp + j) ^^^ memory (mp + (j &&& 0x3))⟩

/-- `obuf[i] = dbuf[i] ^ mask_value`, of 32-bit words on a little-endian machine. -/
def wordAccesses (memory : Memory) (mp dp align initialChars i : Nat) : List (Access UInt8) :=
  let first := initialChars + 4 * i
  let word := load false (bytesAt memory (dp + first) 4) ^^^
    maskValue (bytesAt memory mp 4) initialChars
  (List.range 4).map fun k =>
    ⟨(List.range 4).map (first + ·), align + first + k, (store false 4 word).getD k 0⟩

/-- Reads are indices of the payload at `dp`, writes are indices of `out_buf`. The mask is the four
bytes at `mp`. -/
def doHybiMaskAt (memory : Memory) (mp dp datalen : Nat) : Except Exn (List (Access UInt8)) :=
  if datalen > MAX_WEBSOCKET_PAYLOAD then .error (.valueError s!"data too large: {datalen} bytes")
  else
    let align := dp &&& 0x3
    let initialChars := 4 - align
    let first := (List.range initialChars).map (byteAccess memory mp dp align)
    if datalen > initialChars then
      let steps := (datalen - initialChars) / 4
      let words := (List.range steps).flatMap (wordAccesses memory mp dp align initialChars)
      let lastChars := (datalen - initialChars) &&& 0x3
      let last := (List.range lastChars).map fun i =>
        byteAccess memory mp dp align (datalen - lastChars + i)
      .ok (first ++ words ++ last)
    else .ok first

/-! ### Every byte is masked by its position -/

section Masking

variable (memory : Memory) (mp dp align : Nat)

/-- The byte that an index of `out_buf` should get. -/
def maskedByte (k : Nat) : UInt8 := memory (dp + (k - align)) ^^^ memory (mp + (k - align) % 4)

theorem and_three (n : Nat) : n &&& 0x3 = n % 4 := Nat.and_two_pow_sub_one_eq_mod n 2

theorem byteAccess_value (j : Nat) :
    (byteAccess memory mp dp align j).value = maskedByte memory mp dp align (align + j) := by
  rw [byteAccess, maskedByte, and_three, Nat.add_sub_cancel_left]

theorem bytesAt_getD (address : Nat) {count k : Nat} (inside : k < count) :
    (bytesAt memory address count).getD k 0 = memory (address + k) := by
  rw [bytesAt, List.getD_eq_getElem _ _ (by simpa using inside), List.getElem_map, List.getElem_range]

theorem masked_getD (mask data : Bytes) (phase : Nat) {k : Nat} (inside : k < data.length) :
    (masked mask phase data).getD k 0 = data.getD k 0 ^^^ mask.getD ((phase + k) % 4) 0 := by
  induction data generalizing phase k with
  | nil => cases inside
  | cons b data ih =>
      cases k with
      | zero => rfl
      | succ k =>
          have later := ih (phase + 1) (Nat.lt_of_succ_lt_succ inside)
          rw [masked, List.getD_cons_succ, List.getD_cons_succ, later]
          rw [show phase + 1 + k = phase + (k + 1) by omega]

/-- A word with its mask, byte by byte. -/
theorem wordAccesses_fill (initialChars i : Nat) :
    Fills (maskedByte memory mp dp align) (align + initialChars + 4 * i) 4
      (wordAccesses memory mp dp align initialChars i) := by
  have four : (bytesAt memory (dp + (initialChars + 4 * i)) 4).length = 4 := by simp [bytesAt]
  unfold wordAccesses
  dsimp only
  rw [word_masked _ initialChars four]
  apply fills_map
  · intro k _
    dsimp only
    omega
  · intro k inside
    have phase : (initialChars + k) % 4 < 4 := Nat.mod_lt _ (by decide)
    dsimp only
    rw [masked_getD _ _ _ (by rw [four]; exact inside), bytesAt_getD _ _ inside, bytesAt_getD _ _ phase,
      maskedByte, show align + initialChars + 4 * i + k - align = initialChars + 4 * i + k by omega,
      show (initialChars + 4 * i + k) % 4 = (initialChars + k) % 4 by omega, Nat.add_assoc dp]

/-- With a payload that is no shorter than the first loop, the output is filled exactly. -/
theorem doHybiMaskAt_fills {datalen : Nat} (small : datalen ≤ MAX_WEBSOCKET_PAYLOAD)
    (enough : 4 - (dp &&& 0x3) ≤ datalen) :
    ∃ accesses, doHybiMaskAt memory mp dp datalen = .ok accesses ∧
      Fills (maskedByte memory mp dp (dp &&& 0x3)) (dp &&& 0x3) datalen accesses ∧
        ∀ a ∈ accesses, ∀ i ∈ a.reads, i < datalen := by
  generalize aligned : dp &&& 0x3 = align at enough
  have first : Fills (maskedByte memory mp dp align) align (4 - align)
      ((List.range (4 - align)).map (byteAccess memory mp dp align)) :=
    fills_map (fun _ _ => rfl) fun i _ => byteAccess_value memory mp dp align i
  have firstReads : ∀ a ∈ (List.range (4 - align)).map (byteAccess memory mp dp align),
      ∀ i ∈ a.reads, i < datalen := by
    intro a member i read
    obtain ⟨j, inside, rfl⟩ := List.mem_map.mp member
    obtain rfl := List.mem_singleton.mp read
    have below := List.mem_range.mp inside
    omega
  unfold doHybiMaskAt
  rw [if_neg (Nat.not_lt.mpr small), aligned]
  dsimp only
  split
  · next more =>
      generalize 4 - align = initialChars at first firstReads more
      have words : Fills (maskedByte memory mp dp align) (align + initialChars)
          (4 * ((datalen - initialChars) / 4)) ((List.range ((datalen - initialChars) / 4)).flatMap
            (wordAccesses memory mp dp align initialChars)) :=
        fills_flatMap fun i _ => wordAccesses_fill memory mp dp align initialChars i
      rw [and_three]
      have last : Fills (maskedByte memory mp dp align)
          (align + (initialChars + 4 * ((datalen - initialChars) / 4))) ((datalen - initialChars) % 4)
          ((List.range ((datalen - initialChars) % 4)).map fun i =>
            byteAccess memory mp dp align (datalen - (datalen - initialChars) % 4 + i)) := by
        apply fills_map
        · intro i _
          change align + (datalen - (datalen - initialChars) % 4 + i) = _
          omega
        · intro i _
          rw [byteAccess_value]
          congr 1
          omega
      rw [← Nat.add_assoc] at last
      have all := (first.append words).append (Nat.add_assoc align _ _ ▸ last)
      refine ⟨_, rfl, ?_, ?_⟩
      · have total : initialChars + 4 * ((datalen - initialChars) / 4) +
            (datalen - initialChars) % 4 = datalen := by omega
        rwa [total] at all
      · intro a member i read
        rcases List.mem_append.mp member with before | member
        · rcases List.mem_append.mp before with member | member
          · exact firstReads a member i read
          · obtain ⟨j, turn, member⟩ := List.mem_flatMap.mp member
            obtain ⟨k, -, rfl⟩ := List.mem_map.mp member
            obtain ⟨byte, within, rfl⟩ := List.mem_map.mp read
            have below := List.mem_range.mp turn
            have four := List.mem_range.mp within
            omega
        · obtain ⟨j, turn, rfl⟩ := List.mem_map.mp member
          obtain rfl := List.mem_singleton.mp read
          have below := List.mem_range.mp turn
          omega
  · next few =>
      have same : datalen = 4 - align := by omega
      exact ⟨_, rfl, same ▸ first, firstReads⟩

/-- The first loop is driven by the alignment alone. -/
theorem doHybiMaskAt_short {datalen : Nat} (short : datalen < 4 - (dp &&& 0x3)) :
    doHybiMaskAt memory mp dp datalen =
      .ok ((List.range (4 - (dp &&& 0x3))).map (byteAccess memory mp dp (dp &&& 0x3))) := by
  have limit : ¬ datalen > MAX_WEBSOCKET_PAYLOAD := by
    have few : 4 < MAX_WEBSOCKET_PAYLOAD := by decide
    omega
  rw [doHybiMaskAt, if_neg limit]
  dsimp only
  rw [if_neg (Nat.not_lt.mpr (Nat.le_of_lt short))]

end Masking

@[simp] theorem bytesAt_length (memory : Memory) (address count : Nat) :
    (bytesAt memory address count).length = count := by
  rw [bytesAt, List.length_map, List.length_range]

theorem masked_bytesAt (memory : Memory) (mp dp datalen : Nat) :
    masked (bytesAt memory mp 4) 0 (bytesAt memory dp datalen) =
      (List.range datalen).map fun i => memory (dp + i) ^^^ memory (mp + i % 4) := by
  apply List.ext_getElem
  · rw [masked_length, bytesAt_length, List.length_map, List.length_range]
  · intro i there _
    have inside : i < datalen := by rwa [masked_length, bytesAt_length] at there
    have phase : i % 4 < 4 := Nat.mod_lt _ (by decide)
    rw [← List.getD_eq_getElem _ 0 there, masked_getD _ _ _ (by rwa [bytesAt_length]), Nat.zero_add,
      bytesAt_getD _ _ inside, bytesAt_getD _ _ phase, List.getElem_map, List.getElem_range]

/-- What is returned is a view of `out_buf`, also when more than that was written. -/
theorem doHybiMask_view (memory : Memory) (mp dp datalen : Nat) :
    doHybiMask ⟨dp % 4, Nat.mod_lt _ (by decide)⟩ (bytesAt memory mp 4) (bytesAt memory dp datalen) =
      (doHybiMaskAt memory mp dp datalen).map fun accesses =>
        (List.range datalen).map fun i => (written accesses (dp % 4 + i)).getD 0 := by
  rw [doHybiMask_eq, bytesAt_length, masked_bytesAt]
  by_cases large : datalen > MAX_WEBSOCKET_PAYLOAD
  · rw [if_pos large, doHybiMaskAt, if_pos large]
    rfl
  rw [if_neg large]
  obtain ⟨accesses, count, made, enough, fills⟩ : ∃ accesses count,
      doHybiMaskAt memory mp dp datalen = .ok accesses ∧ datalen ≤ count ∧
        Fills (maskedByte memory mp dp (dp % 4)) (dp % 4) count accesses := by
    by_cases short : datalen < 4 - (dp &&& 0x3)
    · refine ⟨_, 4 - (dp &&& 0x3), doHybiMaskAt_short memory mp dp short, Nat.le_of_lt short, ?_⟩
      rw [and_three]
      exact fills_map (fun _ _ => rfl) fun i _ => byteAccess_value memory mp dp (dp % 4) i
    · obtain ⟨accesses, made, fills, -⟩ := doHybiMaskAt_fills memory mp dp
        (Nat.le_of_not_lt large) (Nat.le_of_not_lt short)
      rw [and_three] at fills
      exact ⟨accesses, datalen, made, Nat.le_refl _, fills⟩
  rw [made]
  change Except.ok _ = Except.ok _
  congr 1
  apply List.map_congr_left
  intro i member
  have inside := List.mem_range.mp member
  rw [fills.written, if_pos (by omega), maskedByte, Nat.add_sub_cancel_left]
  rfl

/-! ### Inside the buffers -/

theorem do_hybi_mask_writes (memory : Memory) (mp dp datalen : Nat) (least : 4 ≤ datalen)
    (most : datalen ≤ MAX_WEBSOCKET_PAYLOAD) :
    ∃ accesses, doHybiMaskAt memory mp dp datalen = .ok accesses ∧
      (∀ i < datalen,
        written accesses (dp % 4 + i) = some (memory (dp + i) ^^^ memory (mp + i % 4))) ∧
      ∀ k, written accesses k ≠ none → dp % 4 ≤ k ∧ k < dp % 4 + datalen := by
  obtain ⟨accesses, made, fills, -⟩ :=
    doHybiMaskAt_fills memory mp dp most (by omega)
  rw [and_three] at fills
  refine ⟨accesses, made, ?_, ?_⟩
  · intro i inside
    rw [fills.written, if_pos (by omega), maskedByte, Nat.add_sub_cancel_left]
  · intro k there
    by_contra outside
    rw [fills.written, if_neg outside] at there
    exact there rfl

/-- Seven bytes from an odd address: one byte, a word and two bytes. -/
theorem do_hybi_mask_writes_seven :
    ∃ accesses, doHybiMaskAt (fun address => UInt8.ofNat address) 8 15 7 = .ok accesses ∧
      (∀ i < 7, written accesses (15 % 4 + i) = some (UInt8.ofNat (15 + i) ^^^ UInt8.ofNat (8 + i % 4))) ∧
      ∀ k, written accesses k ≠ none → 15 % 4 ≤ k ∧ k < 15 % 4 + 7 :=
  do_hybi_mask_writes (fun address => UInt8.ofNat address) 8 15 7 (by decide) (by decide)

/-- A payload of 2^30 bytes is refused. -/
theorem not_do_hybi_mask_writes :
    ¬ ∀ (memory : Memory) (mp dp datalen : Nat), 4 ≤ datalen →
      ∃ accesses, doHybiMaskAt memory mp dp datalen = .ok accesses ∧
        ∀ i < datalen,
          written accesses (dp % 4 + i) = some (memory (dp + i) ^^^ memory (mp + i % 4)) := by
  intro all
  obtain ⟨accesses, made, -⟩ := all (fun _ => 0) 0 0 0x40000000 (by decide)
  rw [doHybiMaskAt, if_pos (by decide)] at made
  cases made

/-- Every index that is read or written is one of the payload. -/
def MasksInside (memory : Memory) (mp dp datalen : Nat) : Prop :=
  ∀ accesses, doHybiMaskAt memory mp dp datalen = .ok accesses → ∀ a ∈ accesses,
    (∀ i ∈ a.reads, i < datalen) ∧ dp % 4 ≤ a.index ∧ a.index < dp % 4 + datalen

theorem do_hybi_mask_inside_iff (memory : Memory) (mp dp datalen : Nat) :
    MasksInside memory mp dp datalen ↔ MAX_WEBSOCKET_PAYLOAD < datalen ∨ 4 - dp % 4 ≤ datalen := by
  constructor
  · intro inside
    by_contra neither
    have short : datalen < 4 - (dp &&& 0x3) := by
      rw [and_three]
      omega
    have member : byteAccess memory mp dp (dp &&& 0x3) datalen ∈
        (List.range (4 - (dp &&& 0x3))).map (byteAccess memory mp dp (dp &&& 0x3)) :=
      List.mem_map_of_mem (List.mem_range.mpr short)
    have read := (inside _ (doHybiMaskAt_short memory mp dp short) _ member).1 datalen List.mem_cons_self
    exact absurd read (Nat.lt_irrefl _)
  · rintro (large | enough) accesses made a member
    · rw [doHybiMaskAt, if_pos large] at made
      cases made
    · by_cases large : datalen > MAX_WEBSOCKET_PAYLOAD
      · rw [doHybiMaskAt, if_pos large] at made
        cases made
      · obtain ⟨others, made', fills, reads⟩ := doHybiMaskAt_fills memory mp dp
          (Nat.le_of_not_lt large) (by rw [and_three]; exact enough)
        rw [made] at made'
        cases made'
        rw [and_three] at fills
        refine ⟨reads a member, ?_⟩
        have index := List.mem_map_of_mem (f := Access.index) member
        rw [fills.indices] at index
        exact List.mem_range'_1.mp index

/-- One byte at an aligned address: four are read and written. -/
theorem not_do_hybi_mask_inside :
    ¬ ∀ (memory : Memory) (mp dp datalen : Nat), MasksInside memory mp dp datalen := by
  intro all
  have made : doHybiMaskAt (fun _ => 0) 0 0 1 = _ := doHybiMaskAt_short _ _ _ (by decide)
  have member : byteAccess (fun _ => 0) 0 0 0 3 ∈
      (List.range 4).map (byteAccess (fun _ => 0) 0 0 0) := by decide
  exact absurd ((all (fun _ => 0) 0 0 1 _ made _ member).1 3 List.mem_cons_self) (by decide)

end Catlink.WebSocket
