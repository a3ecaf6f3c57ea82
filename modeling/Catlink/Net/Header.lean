import Catlink.Python
import Catlink.Lib.BigEndian

/-! The eight byte packet header: packing, unpacking and the search for a first one. -/

namespace Catlink.Header

open BigEndian

def FLAGS_RENCODE : Nat := 0x1
def FLAGS_YAML : Nat := 0x4
def FLAGS_RENCODEPLUS : Nat := 0x10
def FLAGS_FLUSH : Nat := 0x8
def FLAGS_CIPHER : Nat := 0x2
def LZ4_FLAG : Nat := 0x10
def BROTLI_FLAG : Nat := 0x40
/-- never encoded, so it does not fit a byte -/
def FLAGS_NOHEADER : Nat := 0x10000

def HEADER_SIZE : Nat := 8
/-- `ord("P")` -/
def PACKET_HEADER_CHAR : UInt8 := 80

structure PacketHeader where
  pchar : UInt8
  protocolFlags : Nat
  compressionLevel : Nat
  packetIndex : Nat
  dataSize : Nat
  deriving DecidableEq, Repr

/-- `!cBBBL` -/
def unpackHeader : Bytes → Except Exn PacketHeader
  | pchar :: flags :: level :: index :: a :: b :: c :: d :: _ =>
      .ok ⟨pchar, flags.toNat, level.toNat, index.toNat, decodeBE [a, b, c, d]⟩
  | _ => .error (.structError "unpack_from requires a buffer of at least 8 bytes")

/-- `!BBBBL`; `struct` refuses a value that does not fit its field. -/
def packHeader (protoFlags level index payloadSize : Nat) : Except Exn Bytes :=
  if protoFlags < 256 ∧ level < 256 ∧ index < 256 then
    if payloadSize < 256 ^ 4 then
      .ok (PACKET_HEADER_CHAR :: UInt8.ofNat protoFlags :: UInt8.ofNat level ::
        UInt8.ofNat index :: encodeBE 4 payloadSize)
    else .error (.structError "argument out of range")
  else .error (.structError "ubyte format requires 0 <= number <= 255")

/-- How many of the encoder flags are set. -/
def encoderFlagsSet (pflags : Nat) : Nat :=
  ([FLAGS_RENCODE, FLAGS_YAML, FLAGS_RENCODEPLUS].filter fun flag => pflags &&& flag ≠ 0).length

/-- The test `find_xpra_header` makes of eight bytes that start with a `P`. -/
def isXpraHeader (index maxDataSize : Nat) (data : Bytes) : Bool :=
  match unpackHeader (data.take HEADER_SIZE) with
  | .ok h =>
      h.pchar == PACKET_HEADER_CHAR && h.packetIndex == index && h.dataSize < maxDataSize &&
        (h.compressionLevel == 0 || (h.compressionLevel &&& 0xf) > 0) && encoderFlagsSet h.protocolFlags ≤ 1
  | .error _ => false

/-- `data.find(b"P", pos)` and the loop around it in one scan from `pos`. -/
def findFrom (index maxDataSize : Nat) (pos : Nat) : Bytes → Option Nat
  | [] => none
  | b :: rest =>
      if b = PACKET_HEADER_CHAR then
        -- not enough data to try to parse this potential header
        if (b :: rest).length < HEADER_SIZE then none
        else if isXpraHeader index maxDataSize (b :: rest) then some pos
        else findFrom index maxDataSize (pos + 1) rest
      else findFrom index maxDataSize (pos + 1) rest

/-- The position of the first header, `none` for the source's `-1`. -/
def findXpraHeader (data : Bytes) (index : Nat := 0) (maxDataSize : Nat := 2 ^ 16) : Option Nat :=
  findFrom index maxDataSize 0 data

/-- Eight bytes always unpack. -/
theorem unpackHeader_ok {data : Bytes} (enough : HEADER_SIZE ≤ data.length) :
    ∃ h, unpackHeader data = .ok h := by
  match data, enough with
  | _ :: _ :: _ :: _ :: _ :: _ :: _ :: _ :: _, _ => exact ⟨_, rfl⟩
  | [], h | [_], h | [_, _], h | [_, _, _], h | [_, _, _, _], h | [_, _, _, _, _], h
  | [_, _, _, _, _, _], h | [_, _, _, _, _, _, _], h => simp [HEADER_SIZE] at h

theorem packHeader_length {protoFlags level index payloadSize : Nat} {header : Bytes}
    (packed : packHeader protoFlags level index payloadSize = .ok header) :
    header.length = HEADER_SIZE := by
  unfold packHeader at packed
  split at packed
  · split at packed
    · cases packed
      simp [HEADER_SIZE]
    · cases packed
  · cases packed

theorem packHeader_ok {protoFlags level index payloadSize : Nat} (flags : protoFlags < 256)
    (byteLevel : level < 256) (byteIndex : index < 256) (size : payloadSize < 256 ^ 4) :
    ∃ header, packHeader protoFlags level index payloadSize = .ok header := by
  rw [packHeader, if_pos ⟨flags, byteLevel, byteIndex⟩, if_pos size]
  exact ⟨_, rfl⟩

/-- What is packed is what the peer unpacks, whatever follows. -/
theorem unpack_packHeader {protoFlags level index payloadSize : Nat} {header : Bytes}
    (packed : packHeader protoFlags level index payloadSize = .ok header) (rest : Bytes) :
    unpackHeader (header ++ rest) =
      .ok ⟨PACKET_HEADER_CHAR, protoFlags, level, index, payloadSize⟩ := by
  unfold packHeader at packed
  split at packed
  case isFalse => cases packed
  case isTrue bytes =>
    split at packed
    case isFalse => cases packed
    case isTrue size =>
      cases packed
      obtain ⟨flags, byteLevel, byteIndex⟩ := bytes
      have tail : ∃ a b c d, encodeBE 4 payloadSize = [a, b, c, d] := ⟨_, _, _, _, rfl⟩
      obtain ⟨a, b, c, d, shape⟩ := tail
      have number : decodeBE [a, b, c, d] = payloadSize := by
        rw [← shape]
        exact decodeBE_encodeBE 4 payloadSize size
      simp [unpackHeader, shape, number, Nat.mod_eq_of_lt, flags, byteLevel, byteIndex]

theorem packHeader_head {protoFlags level index payloadSize : Nat} {header : Bytes}
    (packed : packHeader protoFlags level index payloadSize = .ok header) :
    ∃ tail, header = PACKET_HEADER_CHAR :: tail := by
  unfold packHeader at packed
  split at packed
  · split at packed
    · cases packed
      exact ⟨_, rfl⟩
    · cases packed
  · cases packed

theorem isXpraHeader_append {index maxDataSize : Nat} {data : Bytes}
    (enough : HEADER_SIZE ≤ data.length) (more : Bytes) :
    isXpraHeader index maxDataSize (data ++ more) = isXpraHeader index maxDataSize data := by
  simp only [isXpraHeader, List.take_append_of_le_length enough]

/-- A header once found stays where it is when more data arrives. -/
theorem findFrom_append {index maxDataSize pos found : Nat} {data : Bytes} (more : Bytes)
    (h : findFrom index maxDataSize pos data = some found) :
    findFrom index maxDataSize pos (data ++ more) = some found := by
  induction data generalizing pos with
  | nil => cases h
  | cons b rest ih =>
      simp only [List.cons_append, findFrom] at h ⊢
      by_cases isP : b = PACKET_HEADER_CHAR
      · simp only [isP, if_true] at h ⊢
        by_cases short : (PACKET_HEADER_CHAR :: rest).length < HEADER_SIZE
        · rw [if_pos short] at h
          cases h
        · have long : ¬ (PACKET_HEADER_CHAR :: (rest ++ more)).length < HEADER_SIZE := by
            simp only [List.length_cons, List.length_append] at short ⊢
            omega
          have enough : HEADER_SIZE ≤ (PACKET_HEADER_CHAR :: rest).length := Nat.le_of_not_lt short
          have same : isXpraHeader index maxDataSize (PACKET_HEADER_CHAR :: (rest ++ more)) =
              isXpraHeader index maxDataSize (PACKET_HEADER_CHAR :: rest) :=
            isXpraHeader_append enough more
          rw [if_neg short] at h
          rw [if_neg long, same]
          by_cases valid : isXpraHeader index maxDataSize (PACKET_HEADER_CHAR :: rest) = true
          · simpa [valid] using h
          · rw [if_neg valid] at h ⊢
            exact ih h
      · simp only [isP, if_false] at h ⊢
        exact ih h

/-- The bytes at a found position start with a `P` and are a whole header. -/
theorem findFrom_spec {index maxDataSize pos found : Nat} {data : Bytes}
    (h : findFrom index maxDataSize pos data = some found) :
    pos ≤ found ∧ found - pos + HEADER_SIZE ≤ data.length ∧
      ∃ tail, data.drop (found - pos) = PACKET_HEADER_CHAR :: tail := by
  induction data generalizing pos with
  | nil => cases h
  | cons b rest ih =>
      have step (deeper : findFrom index maxDataSize (pos + 1) rest = some found) :
          pos ≤ found ∧ found - pos + HEADER_SIZE ≤ (b :: rest).length ∧
            ∃ tail, (b :: rest).drop (found - pos) = PACKET_HEADER_CHAR :: tail := by
        obtain ⟨low, high, tail, at_found⟩ := ih deeper
        have shift : found - pos = (found - (pos + 1)) + 1 := by omega
        refine ⟨by omega, ?_, tail, ?_⟩
        · rw [List.length_cons]
          omega
        · rw [shift, List.drop_succ_cons]
          exact at_found
      simp only [findFrom] at h
      by_cases isP : b = PACKET_HEADER_CHAR
      · simp only [isP, if_true] at h
        by_cases short : (PACKET_HEADER_CHAR :: rest).length < HEADER_SIZE
        · rw [if_pos short] at h
          cases h
        · rw [if_neg short] at h
          by_cases valid : isXpraHeader index maxDataSize (PACKET_HEADER_CHAR :: rest) = true
          · simp only [valid, if_true, Option.some.injEq] at h
            subst h
            refine ⟨Nat.le_refl _, ?_, rest, ?_⟩
            · rw [isP]
              omega
            · simp [isP]
          · rw [if_neg valid] at h
            exact step h
      · simp only [isP, if_false] at h
        exact step h

end Catlink.Header
