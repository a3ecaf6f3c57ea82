import Catlink.Net.Segmentation

/-! What is queued for a packet is what the peer's parse loop delivers. -/

namespace Catlink.Framing

open Header Crypto SocketProtocol Incremental Segmentation

variable {σ τ : Type}

/-! ### A cipher and its inverse -/

/-- The lengths a cipher mode with this block size accepts. -/
def Aligned (blockSize : Nat) (data : Bytes) : Prop :=
  blockSize = 0 ∨ blockSize ∣ data.length

/-- The two ends share their settings, and decrypting inverts encrypting and preserves lengths. -/
structure Paired (s : Sender σ) (r : Receiver τ) where
  settings : r.cipherIn = s.cipherOut
  noframe : s.makeFrameHeader = noframeHeader
  random : ∀ n, (s.urandom n).length = 16
  block : s.cipherOut.blockSize = 0 ∨ s.cipherOut.blockSize = 16
  padding : s.cipherOut.padding = PADDING_PKCS7
  mode : String
  encryptMode : s.cipherOut.name ≠ "" → getMode s.lib s.cipherOut.name = .ok mode
  decryptMode : s.cipherOut.name ≠ "" → getMode r.lib s.cipherOut.name = .ok mode
  /-- a running encryption context and the decryption context that follows it -/
  sync : σ → τ → Prop
  update : ∀ {e d} data, sync e d → Aligned s.cipherOut.blockSize data →
    ∃ cipher e' d', s.lib.update e data = .ok (cipher, e') ∧ cipher.length = data.length ∧
      r.lib.update d cipher = .ok (data, d') ∧ sync e' d'
  whole : ∀ iv data, iv.length = 16 → Aligned s.cipherOut.blockSize data →
    ∃ cipher, s.lib.whole s.cipherOut.key iv mode data = .ok cipher ∧
      cipher.length = data.length ∧ r.lib.whole s.cipherOut.key iv mode cipher = .ok data

variable {s : Sender σ} {r : Receiver τ}

/-- The two contexts follow each other; there are none without a stream cipher. -/
def Paired.InSync (p : Paired s r) (encryptor : Option σ) (decryptor : Option τ) : Prop :=
  s.cipherOut.name ≠ "" → s.cipherOut.stream = true →
    ∃ e d, encryptor = some e ∧ decryptor = some d ∧ p.sync e d

/-- The size announced for a chunk: its data, and the initialisation vector sent in front of it. -/
def announced (c : CipherSettings) (data : Bytes) : Nat :=
  if c.name = "" ∨ c.stream then data.length else data.length + 16

theorem pad_ok (size : Nat) (byte : size < 256) :
    pad PADDING_PKCS7 size = .ok (List.replicate size (UInt8.ofNat size)) := by
  rw [pad, if_neg (by simp), if_neg (by omega)]

/-- With blocks of 16 there always is padding, and it completes the last block. -/
theorem paddingSize_block {c : CipherSettings} (block : c.blockSize = 16) (size : Nat) :
    paddingSize c size = 16 - size % 16 := by
  have positive : 16 - size % 16 ≠ 0 := by omega
  simp only [paddingSize, block]
  rw [if_neg (by decide), if_neg (fun both => positive both.2)]

theorem paddingSize_none {c : CipherSettings} (block : c.blockSize = 0) (size : Nat) :
    paddingSize c size = 0 := by
  rw [paddingSize, if_pos block]

/-- The two computations of the padding agree: the vector in front is a whole block. -/
theorem paddingSize_announced {c : CipherSettings} (block : c.blockSize = 0 ∨ c.blockSize = 16)
    (data : Bytes) : paddingSize c (announced c data) = paddingSize c data.length := by
  rcases block with none | block
  · rw [paddingSize_none none, paddingSize_none none]
  · rw [paddingSize_block block, paddingSize_block block]
    unfold announced
    split
    · rfl
    · omega

/-- What the cipher is given: the data, padded to whole blocks. -/
def padded (c : CipherSettings) (data : Bytes) : Bytes :=
  data ++ List.replicate (paddingSize c data.length) (UInt8.ofNat (paddingSize c data.length))

theorem padded_length (c : CipherSettings) (data : Bytes) :
    (padded c data).length = data.length + paddingSize c data.length := by
  simp [padded]

theorem paddingSize_le {c : CipherSettings} (block : c.blockSize = 0 ∨ c.blockSize = 16)
    (size : Nat) : paddingSize c size ≤ 16 := by
  rcases block with none | block
  · rw [paddingSize_none none]
    omega
  · rw [paddingSize_block block]
    omega

theorem padded_aligned {c : CipherSettings} (block : c.blockSize = 0 ∨ c.blockSize = 16)
    (data : Bytes) : Aligned c.blockSize (padded c data) := by
  rcases block with none | block
  · exact .inl none
  · refine .inr ?_
    rw [padded_length, paddingSize_block block, block]
    omega

theorem addPadding_ok {c : CipherSettings} (block : c.blockSize = 0 ∨ c.blockSize = 16)
    (padding : c.padding = PADDING_PKCS7) (data : Bytes) :
    addPadding c data = .ok (padded c data) := by
  have small := paddingSize_le block data.length
  unfold addPadding
  by_cases none : paddingSize c data.length = 0
  · rw [if_pos none, padded, none]
    simp
  · rw [if_neg none, padding, pad_ok _ (by omega)]
    rfl

/-- Removing from the decrypted text the padding the sender added gives its data back. -/
theorem removePadding_ok {c : CipherSettings} (block : c.blockSize = 0 ∨ c.blockSize = 16)
    (padding : c.padding = PADDING_PKCS7) (data : Bytes) (decryptor : Option τ) :
    removePadding c (paddingSize c data.length) (padded c data) decryptor =
      .ok ⟨data, decryptor, none⟩ := by
  have small := paddingSize_le block data.length
  unfold removePadding
  by_cases none : paddingSize c data.length = 0
  · rw [if_pos none, padded, none]
    simp
  · have ends : (List.replicate (paddingSize c data.length)
        (UInt8.ofNat (paddingSize c data.length))).isSuffixOf (padded c data) = true := by
      rw [List.isSuffixOf_iff_suffix]
      exact List.suffix_append _ _
    have kept : (padded c data).take ((padded c data).length - paddingSize c data.length) = data := by
      rw [padded_length, Nat.add_sub_cancel, padded, List.take_left]
    rw [if_neg none, padding, pad_ok _ (by omega)]
    simp only [bind, Except.bind, if_pos ends, kept]

/-- What is encrypted is announced without its padding, and decrypts to what was encrypted. -/
theorem encrypt_decrypt (p : Paired s r) (named : s.cipherOut.name ≠ "") {encryptor : Option σ}
    {decryptor : Option τ} (inSync : p.InSync encryptor decryptor) (n : Nat) (data : Bytes) :
    ∃ payload encryptor' decryptor',
      encrypt s.lib s.cipherOut encryptor (s.urandom n) data =
        .ok ⟨payload, announced s.cipherOut data, encryptor'⟩ ∧
      payload.length = announced s.cipherOut data + paddingSize s.cipherOut data.length ∧
      decrypt r.lib s.cipherOut decryptor payload (paddingSize s.cipherOut data.length) =
        .ok ⟨data, decryptor', none⟩ ∧
      p.InSync encryptor' decryptor' := by
  have added := addPadding_ok p.block p.padding data
  have aligned := padded_aligned p.block data
  cases streamed : s.cipherOut.stream with
  | true =>
      obtain ⟨e, d, rfl, rfl, synced⟩ := inSync named streamed
      obtain ⟨cipher, e', d', encrypted, length, decrypted, synced'⟩ := p.update _ synced aligned
      refine ⟨cipher, some e', some d', ?_, ?_, ?_, fun _ _ => ⟨e', d', rfl, rfl, synced'⟩⟩
      · simp [encrypt, added, named, streamed, encrypted, announced, bind, Except.bind]
      · simp [length, padded_length, announced, streamed]
      · simp only [decrypt, p.decryptMode named, decryptData, streamed, decrypted, bind, Except.bind,
          if_true]
        exact removePadding_ok p.block p.padding data _
  | false =>
      have vector := p.random n
      have filled : s.urandom n ≠ [] := by
        intro empty
        simp [empty] at vector
      obtain ⟨cipher, encrypted, length, decrypted⟩ := p.whole (s.urandom n) _ vector aligned
      refine ⟨s.urandom n ++ cipher, encryptor, decryptor, ?_, ?_, ?_, inSync⟩
      · simp [encrypt, added, named, streamed, p.encryptMode named, runCipher, filled, encrypted,
          announced, vector, bind, Except.bind]
      · simp [length, padded_length, announced, streamed, named, vector]
        omega
      · have front : (s.urandom n ++ cipher).take 16 = s.urandom n := by
          rw [← vector, List.take_left]
        have back : (s.urandom n ++ cipher).drop 16 = cipher := by
          rw [← vector, List.drop_left]
        simp only [decrypt, p.decryptMode named, decryptData, streamed, front, back, runCipher, filled,
          decrypted, bind, Except.bind, if_false, Bool.false_eq_true]
        exact removePadding_ok p.block p.padding data _

/-! ### Chunks and the packets they make -/

/-- The data of a chunk as the receiver has it, once uncompressed. -/
def openedData (codecs : Codecs) (c : Chunk) : Except Exn Bytes :=
  if c.level > 0 then decompress codecs c.data c.level else .ok c.data

/-- The decoded main packet, with the data of every raw chunk at its index. -/
def withRaws (raws : List Chunk) (rawData : Chunk → Bytes) (items : List PyVal) : List PyVal :=
  items.mapIdx fun i item =>
    match raws.find? fun c => c.index == i with
    | some c => .bytes (rawData c)
    | none => item

/-- A chunk list as `encode` makes it, with what the receiver's decoders make of its parts. -/
structure PacketChunks (codecs : Codecs) where
  raws : List Chunk
  main : Chunk
  atMost : raws.length ≤ 3
  indexes : ∀ c ∈ raws, 1 ≤ c.index ∧ c.index ≤ 15
  distinct : (raws.map Chunk.index).Nodup
  mainIndex : main.index = 0
  filled : ∀ c ∈ raws ++ [main], c.data ≠ []
  flags : ∀ c ∈ raws ++ [main], c.protoFlags < 256 ∧ c.protoFlags &&& FLAGS_CIPHER = 0
  levels : ∀ c ∈ raws ++ [main], c.level < 256
  rawData : Chunk → Bytes
  rawOpened : ∀ c ∈ raws, openedData codecs c = .ok (rawData c)
  mainData : Bytes
  mainOpened : openedData codecs main = .ok mainData
  items : List PyVal
  decoded : decode codecs mainData main.protoFlags >>= pyList = .ok items
  placed : ∀ c ∈ raws, c.index < items.length
  accepted : packetAccepts (withRaws raws rawData items) = true

def PacketChunks.chunks {codecs : Codecs} (p : PacketChunks codecs) : List Chunk :=
  p.raws ++ [p.main]

def PacketChunks.packet {codecs : Codecs} (p : PacketChunks codecs) : List PyVal :=
  withRaws p.raws p.rawData p.items

theorem placeRawPackets_withRaws (raws : List Chunk) (rawData : Chunk → Bytes)
    (items : List PyVal) (distinct : (raws.map Chunk.index).Nodup)
    (placed : ∀ c ∈ raws, c.index < items.length) :
    placeRawPackets items (raws.map fun c => (c.index, rawData c)) =
      .ok (withRaws raws rawData items) := by
  induction raws generalizing items with
  | nil =>
      simp only [List.map_nil, placeRawPackets, withRaws, List.find?_nil]
      congr 1
      apply List.ext_getElem?
      simp
  | cons c raws ih =>
      simp only [List.map_cons, List.nodup_cons] at distinct
      simp only [List.map_cons, placeRawPackets]
      rw [if_pos (placed c List.mem_cons_self), ih _ distinct.2
        (fun d member => by simpa using placed d (List.mem_cons_of_mem _ member))]
      congr 1
      apply List.ext_getElem?
      intro i
      simp only [withRaws, List.getElem?_mapIdx, List.getElem?_set]
      by_cases here : c.index = i
      · subst here
        have absent : raws.find? (fun d => d.index == c.index) = none := by
          rw [List.find?_eq_none]
          intro d member same
          exact distinct.1 (List.mem_map.mpr ⟨d, member, by simpa using same⟩)
        simp [absent, placed c List.mem_cons_self]
      · simp [here]

/-! ### One chunk on the wire -/

theorem or_and_apart {x y z : Nat} (apart : y &&& z = 0) : (x ||| y) &&& z = x &&& z := by
  rw [Nat.and_or_distrib_right, apart, Nat.or_zero]

theorem encodingType_or {flags extra : Nat} (plus : extra &&& FLAGS_RENCODEPLUS = 0)
    (rencode : extra &&& FLAGS_RENCODE = 0) (yaml : extra &&& FLAGS_YAML = 0) :
    getPacketEncodingType (flags ||| extra) = getPacketEncodingType flags := by
  simp only [getPacketEncodingType, or_and_apart plus, or_and_apart rencode, or_and_apart yaml]

theorem or_byte {x y : Nat} (first : x < 256) (second : y < 256) : x ||| y < 256 :=
  Nat.or_lt_two_pow (n := 8) first second

theorem noheader_byte {flags : Nat} (byte : flags < 256) : flags &&& FLAGS_NOHEADER = 0 := by
  have bit : flags.testBit 16 = false :=
    Nat.testBit_lt_two_pow (Nat.lt_trans byte (by decide))
  have power : FLAGS_NOHEADER = 2 ^ 16 := rfl
  rw [power, Nat.and_two_pow, bit]
  simp

/-- What is announced of a chunk, and the padding computed from it, is what is sent of it; and the
receiver gets its data back. -/
theorem chunkPayload_ok (p : Paired s r) {st : SendState σ} {decryptor : Option τ}
    (inSync : p.InSync st.encryptor decryptor) {c : Chunk} (filled : c.data ≠ [])
    (byte : c.protoFlags < 256) (plain : c.protoFlags &&& FLAGS_CIPHER = 0) :
    ∃ flags payload st' decryptor',
      chunkPayload s st c = .ok (flags, payload, announced s.cipherOut c.data, st') ∧
      flags < 256 ∧ getPacketEncodingType flags = getPacketEncodingType c.protoFlags ∧
      (flags &&& FLAGS_CIPHER ≠ 0 ↔ r.cipherIn.name ≠ "") ∧
      payload.length = announced s.cipherOut c.data +
        (if flags &&& FLAGS_CIPHER ≠ 0 then paddingSize r.cipherIn (announced s.cipherOut c.data) else 0) ∧
      (∀ extra, decryptPayload r decryptor (flags ||| extra)
        (if flags &&& FLAGS_CIPHER ≠ 0 then paddingSize r.cipherIn (announced s.cipherOut c.data) else 0)
        payload = .ok (c.data, decryptor')) ∧
      p.InSync st'.encryptor decryptor' := by
  rw [p.settings]
  by_cases unnamed : s.cipherOut.name = ""
  · refine ⟨c.protoFlags, c.data, st, decryptor, ?_, byte, rfl, ?_, ?_, ?_, inSync⟩
    · simp [chunkPayload, unnamed, announced]
    · simp [plain, unnamed]
    · simp [plain, announced, unnamed]
    · intro extra
      simp [decryptPayload, p.settings, unnamed]
  · obtain ⟨payload, encryptor', decryptor', encrypted, length, decrypted, inSync'⟩ :=
      encrypt_decrypt p unnamed inSync st.draws c.data
    have marked : (c.protoFlags ||| FLAGS_CIPHER) &&& FLAGS_CIPHER ≠ 0 := by
      rw [Nat.and_or_distrib_right, plain]
      decide
    let draws := if s.cipherOut.stream then st.draws else st.draws + 1
    refine ⟨c.protoFlags ||| FLAGS_CIPHER, payload, ⟨encryptor', draws⟩, decryptor', ?_,
      or_byte byte (by decide), encodingType_or rfl rfl rfl, ?_, ?_, ?_, inSync'⟩
    · simp only [chunkPayload, if_neg unnamed, encrypted, bind, Except.bind, draws]
    · simp [marked, unnamed]
    · rw [if_pos marked, paddingSize_announced p.block, length]
    · intro extra
      have stillMarked : ((c.protoFlags ||| FLAGS_CIPHER) ||| extra) &&& FLAGS_CIPHER ≠ 0 := by
        rw [Nat.and_or_distrib_right]
        intro zero
        exact marked (Nat.or_eq_zero_iff.mp zero).1
      rw [if_pos marked, paddingSize_announced p.block]
      simp only [decryptPayload, p.settings, if_neg unnamed, if_neg stillMarked, decrypted, if_neg filled]

/-- A header and the payload that follows it. -/
abbrev Frame := Bytes × Bytes

def frameBytes (f : Frame) : Bytes := f.1 ++ f.2

/-- The size the receiver computes from the header is the number of bytes that follow it. -/
def Announces (r : Receiver τ) (f : Frame) : Prop :=
  ∃ h padding events, parseHeader r f.1 = .ok (h, f.2.length, padding, events)

/-- The delayed size check that a frame causes, if it does. -/
def checksOf (r : Receiver τ) (f : Frame) : List Event :=
  if f.2.length > r.maxPacketSize then [.checkPacketSize f.2.length f.1] else []

/-- The frame that carries a chunk between two contexts that follow each other. -/
structure Carries (r : Receiver τ) (decryptor decryptor' : Option τ) (c : Chunk) (f : Frame) :
    Prop where
  starts : ∃ tail, f.1 = PACKET_HEADER_CHAR :: tail
  length : f.1.length = HEADER_SIZE
  filled : f.2 ≠ []
  parsed : ∃ h padding, parseHeader r f.1 = .ok (h, f.2.length, padding, checksOf r f) ∧
    h.packetIndex = c.index ∧ h.compressionLevel = c.level ∧
    getPacketEncodingType h.protocolFlags = getPacketEncodingType c.protoFlags ∧
    decryptPayload r decryptor h.protocolFlags padding f.2 = .ok (c.data, decryptor')

/-- What `_add_chunks_to_queue` is promised of a single chunk. -/
structure Sendable (s : Sender σ) (r : Receiver τ) (c : Chunk) : Prop where
  filled : c.data ≠ []
  flags : c.protoFlags < 256 ∧ c.protoFlags &&& FLAGS_CIPHER = 0
  level : c.level < 256
  index : c.index ≤ 15
  /-- the size field of the header has four bytes -/
  fits : announced s.cipherOut c.data < 256 ^ 4
  limit : announced s.cipherOut c.data ≤ r.absMaxPacketSize

theorem chunkItems_ok (p : Paired s r) (more : Bool) {st : SendState σ} {decryptor : Option τ}
    (inSync : p.InSync st.encryptor decryptor) {c : Chunk} (sendable : Sendable s r c) :
    ∃ items st' f decryptor', chunkItems s more st c = .ok (items, st') ∧
      items.flatten = frameBytes f ∧ Carries r decryptor decryptor' c f ∧
      p.InSync st'.encryptor decryptor' := by
  obtain ⟨flags, payload, st', decryptor', paid, byte, encoding, marked, length, decrypted, inSync'⟩ :=
    chunkPayload_ok p inSync sendable.filled sendable.flags.1 sendable.flags.2
  -- the flush flag of the last chunk changes nothing that the receiver looks at here
  obtain ⟨extra, extraByte, extraApart, flushed⟩ : ∃ extra, extra < 256 ∧
      (extra &&& FLAGS_CIPHER = 0 ∧ extra &&& FLAGS_RENCODEPLUS = 0 ∧
        extra &&& FLAGS_RENCODE = 0 ∧ extra &&& FLAGS_YAML = 0) ∧
      (if c.index = 0 ∧ ¬ more then flags ||| FLAGS_FLUSH else flags) = flags ||| extra := by
    by_cases last : c.index = 0 ∧ ¬ more
    · exact ⟨FLAGS_FLUSH, by decide, by decide, by rw [if_pos last]⟩
    · exact ⟨0, by decide, by decide, by rw [if_neg last, Nat.or_zero]⟩
  obtain ⟨header, packed⟩ := packHeader_ok (or_byte byte extraByte) sendable.level
    (Nat.lt_of_le_of_lt sendable.index (by decide) : c.index < 256) sendable.fits
  have payloadFilled : payload ≠ [] := by
    intro empty
    have positive : 0 < c.data.length := List.length_pos_iff.mpr sendable.filled
    rw [empty, List.length_nil] at length
    have whole : c.data.length ≤ announced s.cipherOut c.data := by
      unfold announced
      split <;> omega
    omega
  have parsed : ∃ h padding, parseHeader r header =
        .ok (h, payload.length, padding, checksOf r (header, payload)) ∧
      h.packetIndex = c.index ∧ h.compressionLevel = c.level ∧ h.protocolFlags = flags ||| extra ∧
      padding = if flags &&& FLAGS_CIPHER ≠ 0 then
        paddingSize r.cipherIn (announced s.cipherOut c.data) else 0 := by
    have unpacked := unpack_packHeader packed []
    rw [List.append_nil] at unpacked
    have cipherKept := or_and_apart (x := flags) extraApart.1
    refine ⟨⟨PACKET_HEADER_CHAR, flags ||| extra, c.level, c.index, announced s.cipherOut c.data⟩, _,
      ?_, rfl, rfl, rfl, rfl⟩
    unfold parseHeader
    rw [unpacked]
    simp only [headerPadding, cipherKept]
    rw [if_neg (by have := sendable.limit; omega), if_neg (by have := sendable.index; omega),
      if_neg (fun both => marked.mp both.1 both.2)]
    simp only [← length]
    rw [if_neg (by have := List.length_pos_iff.mpr payloadFilled; omega)]
    rfl
  obtain ⟨h, padding, parsed, sameIndex, sameLevel, sameFlags, samePadding⟩ := parsed
  have carries : Carries r decryptor decryptor' c (header, payload) := by
    refine ⟨packHeader_head packed, packHeader_length packed, payloadFilled,
      h, padding, parsed, sameIndex, sameLevel, ?_, ?_⟩
    · rw [sameFlags, encodingType_or extraApart.2.1 extraApart.2.2.1 extraApart.2.2.2, encoding]
    · rw [sameFlags, samePadding, decrypted]
  have framed : ∃ items, chunkItems s more st c = .ok (items, st') ∧
      items.flatten = frameBytes (header, payload) := by
    simp only [chunkItems, if_neg sendable.filled, paid, bind, Except.bind, noheader_byte byte,
      ne_eq, not_true_eq_false, if_false, flushed, makeXpraHeader, packed]
    split
    · exact ⟨_, rfl, by simp [frameBytes]⟩
    · exact ⟨_, rfl, by simp [frameBytes]⟩
  obtain ⟨items, queued, bytes⟩ := framed
  exact ⟨items, st', (header, payload), decryptor', queued, bytes, carries, inSync'⟩

theorem uncompress_openedData {codecs : Codecs} {c : Chunk} {data : Bytes}
    (opened : openedData codecs c = .ok data) : uncompressPayload codecs c.level c.data = .ok data := by
  unfold openedData at opened
  unfold uncompressPayload
  split at opened
  · next compressed => rw [if_pos compressed, opened]
  · next plain =>
      rw [if_neg plain]
      cases opened
      rfl

/-- The receiver reads the header of a frame, and then has its payload in front of it. -/
theorem drain_header {decryptor decryptor' : Option τ} {c : Chunk} {f : Frame}
    (carries : Carries r decryptor decryptor' c f) {data : Bytes}
    (opened : openedData r.codecs c = .ok data) (raws : List (Nat × Bytes)) (rest : Bytes) :
    ∃ p : Pending, p.payloadSize = f.2.length ∧ p.packetIndex = c.index ∧
      getPacketEncodingType p.protocolFlags = getPacketEncodingType c.protoFlags ∧
      openPayload r decryptor p.protocolFlags p.padding p.compressionLevel f.2 =
        .ok (data, decryptor') ∧
      (streamParser r).drain ⟨.header, decryptor, raws⟩ (frameBytes f ++ rest) =
        emit (checksOf r f)
          ((streamParser r).drain ⟨.payload p, decryptor, raws⟩ (f.2 ++ rest)) := by
  obtain ⟨⟨tail, starts⟩, length, filled, h, padding, parsed, sameIndex, sameLevel, encoding,
    decrypted⟩ := carries
  have bytes : frameBytes f ++ rest = f.1 ++ (f.2 ++ rest) := List.append_assoc _ _ _
  have header : (streamParser r).judge ⟨.header, decryptor, raws⟩ (f.1 ++ (f.2 ++ rest)) =
      .take HEADER_SIZE ⟨.payload ⟨f.2.length, padding, h.packetIndex, h.protocolFlags,
        h.compressionLevel⟩, decryptor, raws⟩ (checksOf r f) := by
    have front : (f.1 ++ (f.2 ++ rest)).take HEADER_SIZE = f.1 := by
      rw [← length, List.take_left]
    have long : ¬ (f.1 ++ (f.2 ++ rest)).length ≤ HEADER_SIZE := by
      have positive : 0 < f.2.length := List.length_pos_iff.mpr filled
      simp only [List.length_append]
      omega
    have shape : f.1 ++ (f.2 ++ rest) = PACKET_HEADER_CHAR :: (tail ++ (f.2 ++ rest)) := by
      rw [starts, List.cons_append]
    rw [shape] at front long ⊢
    simp only [streamParser, judge, judgeHeader, ne_eq, not_true_eq_false, if_false, if_neg long, front,
      parsed]
  have content : openPayload r decryptor h.protocolFlags padding h.compressionLevel f.2 =
      .ok (data, decryptor') := by
    simp only [openPayload, decrypted, sameLevel, uncompress_openedData opened, bind, Except.bind]
  refine ⟨⟨f.2.length, padding, h.packetIndex, h.protocolFlags, h.compressionLevel⟩, rfl, sameIndex,
    encoding, content, ?_⟩
  rw [bytes, Parser.drain_take _ header, ← length, List.drop_left]

/-- A payload that is all there is opened and processed. -/
theorem judgePayload_whole {decryptor decryptor' : Option τ} {p : Pending} {payload data : Bytes}
    (filled : payload ≠ []) (size : p.payloadSize = payload.length)
    (content : openPayload r decryptor p.protocolFlags p.padding p.compressionLevel payload =
      .ok (data, decryptor')) (raws : List (Nat × Bytes)) (rest : Bytes) :
    (streamParser r).judge ⟨.payload p, decryptor, raws⟩ (payload ++ rest) =
      match processPayload r p.packetIndex p.protocolFlags raws data with
      | .error e => .stop (withoutBuffer e)
      | .ok (rawPackets, events) => .take payload.length ⟨.header, decryptor', rawPackets⟩ events := by
  have enough : ¬ (payload ++ rest = [] ∨ (payload ++ rest).length < payload.length) := by
    simp only [List.append_eq_nil_iff, List.length_append, not_or]
    exact ⟨fun both => filled both.1, by omega⟩
  cases processed : processPayload r p.packetIndex p.protocolFlags raws data with
  | error e =>
      simp only [streamParser, judge, judgePayload, size, if_neg enough, List.take_left, content, processed]
  | ok kept =>
      simp only [streamParser, judge, judgePayload, size, if_neg enough, List.take_left, content, processed]

/-- The receiver takes a frame off the stream and processes the chunk it carries. -/
theorem drain_frame {decryptor decryptor' : Option τ} {c : Chunk} {f : Frame}
    (carries : Carries r decryptor decryptor' c f) {data : Bytes}
    (opened : openedData r.codecs c = .ok data) {raws raws' : List (Nat × Bytes)}
    {events : List Event}
    (processed : ∀ flags, getPacketEncodingType flags = getPacketEncodingType c.protoFlags →
      processPayload r c.index flags raws data = .ok (raws', events)) (rest : Bytes) :
    (streamParser r).drain ⟨.header, decryptor, raws⟩ (frameBytes f ++ rest) =
      emit (checksOf r f ++ events) ((streamParser r).drain ⟨.header, decryptor', raws'⟩ rest) := by
  obtain ⟨p, size, index, encoding, content, drained⟩ := drain_header carries opened raws rest
  have verdict := judgePayload_whole carries.filled size content raws rest
  rw [index, processed p.protocolFlags encoding] at verdict
  rw [drained, Parser.drain_take _ verdict, List.drop_left, emit_emit]

/-- A frame whose chunk is refused ends the loop, whatever follows it. -/
theorem drain_refused {decryptor decryptor' : Option τ} {c : Chunk} {f : Frame}
    (carries : Carries r decryptor decryptor' c f) {data : Bytes}
    (opened : openedData r.codecs c = .ok data) {raws : List (Nat × Bytes)} {e : Ending}
    (refused : ∀ flags, processPayload r c.index flags raws data = .error e) (rest : Bytes) :
    (streamParser r).drain ⟨.header, decryptor, raws⟩ (frameBytes f ++ rest) =
      (checksOf r f, .stopped (withoutBuffer e)) := by
  obtain ⟨p, size, index, encoding, content, drained⟩ := drain_header carries opened raws rest
  have verdict := judgePayload_whole carries.filled size content raws rest
  rw [index, refused p.protocolFlags] at verdict
  rw [drained, Parser.drain_stop _ verdict, emit, List.append_nil]

/-! ### Packets -/

/-- `wire` is made of frames whose size the receiver computes right; it takes the receiver from one
decryption context and set of raw packets to another, and makes it deliver `outs`. -/
structure Transmits (r : Receiver τ) (decryptor : Option τ) (raws : List (Nat × Bytes))
    (wire : Bytes) (outs : List (List PyVal)) (decryptor' : Option τ) (raws' : List (Nat × Bytes))
    (frames : List Frame) (events : List Event) : Prop where
  framed : wire = (frames.map frameBytes).flatten
  announces : ∀ f ∈ frames, Announces r f
  delivers : packetsOf events = outs
  quiet : (∀ f ∈ frames, f.2.length ≤ r.maxPacketSize) → events = outs.map .processPacket
  drained : ∀ rest, (streamParser r).drain ⟨.header, decryptor, raws⟩ (wire ++ rest) =
    emit events ((streamParser r).drain ⟨.header, decryptor', raws'⟩ rest)

theorem Transmits.nil (r : Receiver τ) (decryptor : Option τ) (raws : List (Nat × Bytes)) :
    Transmits r decryptor raws [] [] decryptor raws [] [] where
  framed := rfl
  announces := by simp
  delivers := rfl
  quiet := by simp
  drained := by simp

theorem Transmits.append {d d' d'' : Option τ} {raws raws' raws'' : List (Nat × Bytes)}
    {wire wire' : Bytes} {outs outs' : List (List PyVal)} {frames frames' : List Frame}
    {events events' : List Event} (first : Transmits r d raws wire outs d' raws' frames events)
    (second : Transmits r d' raws' wire' outs' d'' raws'' frames' events') :
    Transmits r d raws (wire ++ wire') (outs ++ outs') d'' raws'' (frames ++ frames')
      (events ++ events') where
  framed := by rw [first.framed, second.framed, List.map_append, List.flatten_append]
  announces f member := by
    rcases List.mem_append.mp member with here | there
    · exact first.announces f here
    · exact second.announces f there
  delivers := by rw [← first.delivers, ← second.delivers, packetsOf, List.filterMap_append]; rfl
  quiet small := by
    rw [first.quiet (fun f member => small f (List.mem_append_left _ member)),
      second.quiet (fun f member => small f (List.mem_append_right _ member)), List.map_append]
  drained rest := by
    rw [List.append_assoc, first.drained, second.drained, emit_emit]

/-- A frame whose chunk is processed into `raws'` and the callbacks for `outs`. -/
theorem Carries.transmits {decryptor decryptor' : Option τ} {c : Chunk} {f : Frame}
    (carries : Carries r decryptor decryptor' c f) {data : Bytes}
    (opened : openedData r.codecs c = .ok data) {raws raws' : List (Nat × Bytes)}
    {outs : List (List PyVal)}
    (processed : ∀ flags, getPacketEncodingType flags = getPacketEncodingType c.protoFlags →
      processPayload r c.index flags raws data = .ok (raws', outs.map .processPacket)) :
    Transmits r decryptor raws (frameBytes f) outs decryptor' raws' [f]
      (checksOf r f ++ outs.map .processPacket) where
  framed := by simp
  announces g member := by
    rw [List.mem_singleton] at member
    subst member
    obtain ⟨h, padding, parsed, _⟩ := carries.parsed
    exact ⟨h, padding, _, parsed⟩
  delivers := by
    have checks : packetsOf (checksOf r f) = [] := by
      unfold checksOf
      split <;> rfl
    have packets : packetsOf (outs.map .processPacket) = outs := by
      simp [packetsOf, List.filterMap_map]
    rw [packetsOf, List.filterMap_append, ← packetsOf, ← packetsOf, checks, packets,
      List.nil_append]
  quiet small := by
    have size := small f (List.mem_singleton_self f)
    rw [checksOf, if_neg (by omega), List.nil_append]
  drained rest := drain_frame carries opened processed rest

/-- Raw chunks are kept by the receiver, in order, until the main packet comes. -/
theorem raws_transmit (p : Paired s r) (more : Bool) (rawData : Chunk → Bytes) (raws : List Chunk)
    {st : SendState σ} {decryptor : Option τ} (inSync : p.InSync st.encryptor decryptor)
    (sendable : ∀ c ∈ raws, Sendable s r c) (indexes : ∀ c ∈ raws, 1 ≤ c.index)
    (opened : ∀ c ∈ raws, openedData r.codecs c = .ok (rawData c)) (kept : List (Nat × Bytes))
    (few : kept.length + raws.length ≤ 3)
    (distinct : (kept.map Prod.fst ++ raws.map Chunk.index).Nodup) :
    ∃ items st' decryptor' frames events, chunksItems s more st raws = .ok (items, st') ∧
      p.InSync st'.encryptor decryptor' ∧
      Transmits r decryptor kept items.flatten [] decryptor'
        (kept ++ raws.map fun c => (c.index, rawData c)) frames events := by
  induction raws generalizing st decryptor kept with
  | nil =>
      exact ⟨[], st, decryptor, [], [], rfl, inSync, by
        simpa using Transmits.nil r decryptor kept⟩
  | cons c raws ih =>
      obtain ⟨items, st', f, decryptor', queued, bytes, carries, inSync'⟩ :=
        chunkItems_ok p more inSync (sendable c List.mem_cons_self)
      have fresh : c.index ∉ kept.map Prod.fst := by
        intro old
        exact (List.nodup_append.mp distinct).2.2 _ old _ (by simp) rfl
      have stored : Transmits r decryptor kept (frameBytes f) [] decryptor'
          (kept ++ [(c.index, rawData c)]) [f] (checksOf r f ++ []) := by
        apply carries.transmits (opened c List.mem_cons_self)
        intro flags _
        have positive := indexes c List.mem_cons_self
        have room : ¬ (kept ++ [(c.index, rawData c)]).length ≥ 4 := by
          simp only [List.length_append, List.length_cons, List.length_nil] at few ⊢
          omega
        simp only [processPayload]
        rw [if_pos (by omega), if_neg fresh, if_neg room]
        rfl
      obtain ⟨rest, st'', decryptor'', frames, events, restQueued, inSync'', transmits⟩ :=
        ih inSync' (fun d member => sendable d (List.mem_cons_of_mem _ member))
          (fun d member => indexes d (List.mem_cons_of_mem _ member))
          (fun d member => opened d (List.mem_cons_of_mem _ member))
          (kept ++ [(c.index, rawData c)])
          (by simp only [List.length_append, List.length_cons, List.length_nil] at few ⊢; omega)
          (by simpa [List.append_assoc] using distinct)
      refine ⟨items ++ rest, st'', decryptor'', [f] ++ frames, (checksOf r f ++ []) ++ events, ?_,
        inSync'', ?_⟩
      · simp only [chunksItems, queued, restQueued, bind, Except.bind]
      · rw [List.flatten_append, bytes]
        have both := stored.append transmits
        rw [List.append_assoc kept] at both
        exact both

theorem chunksItems_append {more : Bool} {st st' st'' : SendState σ} {first second : List Chunk}
    {items items' : List Bytes} (one : chunksItems s more st first = .ok (items, st'))
    (two : chunksItems s more st' second = .ok (items', st'')) :
    chunksItems s more st (first ++ second) = .ok (items ++ items', st'') := by
  induction first generalizing st items with
  | nil =>
      cases one
      simpa using two
  | cons c first ih =>
      obtain ⟨⟨head, mid⟩, queued, more⟩ := ok_of_bind one
      obtain ⟨⟨tail, last⟩, rest, same⟩ := ok_of_bind more
      cases same
      simp only [List.cons_append, chunksItems, queued, ih rest, bind, Except.bind,
        List.append_assoc]

/-- A whole packet: queued without an error, and delivered once. -/
theorem packet_transmits (p : Paired s r) (more : Bool) {st : SendState σ} {decryptor : Option τ}
    (inSync : p.InSync st.encryptor decryptor) (packet : PacketChunks r.codecs)
    (sendable : ∀ c ∈ packet.chunks, Sendable s r c) :
    ∃ items st' decryptor' frames events,
      addChunksToQueue s more st packet.chunks = .ok (items, st') ∧
      p.InSync st'.encryptor decryptor' ∧
      Transmits r decryptor [] items.flatten [packet.packet] decryptor' [] frames events := by
  obtain ⟨items, st', decryptor', frames, events, queued, inSync', transmits⟩ :=
    raws_transmit p more packet.rawData packet.raws inSync
      (fun c member => sendable c (List.mem_append_left _ member))
      (fun c member => (packet.indexes c member).1) packet.rawOpened []
      (by simpa using packet.atMost) (by simpa using packet.distinct)
  obtain ⟨last, st'', f, decryptor'', lastQueued, bytes, carries, inSync''⟩ :=
    chunkItems_ok p more inSync' (sendable packet.main (List.mem_append_right _ (List.mem_singleton_self _)))
  have delivered : Transmits r decryptor'
      ([] ++ packet.raws.map fun c => (c.index, packet.rawData c)) (frameBytes f) [packet.packet]
      decryptor'' [] [f] (checksOf r f ++ [packet.packet].map .processPacket) := by
    apply carries.transmits packet.mainOpened
    intro flags encoding
    have sameDecoder : decode r.codecs packet.mainData flags =
        decode r.codecs packet.mainData packet.main.protoFlags := by
      simp only [decode, encoding]
    have placed : placeRawPackets packet.items
        (packet.raws.map fun c => (c.index, packet.rawData c)) = .ok packet.packet :=
      placeRawPackets_withRaws _ _ _ packet.distinct packet.placed
    have accepted : packetAccepts packet.packet = true := packet.accepted
    obtain ⟨head, tail, shape⟩ : ∃ head tail, packet.packet = head :: tail := by
      cases whole : packet.packet with
      | nil =>
          rw [whole] at accepted
          cases accepted
      | cons head tail => exact ⟨head, tail, rfl⟩
    simp only [processPayload, packet.mainIndex, finalPacket, sameDecoder, packet.decoded,
      List.nil_append]
    rw [if_neg (by omega), placed]
    rw [shape] at accepted ⊢
    simp only [accepted, if_true, bind, Except.bind, List.map_cons, List.map_nil]
  have mainQueued : chunksItems s more st' [packet.main] = .ok (last, st'') := by
    simp only [chunksItems, lastQueued, bind, Except.bind, List.append_nil]
  refine ⟨items ++ last, st'', decryptor'', frames ++ [f],
    events ++ (checksOf r f ++ [packet.packet].map .processPacket), ?_, inSync'', ?_⟩
  · simp only [addChunksToQueue, PacketChunks.chunks, chunksItems_append queued mainQueued, bind,
      Except.bind, p.noframe, noframeHeader, if_true]
  · rw [List.flatten_append, bytes]
    simpa using transmits.append delivered

/-- The packets of a connection, each with the `more` it is queued with. -/
def queuePackets (s : Sender σ) :
    SendState σ → List (Bool × List Chunk) → Except Exn (List Bytes × SendState σ)
  | st, [] => .ok ([], st)
  | st, (more, chunks) :: packets => do
      let (items, st) ← addChunksToQueue s more st chunks
      let (rest, st) ← queuePackets s st packets
      .ok (items ++ rest, st)

theorem packets_transmit (p : Paired s r) {st : SendState σ} {decryptor : Option τ}
    (inSync : p.InSync st.encryptor decryptor) (packets : List (Bool × PacketChunks r.codecs))
    (sendable : ∀ q ∈ packets, ∀ c ∈ q.2.chunks, Sendable s r c) :
    ∃ items st' decryptor' frames events,
      queuePackets s st (packets.map fun q => (q.1, q.2.chunks)) = .ok (items, st') ∧
      p.InSync st'.encryptor decryptor' ∧
      Transmits r decryptor [] items.flatten (packets.map fun q => q.2.packet) decryptor' []
        frames events := by
  induction packets generalizing st decryptor with
  | nil => exact ⟨[], st, decryptor, [], [], rfl, inSync, Transmits.nil r decryptor []⟩
  | cons q packets ih =>
      obtain ⟨items, st', decryptor', frames, events, queued, inSync', transmits⟩ :=
        packet_transmits p q.1 inSync q.2 (sendable q List.mem_cons_self)
      obtain ⟨rest, st'', decryptor'', frames', events', restQueued, inSync'', restTransmits⟩ :=
        ih inSync' (fun q' member => sendable q' (List.mem_cons_of_mem _ member))
      refine ⟨items ++ rest, st'', decryptor'', frames ++ frames', events ++ events', ?_, inSync'', ?_⟩
      · simp only [List.map_cons, queuePackets, queued, restQueued, bind, Except.bind]
      · rw [List.flatten_append]
        exact transmits.append restTransmits

/-- Queueing packets succeeds, and whatever way the written bytes are cut into buffers, the peer's
parse loop computes the size of every payload right, delivers exactly these packets, and is left
with nothing unread; without an oversize payload it does nothing else. -/
theorem framing_round_trip (p : Paired s r) {st : SendState σ} {decryptor : Option τ}
    (inSync : p.InSync st.encryptor decryptor) (packets : List (Bool × PacketChunks r.codecs))
    (sendable : ∀ q ∈ packets, ∀ c ∈ q.2.chunks, Sendable s r c) :
    ∃ (items : List Bytes) (st' : SendState σ) (frames : List Frame),
      queuePackets s st (packets.map fun q => (q.1, q.2.chunks)) = .ok (items, st') ∧
      items.flatten = (frames.map frameBytes).flatten ∧ (∀ f ∈ frames, Announces r f) ∧
      ∀ bufs : List Bytes, (∀ buf ∈ bufs, buf ≠ []) → bufs.flatten = items.flatten →
        ∃ events last, doReadParseThreadLoop r false decryptor bufs = some (events, .waiting last) ∧
          packetsOf events = packets.map (fun q => q.2.packet) ∧
          unread last = [] ∧ last.rawPackets = [] ∧ p.InSync st'.encryptor last.decryptor ∧
          ((∀ f ∈ frames, f.2.length ≤ r.maxPacketSize) →
            events = packets.map fun q => .processPacket q.2.packet) := by
  obtain ⟨items, st', decryptor', frames, events, queued, inSync', transmits⟩ :=
    packets_transmit p inSync packets sendable
  refine ⟨items, st', frames, queued, transmits.framed, transmits.announces, ?_⟩
  intro bufs filled same
  obtain ⟨seen, stand, run, drained⟩ := loop_refines r false decryptor bufs filled
  have whole := transmits.drained []
  rw [List.append_nil, Parser.drain_nil] at whole
  rw [same, if_neg (by simp), whole, emit, List.append_nil, Prod.mk.injEq] at drained
  obtain ⟨rfl, ends⟩ := drained
  cases stand with
  | ended e => cases ends
  | waiting last =>
      simp only [Stand.outcome, Outcome.waiting.injEq, streamState, StreamState.mk.injEq] at ends
      obtain ⟨⟨_, sameDecryptor, noRaws⟩, empty⟩ := ends
      refine ⟨events, last, run, transmits.delivers, empty.symm, noRaws.symm, sameDecryptor ▸ inSync',
        fun small => ?_⟩
      rw [transmits.quiet small, List.map_map]
      rfl

/-- A sender of plain packets to `plainReceiver`. -/
def plainSender : Sender Unit where
  lib := plainReceiver.lib
  cipherOut := plainReceiver.cipherIn
  packetJoinSize := 65536
  makeFrameHeader := noframeHeader
  urandom _ := List.replicate 16 0

def plainPaired : Paired plainSender plainReceiver where
  settings := rfl
  noframe := rfl
  random _ := rfl
  block := .inl rfl
  padding := rfl
  mode := ""
  encryptMode named := absurd rfl named
  decryptMode named := absurd rfl named
  sync _ _ := False
  update _ impossible := impossible.elim
  whole _ data _ _ := ⟨data, rfl, rfl, rfl⟩

/-- `["draw", ""]`, and the pixels that replace the empty text. -/
def drawPacket : PacketChunks plainReceiver.codecs where
  raws := [⟨0, 1, 0, [1, 2, 3]⟩]
  main := ⟨FLAGS_RENCODEPLUS, 0, 0, [194, 132, 100, 114, 97, 119, 128]⟩
  atMost := by decide
  indexes := by decide
  distinct := by decide
  mainIndex := rfl
  filled := by decide
  flags := by decide
  levels := by decide
  rawData c := c.data
  rawOpened c member := by
    rw [List.mem_singleton.mp member]
    rfl
  mainData := [194, 132, 100, 114, 97, 119, 128]
  mainOpened := rfl
  items := [.str "draw", .str ""]
  decoded := rfl
  placed := by decide
  accepted := rfl

/-- Blocks chained as CBC chains them, with the complement for the block cipher; the queue has the
bytes of the encrypted block before. -/
def chain : Bytes → Bytes → Bytes × Bytes
  | queue, [] => ([], queue)
  | queue, b :: data =>
      let c := ~~~ (b ^^^ queue.headD 0)
      let (encrypted, queue) := chain (queue.tail ++ [c]) data
      (c :: encrypted, queue)

def unchain : Bytes → Bytes → Bytes × Bytes
  | queue, [] => ([], queue)
  | queue, c :: data =>
      let (decrypted, last) := unchain (queue.tail ++ [c]) data
      ((~~~ c ^^^ queue.headD 0) :: decrypted, last)

theorem length_chain (queue data : Bytes) : (chain queue data).1.length = data.length := by
  induction data generalizing queue with
  | nil => rfl
  | cons b data ih => exact congrArg (· + 1) (ih _)

theorem unchain_chain (queue data : Bytes) :
    unchain queue (chain queue data).1 = (data, (chain queue data).2) := by
  induction data generalizing queue with
  | nil => rfl
  | cons b data ih =>
      rw [chain, unchain]
      dsimp only
      rw [ih, UInt8.not_not, UInt8.xor_assoc, UInt8.xor_self, UInt8.xor_zero]

def chainSettings : CipherSettings := ⟨"AES-CBC", 16, PADDING_PKCS7, true, true, []⟩

def chainReceiver : Receiver Bytes where
  lib := ⟨["CBC"], "CBC", fun queue data => .ok (unchain queue data), fun _ iv _ data => .ok (unchain iv data).1⟩
  cipherIn := chainSettings
  codecs := plainReceiver.codecs
  maxPacketSize := plainReceiver.maxPacketSize
  absMaxPacketSize := plainReceiver.absMaxPacketSize

/-- A sender to `chainReceiver`. -/
def chainSender : Sender Bytes where
  lib := ⟨["CBC"], "CBC", fun queue data => .ok (chain queue data), fun _ iv _ data => .ok (chain iv data).1⟩
  cipherOut := chainSettings
  packetJoinSize := 65536
  makeFrameHeader := noframeHeader
  urandom _ := List.replicate 16 0

theorem chain_update {queue queue' : Bytes} (data : Bytes) (same : queue = queue') :
    ∃ cipher e d, Except.ok (chain queue data) = (.ok (cipher, e) : Except Exn _) ∧
      cipher.length = data.length ∧ .ok (unchain queue' cipher) = (.ok (data, d) : Except Exn _) ∧
      e = d := by
  subst same
  refine ⟨(chain queue data).1, (chain queue data).2, (chain queue data).2, rfl, length_chain _ _, ?_, rfl⟩
  rw [unchain_chain]

theorem chain_whole (iv data : Bytes) :
    ∃ cipher, Except.ok (chain iv data).1 = (.ok cipher : Except Exn Bytes) ∧
      cipher.length = data.length ∧ .ok (unchain iv cipher).1 = (.ok data : Except Exn Bytes) := by
  refine ⟨(chain iv data).1, rfl, length_chain _ _, ?_⟩
  rw [unchain_chain]

theorem chain_mode (_ : chainSender.cipherOut.name ≠ "") :
    getMode chainSender.lib chainSender.cipherOut.name = .ok "CBC" := by
  decide

def chainPaired : Paired chainSender chainReceiver where
  settings := rfl
  noframe := rfl
  random _ := rfl
  block := .inr rfl
  padding := rfl
  mode := "CBC"
  encryptMode := chain_mode
  decryptMode := chain_mode
  sync := Eq
  update data same _ := chain_update data same
  whole iv data _ _ := chain_whole iv data

/-- Two packets, each of two chunks, in encrypted blocks. -/
theorem framing_round_trip_draw :
    ∃ (items : List Bytes) (st' : SendState Bytes) (frames : List Frame),
      queuePackets chainSender ⟨some (List.replicate 16 7), 0⟩
          [(false, drawPacket.chunks), (true, drawPacket.chunks)] = .ok (items, st') ∧
      items.flatten = (frames.map frameBytes).flatten ∧ (∀ f ∈ frames, Announces chainReceiver f) ∧
      ∀ bufs : List Bytes, (∀ buf ∈ bufs, buf ≠ []) → bufs.flatten = items.flatten →
        ∃ events last, doReadParseThreadLoop chainReceiver false (some (List.replicate 16 7)) bufs =
            some (events, .waiting last) ∧
          packetsOf events = [drawPacket.packet, drawPacket.packet] ∧
          unread last = [] ∧ last.rawPackets = [] ∧
          chainPaired.InSync st'.encryptor last.decryptor ∧
          ((∀ f ∈ frames, f.2.length ≤ chainReceiver.maxPacketSize) →
            events = [.processPacket drawPacket.packet, .processPacket drawPacket.packet]) := by
  have sendable : ∀ c ∈ drawPacket.chunks, Sendable chainSender chainReceiver c := by
    intro c member
    simp only [PacketChunks.chunks, drawPacket, List.singleton_append, List.mem_cons,
      List.not_mem_nil, or_false] at member
    rcases member with rfl | rfl
    · exact ⟨by decide, by decide, by decide, by decide, by decide, by decide⟩
    · exact ⟨by decide, by decide, by decide, by decide, by decide, by decide⟩
  refine framing_round_trip chainPaired (fun _ _ => ⟨_, _, rfl, rfl, rfl⟩)
    [(false, drawPacket), (true, drawPacket)] ?_
  intro q member
  rcases List.mem_pair.mp member with rfl | rfl
  · exact sendable
  · exact sendable

end Catlink.Framing
