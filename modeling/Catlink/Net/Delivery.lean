import Catlink.Net.Encode

/-! Which encoded packets reach the peer: the parse loop keeps at most three raw packets. -/

namespace Catlink.Delivery

open Header Crypto SocketProtocol Incremental Segmentation Framing Encode

variable {σ τ : Type} {s : Sender σ} {r : Receiver τ}

/-- The chunks are queued without an error, and however the bytes are cut into buffers the peer's
loop delivers the packet, nothing else, and waits for more with nothing unread. -/
def Delivers (s : Sender σ) (r : Receiver τ) (more : Bool) (st : SendState σ)
    (decryptor : Option τ) (chunks : List Chunk) (packet : List PyVal) : Prop :=
  ∃ items st', addChunksToQueue s more st chunks = .ok (items, st') ∧
    ∀ bufs : List Bytes, (∀ buf ∈ bufs, buf ≠ []) → bufs.flatten = items.flatten →
      ∃ events last, doReadParseThreadLoop r false decryptor bufs = some (events, .waiting last) ∧
        packetsOf events = [packet] ∧ unread last = []

/-! ### Chunks that are refused -/

theorem chunksItems_filled {more : Bool} {st st' : SendState σ} {chunks : List Chunk}
    {items : List Bytes} (queued : chunksItems s more st chunks = .ok (items, st')) :
    ∀ c ∈ chunks, c.data ≠ [] := by
  induction chunks generalizing st st' items with
  | nil => simp
  | cons c chunks ih =>
      obtain ⟨⟨head, mid⟩, first, others⟩ := ok_of_bind queued
      obtain ⟨⟨tail, last⟩, rest, _⟩ := ok_of_bind others
      intro d member
      rcases List.mem_cons.mp member with rfl | member
      · intro empty
        rw [chunkItems, if_pos empty] at first
        cases first
      · exact ih rest d member

/-- What is queued for a list of chunks is what is queued for its parts. -/
theorem chunksItems_split {more : Bool} {st st' st₁ : SendState σ} {first second : List Chunk}
    {items one : List Bytes} (queued : chunksItems s more st (first ++ second) = .ok (items, st'))
    (start : chunksItems s more st first = .ok (one, st₁)) :
    ∃ two, chunksItems s more st₁ second = .ok (two, st') ∧ items = one ++ two := by
  induction first generalizing st items one with
  | nil =>
      cases start
      exact ⟨items, queued, rfl⟩
  | cons c first ih =>
      obtain ⟨⟨head, mid⟩, here, others⟩ := ok_of_bind queued
      obtain ⟨⟨tail, last⟩, rest, same⟩ := ok_of_bind others
      cases same
      obtain ⟨⟨head', mid'⟩, here', others'⟩ := ok_of_bind start
      obtain ⟨⟨tail', last'⟩, rest', same'⟩ := ok_of_bind others'
      cases same'
      rw [here] at here'
      cases here'
      obtain ⟨two, queued', rfl⟩ := ih rest rest'
      exact ⟨two, queued', (List.append_assoc _ _ _).symm⟩

/-- A fourth raw packet is refused, after any three. -/
theorem fourth_refused (r : Receiver τ) {raws : List (Nat × Bytes)} (three : raws.length = 3)
    {index : Nat} (positive : 1 ≤ index) (fresh : index ∉ raws.map Prod.fst) (flags : Nat)
    (data : Bytes) : processPayload r index flags raws data =
      .error (.invalid s!"too many raw packets: {raws.length + 1}" data) := by
  have many : (raws ++ [(index, data)]).length ≥ 4 := by
    simp only [List.length_append, List.length_cons, List.length_nil]
    omega
  have count : (raws ++ [(index, data)]).length = raws.length + 1 := by simp
  simp only [processPayload]
  rw [if_pos (by omega), if_neg fresh, if_pos many, count]

/-- After three raw chunks a fourth one ends the loop. -/
theorem raws_refused (p : Paired s r) (more : Bool) (rawData : Chunk → Bytes) {raws : List Chunk}
    {c : Chunk} (later : List Chunk) {st st' : SendState σ} {decryptor : Option τ}
    (inSync : p.InSync st.encryptor decryptor) (three : raws.length = 3)
    (sendable : ∀ d ∈ raws ++ [c], Sendable s r d) (indexes : ∀ d ∈ raws ++ [c], 1 ≤ d.index)
    (opened : ∀ d ∈ raws ++ [c], openedData r.codecs d = .ok (rawData d))
    (distinct : ((raws ++ [c]).map Chunk.index).Nodup) {items : List Bytes}
    (queued : chunksItems s more st (raws ++ c :: later) = .ok (items, st')) :
    ∃ events reason,
      (streamParser r).drain ⟨.header, decryptor, []⟩ items.flatten = (events, .stopped reason) := by
  rw [List.map_append, List.map_cons, List.map_nil] at distinct
  obtain ⟨first, st₁, decryptor', frames, events, firstQueued, inSync', transmits⟩ :=
    raws_transmit p more rawData raws inSync
      (fun d member => sendable d (List.mem_append_left _ member))
      (fun d member => indexes d (List.mem_append_left _ member))
      (fun d member => opened d (List.mem_append_left _ member)) []
      (by rw [List.length_nil, three]) (by simpa using (List.nodup_append.mp distinct).1)
  have last : c ∈ raws ++ [c] := List.mem_append_right _ (List.mem_singleton_self c)
  obtain ⟨head, st₂, f, decryptor'', headQueued, bytes, carries, _⟩ :=
    chunkItems_ok p more inSync' (sendable c last)
  obtain ⟨rest, restQueued, rfl⟩ := chunksItems_split queued firstQueued
  obtain ⟨⟨head', st₂'⟩, headQueued', others⟩ := ok_of_bind restQueued
  obtain ⟨⟨tail, st₃⟩, _, same⟩ := ok_of_bind others
  cases same
  rw [headQueued] at headQueued'
  cases headQueued'
  have kept : (raws.map fun d => (d.index, rawData d)).map Prod.fst = raws.map Chunk.index := by
    rw [List.map_map]
    rfl
  have fresh : c.index ∉ (raws.map fun d => (d.index, rawData d)).map Prod.fst := by
    rw [kept]
    intro old
    exact (List.nodup_append.mp distinct).2.2 _ old _ (List.mem_singleton_self _) rfl
  have refused := drain_refused carries (opened c last)
    (fun flags => fourth_refused r (by rw [List.length_map, three]) (indexes c last) fresh flags
      (rawData c)) tail.flatten
  have whole := transmits.drained (frameBytes f ++ tail.flatten)
  rw [List.nil_append, refused, ← bytes, ← List.flatten_append, ← List.flatten_append] at whole
  exact ⟨_, _, whole⟩

/-! ### Packets and what the peer makes of them -/

/-- The decoders and decompressors of the peer read back what this side writes. -/
structure PeerCodec (o : Settings) (codecs : Codecs) where
  /-- a value as the peer has it -/
  received : PyVal → PyVal
  /-- the packets that the encoder can write -/
  Writes : List PyVal → Prop
  decodes : ∀ {packet main flags}, Writes packet → o.encode packet = .ok (main, flags) →
    decode codecs main flags >>= pyList = .ok (packet.map received)
  writesData : ∀ {packet main flags}, Writes packet → o.encode packet = .ok (main, flags) →
    main ≠ [] ∧ flags < 256 ∧ flags &&& FLAGS_CIPHER = 0
  decompresses : ∀ {packet main flags level data}, Writes packet →
    o.encode packet = .ok (main, flags) → o.compress main o.compressionLevel = .ok (level, data) →
    level < 256 ∧ data ≠ [] ∧ openedData codecs ⟨flags, 0, level, data⟩ = .ok main
  text : ∀ t, received (.str t) = .str t
  element : ∀ {v}, isPacketElement v = true → isPacketElement (received v) = true

/-- The level of a compressed item is one that the peer uncompresses it with. -/
def Uncompresses (codecs : Codecs) (c : Compressed) : Prop :=
  c.level.getD 0 < 256 ∧ ∃ data, openedData codecs (rawChunk 0 c) = .ok data

/-- The data of a chunk, uncompressed. -/
def uncompressed (codecs : Codecs) (c : Chunk) : Bytes :=
  match openedData codecs c with
  | .ok data => data
  | .error _ => []

/-- An item as the peer has it: the data of its own chunk, or its value in the main packet. -/
def receivedItem {o : Settings} {codecs : Codecs} (codec : PeerCodec o codecs) (item : Item) :
    PyVal :=
  match rawItem o item with
  | some c => .bytes (uncompressed codecs (rawChunk 0 c))
  | none => codec.received (mainValue o item)

def receivedPacket {o : Settings} {codecs : Codecs} (codec : PeerCodec o codecs)
    (packet : Packet) : List PyVal :=
  packet.items.map (receivedItem codec)

variable {o : Settings} (codec : PeerCodec o r.codecs)

theorem withRaws_received (packet : Packet) :
    withRaws (rawChunks o 0 packet.items) (uncompressed r.codecs)
      ((packet.items.map (mainValue o)).map codec.received) = receivedPacket codec packet := by
  apply List.ext_getElem?
  intro i
  have found := rawChunks_find o 0 i packet.items
  rw [Nat.zero_add] at found
  simp only [withRaws, List.getElem?_mapIdx, List.getElem?_map, receivedPacket, found]
  cases packet.items[i]? with
  | none => rfl
  | some item =>
      cases raw : rawItem o item with
      | none => simp [receivedItem, raw]
      | some c =>
          simp only [Option.map_some, Option.bind_some, raw, receivedItem]
          rfl

theorem receivedPacket_accepted (packet : Packet)
    (elements : ∀ v ∈ packet.items.map (mainValue o), isPacketElement v = true) :
    packetAccepts (receivedPacket codec packet) = true := by
  have first : receivedItem codec (.value (.str packet.packetType)) = .str packet.packetType :=
    codec.text packet.packetType
  simp only [receivedPacket, Packet.items, List.map_cons, first, packetAccepts, List.all_map,
    List.all_eq_true, Function.comp_apply]
  intro item member
  unfold receivedItem
  split
  · rfl
  · apply codec.element
    apply elements
    exact List.mem_map_of_mem (List.mem_cons_of_mem _ member)

/-- What `encode` returns: the raw chunks in the order of their items, and the main chunk. -/
theorem encode_ok {packet : Packet} {chunks : List Chunk} (encoded : encode o packet = .ok chunks)
    (writes : codec.Writes (packet.items.map (mainValue o))) :
    ∃ main data, chunks = rawChunks o 0 packet.items ++ [main] ∧ main.index = 0 ∧
      main.data ≠ [] ∧ (main.protoFlags < 256 ∧ main.protoFlags &&& FLAGS_CIPHER = 0) ∧
      main.level < 256 ∧ openedData r.codecs main = .ok data ∧
      decode r.codecs data main.protoFlags >>= pyList =
        .ok ((packet.items.map (mainValue o)).map codec.received) ∧
      ∀ v ∈ packet.items.map (mainValue o), isPacketElement v = true := by
  obtain ⟨⟨values, packets, inlinedSize⟩, items, rest⟩ := ok_of_bind encoded
  obtain ⟨rfl, rfl, elements⟩ := encodeItems_ok items
  obtain ⟨⟨data, flags⟩, written, last⟩ := ok_of_bind rest
  have decoded := codec.decodes writes written
  obtain ⟨filled, byte, plain⟩ := codec.writesData writes written
  dsimp only at last
  by_cases compressed : o.compressionLevel > 0 ∧ data.length > MIN_COMPRESS_SIZE + inlinedSize
  · rw [if_pos compressed] at last
    obtain ⟨⟨level, small⟩, done, same⟩ := ok_of_bind last
    cases same
    obtain ⟨levelByte, smallFilled, opened⟩ := codec.decompresses writes written done
    exact ⟨⟨flags, 0, level, small⟩, data, rfl, rfl, smallFilled, ⟨byte, plain⟩, levelByte, opened,
      decoded, elements⟩
  · rw [if_neg compressed] at last
    cases last
    exact ⟨⟨flags, 0, 0, data⟩, data, rfl, rfl, filled, ⟨byte, plain⟩, by simp, rfl, decoded,
      elements⟩

/-- The sizes the header and the peer have room for. -/
def WithinLimits (s : Sender σ) (r : Receiver τ) (c : Chunk) : Prop :=
  announced s.cipherOut c.data < 256 ^ 4 ∧ announced s.cipherOut c.data ≤ r.absMaxPacketSize

/-- Raw chunks that hold data are queued and opened like any other. -/
theorem rawChunks_sound {packet : Packet} (few : packet.items.length < 16)
    (uncompresses : ∀ c ∈ rawItems o packet, Uncompresses r.codecs c)
    (filled : ∀ c ∈ rawItems o packet, c.data ≠ [])
    (limits : ∀ c ∈ rawChunks o 0 packet.items, WithinLimits s r c) :
    ∀ c ∈ rawChunks o 0 packet.items, Sendable s r c ∧ 1 ≤ c.index ∧
      openedData r.codecs c = .ok (uncompressed r.codecs c) := by
  intro c member
  have bounds := rawChunks_index member
  obtain ⟨raw, item, same⟩ := rawChunks_item member
  have known := limits c member
  obtain ⟨level, data, opened⟩ := uncompresses raw item
  have positive : 1 ≤ c.index := by
    -- the packet type is not compressed
    have tail : rawChunks o 0 packet.items = rawChunks o 1 packet.data := rfl
    rw [tail] at member
    exact (rawChunks_index member).1
  have openedHere : openedData r.codecs c = .ok data := by
    rw [same]
    exact opened
  refine ⟨?_, positive, ?_⟩
  · rw [same] at known ⊢
    exact ⟨filled raw item, ⟨by simp [rawChunk], by simp [rawChunk]⟩, level,
      by simp only [rawChunk]; omega, known.1, known.2⟩
  · rw [uncompressed, openedHere]

/-- With at most three raw chunks, all of them filled, the peer gets the packet. -/
theorem delivers_of_few (p : Paired s r) {st : SendState σ} {decryptor : Option τ}
    (inSync : p.InSync st.encryptor decryptor) (more : Bool) {packet : Packet}
    (short : packet.items.length < 16) {chunks : List Chunk}
    (encoded : encode o packet = .ok chunks)
    (writes : codec.Writes (packet.items.map (mainValue o)))
    (uncompresses : ∀ c ∈ rawItems o packet, Uncompresses r.codecs c)
    (limits : ∀ c ∈ chunks, WithinLimits s r c) (few : (rawItems o packet).length ≤ 3)
    (filled : ∀ c ∈ rawItems o packet, c.data ≠ []) :
    Delivers s r more st decryptor chunks (receivedPacket codec packet) := by
  obtain ⟨main, data, rfl, mainIndex, mainFilled, mainFlags, mainLevel, mainOpened, decoded,
    elements⟩ := encode_ok codec encoded writes
  have raws := rawChunks_sound short uncompresses filled
    (fun c member => limits c (List.mem_append_left _ member))
  have mainSendable : Sendable s r main := by
    have known := limits main (List.mem_append_right _ (List.mem_singleton_self _))
    exact ⟨mainFilled, mainFlags, mainLevel, by omega, known.1, known.2⟩
  have sendable : ∀ c ∈ rawChunks o 0 packet.items ++ [main], Sendable s r c := by
    intro c member
    rcases List.mem_append.mp member with raw | last
    · exact (raws c raw).1
    · rw [List.mem_singleton.mp last]
      exact mainSendable
  let whole : PacketChunks r.codecs :=
    { raws := rawChunks o 0 packet.items
      main := main
      atMost := by
        rw [rawChunks_length]
        exact few
      indexes := fun c member => ⟨(raws c member).2.1, (raws c member).1.index⟩
      distinct := rawChunks_distinct o 0 packet.items
      mainIndex := mainIndex
      filled := fun c member => (sendable c member).filled
      flags := fun c member => (sendable c member).flags
      levels := fun c member => (sendable c member).level
      rawData := uncompressed r.codecs
      rawOpened := fun c member => (raws c member).2.2
      mainData := data
      mainOpened := mainOpened
      items := (packet.items.map (mainValue o)).map codec.received
      decoded := decoded
      placed := fun c member => by
        have bounds := rawChunks_index member
        rw [List.length_map, List.length_map]
        omega
      accepted := by
        rw [withRaws_received]
        exact receivedPacket_accepted codec packet elements }
  have received : whole.packet = receivedPacket codec packet := withRaws_received codec packet
  obtain ⟨items, st', decryptor', frames, events, queued, _, transmits⟩ :=
    packet_transmits p more inSync whole sendable
  refine ⟨items, st', queued, ?_⟩
  intro bufs buffers same
  obtain ⟨seen, stand, run, drained⟩ := loop_refines r false decryptor bufs buffers
  have stream := transmits.drained []
  rw [List.append_nil, Parser.drain_nil] at stream
  rw [same, if_neg (by simp), stream, emit, List.append_nil, Prod.mk.injEq] at drained
  obtain ⟨rfl, ends⟩ := drained
  cases stand with
  | ended e => cases ends
  | waiting last =>
      simp only [Stand.outcome, Outcome.waiting.injEq] at ends
      refine ⟨events, last, run, ?_, ends.2.symm⟩
      rw [transmits.delivers, received]

/-- A fourth raw chunk makes the peer drop the connection. -/
theorem not_delivers_of_many (p : Paired s r) {st : SendState σ} {decryptor : Option τ}
    (inSync : p.InSync st.encryptor decryptor) (more : Bool) {packet : Packet}
    (short : packet.items.length < 16)
    (uncompresses : ∀ c ∈ rawItems o packet, Uncompresses r.codecs c)
    (filled : ∀ c ∈ rawItems o packet, c.data ≠ [])
    (limits : ∀ c ∈ rawChunks o 0 packet.items, WithinLimits s r c) (main : Chunk)
    (many : 3 < (rawItems o packet).length) (delivered : List PyVal) :
    ¬ Delivers s r more st decryptor (rawChunks o 0 packet.items ++ [main]) delivered := by
  rintro ⟨items, st', queued, delivers⟩
  have raws := rawChunks_sound short uncompresses filled limits
  have distinct := rawChunks_distinct o 0 packet.items
  have count : 3 < (rawChunks o 0 packet.items).length := by
    rw [rawChunks_length]
    exact many
  obtain ⟨first, c, later, split, three⟩ : ∃ first c later,
      rawChunks o 0 packet.items = first ++ c :: later ∧ first.length = 3 := by
    refine ⟨(rawChunks o 0 packet.items).take 3, (rawChunks o 0 packet.items)[3],
      (rawChunks o 0 packet.items).drop 4, ?_, by rw [List.length_take]; omega⟩
    rw [List.cons_getElem_drop_succ, List.take_append_drop]
  rw [split] at raws distinct queued
  have inside : ∀ d ∈ first ++ [c], d ∈ first ++ c :: later := by
    intro d member
    simp only [List.mem_append, List.mem_cons, List.not_mem_nil, or_false] at member ⊢
    rcases member with here | here
    · exact .inl here
    · exact .inr (.inl here)
  have apart : ((first ++ [c]).map Chunk.index).Nodup := by
    have front : first ++ [c] <+: first ++ c :: later := ⟨later, by simp⟩
    exact (front.sublist.map Chunk.index).nodup distinct
  obtain ⟨⟨sent, st''⟩, items', same⟩ := ok_of_bind queued
  rw [p.noframe] at same
  cases same
  rw [List.append_assoc, List.cons_append] at items'
  obtain ⟨events, reason, refused⟩ := raws_refused p more (uncompressed r.codecs) (later ++ [main])
    inSync three (fun d member => (raws d (inside d member)).1)
    (fun d member => (raws d (inside d member)).2.1)
    (fun d member => (raws d (inside d member)).2.2) apart items'
  -- the loop over the bytes in one buffer
  have written : items.flatten ≠ [] := by
    intro nothing
    rw [nothing, Parser.drain_nil] at refused
    cases refused
  obtain ⟨seen, last, run, _, _⟩ := delivers [items.flatten] (by simpa using written) (by simp)
  obtain ⟨seen', stand, run', drained⟩ := loop_refines r false decryptor [items.flatten]
    (by simpa using written)
  rw [run] at run'
  cases run'
  rw [List.flatten_singleton, if_neg (by simp), refused] at drained
  cases drained

/-- Whatever `encode` accepts reaches the peer exactly when at most three of its items get a chunk
of their own, and none of these is empty. -/
theorem encode_delivers (p : Paired s r) {st : SendState σ} {decryptor : Option τ}
    (inSync : p.InSync st.encryptor decryptor) (more : Bool) (packet : Packet)
    (short : packet.items.length < 16) {chunks : List Chunk}
    (encoded : encode o packet = .ok chunks)
    (writes : codec.Writes (packet.items.map (mainValue o)))
    (uncompresses : ∀ c ∈ rawItems o packet, Uncompresses r.codecs c)
    (limits : ∀ c ∈ chunks, WithinLimits s r c) :
    Delivers s r more st decryptor chunks (receivedPacket codec packet) ↔
      (rawItems o packet).length ≤ 3 ∧ ∀ c ∈ rawItems o packet, c.data ≠ [] := by
  constructor
  · intro delivers
    obtain ⟨main, data, rfl, _⟩ := encode_ok codec encoded writes
    have filled : ∀ c ∈ rawItems o packet, c.data ≠ [] := by
      obtain ⟨items, st', queued, _⟩ := delivers
      obtain ⟨⟨sent, st''⟩, items', _⟩ := ok_of_bind queued
      intro c item
      obtain ⟨index, member⟩ := rawChunks_of_item 0 item
      exact chunksItems_filled items' (rawChunk index c) (List.mem_append_left _ member)
    refine ⟨?_, filled⟩
    by_contra many
    exact not_delivers_of_many p inSync more short uncompresses filled
      (fun c member => limits c (List.mem_append_left _ member)) main (by omega) _ delivers
  · rintro ⟨few, filled⟩
    exact delivers_of_few codec p inSync more short encoded writes uncompresses limits few filled

/-! ### rencodeplus -/

/-- A protocol that writes packets with rencodeplus. -/
def rencodeplusSettings (bigEndian chunks : Bool) (compressionLevel : Nat)
    (compress : Bytes → Nat → Except Exn (Nat × Bytes)) : Settings where
  chunks := chunks
  encoder := "rencodeplus"
  encode packet := do
    let data ← Rencodeplus.dumps bigEndian (.list packet)
    .ok (data, FLAGS_RENCODEPLUS)
  compressionLevel := compressionLevel
  compress := compress

theorem decodedItems_eq (items : List PyVal) :
    Rencodeplus.decodedItems items = items.map Rencodeplus.decoded := by
  induction items with
  | nil => rfl
  | cons item items ih => rw [Rencodeplus.decodedItems, ih, List.map_cons]

theorem dumps_filled {bigEndian : Bool} {v : PyVal} {data : Bytes}
    (encodable : Rencodeplus.Encodable v) (sized : Rencodeplus.Sized v)
    (fits : (Rencodeplus.encoding v).length < 2 ^ 32)
    (dumped : Rencodeplus.dumps bigEndian v = .ok data) : data ≠ [] := by
  rw [Rencodeplus.dumps_ok bigEndian v encodable sized fits] at dumped
  cases dumped
  exact List.length_pos_iff.mp (Rencodeplus.encoding_filled v)

/-- rencodeplus at both ends, with a compressor that the peer undoes. -/
def rencodeplusCodec (bigEndian chunks : Bool) (compressionLevel : Nat)
    (compress : Bytes → Nat → Except Exn (Nat × Bytes)) (codecs : Codecs)
    (decoder : codecs.decoders "rencodeplus" = some (Rencodeplus.loads bigEndian))
    (undone : ∀ flags main level data, main ≠ [] →
      compress main compressionLevel = .ok (level, data) →
      level < 256 ∧ data ≠ [] ∧ openedData codecs ⟨flags, 0, level, data⟩ = .ok main) :
    PeerCodec (rencodeplusSettings bigEndian chunks compressionLevel compress) codecs where
  received := Rencodeplus.decoded
  Writes packet := Rencodeplus.Encodable (.list packet) ∧ Rencodeplus.Sized (.list packet) ∧
    (Rencodeplus.encoding (.list packet)).length < 2 ^ 32
  decodes := by
    rintro packet main flags ⟨encodable, sized, fits⟩ written
    obtain ⟨data, dumped, same⟩ := ok_of_bind written
    cases same
    obtain ⟨bs, dumped', _, loaded, _⟩ := Rencodeplus.loads_dumps bigEndian _ encodable sized fits
    rw [dumped] at dumped'
    cases dumped'
    have type : getPacketEncodingType FLAGS_RENCODEPLUS = "rencodeplus" := rfl
    simp only [SocketProtocol.decode, type, decoder, loaded, Rencodeplus.decoded, decodedItems_eq]
    rfl
  writesData := by
    rintro packet main flags ⟨encodable, sized, fits⟩ written
    obtain ⟨data, dumped, same⟩ := ok_of_bind written
    cases same
    exact ⟨dumps_filled encodable sized fits dumped, by decide, by decide⟩
  decompresses := by
    rintro packet main flags level data ⟨encodable, sized, fits⟩ written compressed
    obtain ⟨dump, dumped, same⟩ := ok_of_bind written
    cases same
    exact undone _ main level data (dumps_filled encodable sized fits dumped) compressed
  text t := by simp [Rencodeplus.decoded]
  element := by
    intro v accepted
    cases v with
    | none => cases accepted
    | float bits => cases accepted
    | _ => simp [Rencodeplus.decoded, isPacketElement]

/-- Without a compressor. -/
def nocompress (data : Bytes) (_level : Nat) : Except Exn (Nat × Bytes) := .ok (0, data)

def plainSettings : Settings := rencodeplusSettings false true 0 nocompress

def plainCodec : PeerCodec plainSettings plainReceiver.codecs :=
  rencodeplusCodec false true 0 nocompress plainReceiver.codecs rfl (by
    intro flags main level data filled compressed
    cases compressed
    exact ⟨by decide, filled, rfl⟩)

/-- Some pixels that are never inlined. -/
def pixels : Compressed := ⟨[1, 2, 3], false, false, none⟩

/-- A text, and pixels that get a chunk of their own each. -/
def pixelsPacket (count : Nat) : Packet := ⟨"draw", List.replicate count (.compressed pixels)⟩

theorem rawItems_pixels {count : Nat} {c : Compressed}
    (member : c ∈ rawItems plainSettings (pixelsPacket count)) : c = pixels := by
  obtain ⟨item, inside, found⟩ := List.mem_filterMap.mp member
  rcases List.mem_cons.mp inside with rfl | inside
  · cases found
  · rw [List.eq_of_mem_replicate inside] at found
    cases found
    rfl

theorem mainValue_pixels (count : Nat) : (pixelsPacket count).items.map (mainValue plainSettings) =
    .str "draw" :: List.replicate count (.bytes []) := by
  rw [Packet.items, pixelsPacket, List.map_cons, List.map_replicate]
  rfl

theorem pixels_uncompresses : Uncompresses plainReceiver.codecs pixels := ⟨by decide, [1, 2, 3], rfl⟩

theorem encodeItems_pixels (i count : Nat) :
    encodeItems plainSettings "draw" i (List.replicate count (.compressed pixels)) =
      .ok (List.replicate count (.bytes []),
        rawChunks plainSettings i (List.replicate count (.compressed pixels)), 0) := by
  induction count generalizing i with
  | zero => rfl
  | succ count ih =>
      simp only [List.replicate_succ, encodeItems, ih, bind, Except.bind]
      rfl

/-- Without a compression level the main packet is what was dumped. -/
theorem encode_pixels {count : Nat} {data : Bytes}
    (dumped : Rencodeplus.dumps false (.list (.str "draw" :: List.replicate count (.bytes []))) =
      .ok data) :
    encode plainSettings (pixelsPacket count) =
      .ok (rawChunks plainSettings 0 (pixelsPacket count).items ++
        [⟨FLAGS_RENCODEPLUS, 0, 0, data⟩]) := by
  have items : encodeItems plainSettings "draw" 0 (pixelsPacket count).items =
      .ok (.str "draw" :: List.replicate count (.bytes []),
        rawChunks plainSettings 0 (pixelsPacket count).items, 0) := by
    simp only [Packet.items, pixelsPacket, encodeItems, encodeItems_pixels, bind, Except.bind]
    rfl
  have written : plainSettings.encode (.str "draw" :: List.replicate count (.bytes [])) =
      .ok (data, FLAGS_RENCODEPLUS) := by
    simp only [plainSettings, rencodeplusSettings, dumped, bind, Except.bind]
  have level : ¬ (plainSettings.compressionLevel > 0 ∧ data.length > MIN_COMPRESS_SIZE + 0) :=
    fun both => absurd both.1 (by decide)
  have type : (pixelsPacket count).packetType = "draw" := rfl
  simp only [encode, type, items, doEncode, written, bind, Except.bind, if_neg level]

/-- Three raw chunks arrive. -/
theorem encode_delivers_draw :
    Delivers plainSender plainReceiver false ⟨none, 0⟩ none
      [rawChunk 1 pixels, rawChunk 2 pixels, rawChunk 3 pixels,
        ⟨FLAGS_RENCODEPLUS, 0, 0, [196, 132, 100, 114, 97, 119, 48, 47, 48, 47, 48, 47]⟩]
      (receivedPacket plainCodec (pixelsPacket 3)) ↔
    (rawItems plainSettings (pixelsPacket 3)).length ≤ 3 ∧
      ∀ c ∈ rawItems plainSettings (pixelsPacket 3), c.data ≠ [] := by
  have writes : plainCodec.Writes (.str "draw" :: List.replicate 3 (.bytes [])) :=
    ⟨⟨trivial, trivial, trivial, trivial, trivial⟩,
      ⟨(by decide : (Rencodeplus.utf8 "draw").length < 2 ^ 31), (by decide : 0 < 2 ^ 31),
        (by decide : 0 < 2 ^ 31), (by decide : 0 < 2 ^ 31), trivial⟩, by decide⟩
  have dumped := Rencodeplus.dumps_ok false _ writes.1 writes.2.1 writes.2.2
  apply encode_delivers plainCodec plainPaired (fun named => absurd rfl named) false (pixelsPacket 3)
    (by decide)
  · exact encode_pixels dumped
  · rw [mainValue_pixels]
    exact writes
  · intro c member
    rw [rawItems_pixels member]
    exact pixels_uncompresses
  · unfold WithinLimits
    decide

theorem not_encode_delivers :
    ¬ ∀ (packet : Packet) (chunks : List Chunk), packet.items.length < 16 →
      encode plainSettings packet = .ok chunks →
      (∀ c ∈ chunks, WithinLimits plainSender plainReceiver c) →
      Delivers plainSender plainReceiver false ⟨none, 0⟩ none chunks
        (receivedPacket plainCodec packet) := by
  intro delivers
  have writes : plainCodec.Writes (.str "draw" :: List.replicate 4 (.bytes [])) :=
    ⟨⟨trivial, trivial, trivial, trivial, trivial, trivial⟩,
      ⟨(by decide : (Rencodeplus.utf8 "draw").length < 2 ^ 31), (by decide : 0 < 2 ^ 31),
        (by decide : 0 < 2 ^ 31), (by decide : 0 < 2 ^ 31), (by decide : 0 < 2 ^ 31), trivial⟩,
      by decide⟩
  have dumped := Rencodeplus.dumps_ok false _ writes.1 writes.2.1 writes.2.2
  have limits : ∀ c ∈ rawChunks plainSettings 0 (pixelsPacket 4).items ++ [⟨FLAGS_RENCODEPLUS, 0, 0,
      [197, 132, 100, 114, 97, 119, 48, 47, 48, 47, 48, 47, 48, 47]⟩],
      WithinLimits plainSender plainReceiver c := by
    unfold WithinLimits
    decide
  refine not_delivers_of_many plainPaired (fun named => absurd rfl named) false (by decide) ?_ ?_
    (fun c member => limits c (List.mem_append_left _ member)) _ (by decide) _
    (delivers (pixelsPacket 4) _ (by decide) (encode_pixels dumped) limits)
  · intro c member
    rw [rawItems_pixels member]
    exact pixels_uncompresses
  · intro c member
    rw [rawItems_pixels member]
    decide

end Catlink.Delivery
