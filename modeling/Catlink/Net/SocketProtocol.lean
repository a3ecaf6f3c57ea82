import Catlink.Net.Header
import Catlink.Net.Crypto

/-! The two ends of a packet connection: queueing the chunks of a packet, and the parse loop. -/

namespace Catlink.SocketProtocol

open Header Crypto

variable {σ : Type}

/-! ### Sending -/

/-- One entry of the list `encode` returns: `(proto_flags, index, level, data)`. -/
structure Chunk where
  protoFlags : Nat
  index : Nat
  level : Nat
  data : Bytes
  deriving DecidableEq, Repr

structure Sender (σ : Type) where
  lib : Backend σ
  cipherOut : CipherSettings
  packetJoinSize : Nat
  /-- `make_frame_header`: the header, and the items as it leaves them -/
  makeFrameHeader : List Bytes → Bytes × List Bytes
  /-- the results of successive `os.urandom(16)` calls -/
  urandom : Nat → Bytes

/-- What sending changes: the running encryption context and the random bytes drawn. -/
structure SendState (σ : Type) where
  encryptor : Option σ
  draws : Nat

def noframeHeader (items : List Bytes) : Bytes × List Bytes := ([], items)

/-- `make_chunk_header` of this class, `make_xpra_header`. -/
def makeXpraHeader (protoFlags level index payloadSize : Nat) : Except Exn Bytes :=
  packHeader protoFlags level index payloadSize

/-- The flags, the payload and the announced size of a chunk, encrypted when there is a cipher. -/
def chunkPayload (s : Sender σ) (st : SendState σ) (c : Chunk) :
    Except Exn (Nat × Bytes × Nat × SendState σ) :=
  if s.cipherOut.name = "" then .ok (c.protoFlags, c.data, c.data.length, st)
  else do
    let e ← encrypt s.lib s.cipherOut st.encryptor (s.urandom st.draws) c.data
    let draws := if s.cipherOut.stream then st.draws else st.draws + 1
    .ok (c.protoFlags ||| FLAGS_CIPHER, e.payload, e.payloadSize, ⟨e.encryptor, draws⟩)

/-- One turn of the loop of `_add_chunks_to_queue`: the items it appends. -/
def chunkItems (s : Sender σ) (more : Bool) (st : SendState σ) (c : Chunk) :
    Except Exn (List Bytes × SendState σ) :=
  if c.data = [] then .error (.runtimeError s!"missing data in chunk {c.index}")
  else do
    let (protoFlags, payload, size, st) ← chunkPayload s st c
    if protoFlags &&& FLAGS_NOHEADER ≠ 0 then
      -- plain text, without a header (`cipher_out` is never set by this class)
      .ok ([payload], st)
    else do
      let protoFlags := if c.index = 0 ∧ ¬ more then protoFlags ||| FLAGS_FLUSH else protoFlags
      let header ← makeXpraHeader protoFlags c.level c.index size
      if size < s.packetJoinSize then .ok ([header ++ payload], st)
      else .ok ([header, payload], st)

def chunksItems (s : Sender σ) (more : Bool) :
    SendState σ → List Chunk → Except Exn (List Bytes × SendState σ)
  | st, [] => .ok ([], st)
  | st, c :: chunks => do
      let (items, st) ← chunkItems s more st c
      let (rest, st) ← chunksItems s more st chunks
      .ok (items ++ rest, st)

/-- The items `_add_chunks_to_queue` gives to `raw_write`. -/
def addChunksToQueue (s : Sender σ) (more : Bool) (st : SendState σ) (chunks : List Chunk) :
    Except Exn (List Bytes × SendState σ) := do
  let (items, st) ← chunksItems s more st chunks
  let (frameHeader, items) := s.makeFrameHeader items
  if frameHeader = [] then .ok (items, st)
  else
    match items with
    | [] => .error (.indexError "list index out of range")
    | item0 :: rest =>
        if item0.length < s.packetJoinSize then .ok ((frameHeader ++ item0) :: rest, st)
        else .ok (frameHeader :: item0 :: rest, st)

/-! ### Decoders -/

/-- The tables `COMPRESSION` and `ENCODERS`, by name, as far as the receiving side uses them. -/
structure Codecs where
  decompressors : String → Option (Bytes → Except Exn Bytes)
  decoders : String → Option (Bytes → Except Exn PyVal)

def getCompressionType (level : Nat) : String :=
  if level &&& LZ4_FLAG ≠ 0 then "lz4"
  else if level &&& BROTLI_FLAG ≠ 0 then "brotli"
  else "zlib"

/-- `decompress`, through `decompress_by_name`; both choose the algorithm by the same flags. -/
def decompress (codecs : Codecs) (data : Bytes) (level : Nat) : Except Exn Bytes :=
  let algo := getCompressionType level
  match codecs.decompressors algo with
  | none => .error (.invalidCompression s!"{algo} is not available")
  | some f => f data

def getPacketEncodingType (protocolFlags : Nat) : String :=
  if protocolFlags &&& FLAGS_RENCODEPLUS ≠ 0 then "rencodeplus"
  else if protocolFlags &&& FLAGS_RENCODE ≠ 0 then "rencode"
  else if protocolFlags &&& FLAGS_YAML ≠ 0 then "yaml"
  else "bencode"

def decode (codecs : Codecs) (data : Bytes) (protocolFlags : Nat) : Except Exn PyVal :=
  let ptype := getPacketEncodingType protocolFlags
  match codecs.decoders ptype with
  | none => .error (.invalidPacketEncoding s!"{ptype} decoder is not available")
  | some f => f data

/-! ### Receiving -/

/-- The fields of the receiving end that the parse loop reads and does not change. -/
structure Receiver (σ : Type) where
  lib : Backend σ
  cipherIn : CipherSettings
  codecs : Codecs
  maxPacketSize : Nat
  absMaxPacketSize : Nat

/-- How the parse loop ends, other than by waiting for data. -/
inductive Ending
  /-- the empty marker was read from the queue -/
  | closed
  | invalidHeader (data : Bytes) (msg : String)
  | invalid (msg : String) (data : Bytes)
  | gibberish (msg : String) (data : Bytes)
  /-- `decrypt` returned nothing; with the text of the internal error, if it reported one -/
  | decryptFailed (internalError : Option String)
  /-- an exception that the loop does not catch -/
  | raised (e : Exn)
  deriving DecidableEq, Repr

/-- What the loop does besides changing its own state. -/
inductive Event
  | processPacket (packet : List PyVal)
  /-- `timeout_add(1000, check_packet_size, size, header)` -/
  | checkPacketSize (size : Nat) (header : Bytes)
  deriving Repr

/-- The local variables of `do_read_parse_thread_loop`, with `wait_for_header` and the running
decryption context. -/
structure ParseState (σ : Type) where
  waitForHeader : Bool
  decryptor : Option σ
  header : Bytes := []
  readBuffers : List Bytes := []
  payloadSize : Int := -1
  padding : Nat := 0
  packetIndex : Nat := 0
  protocolFlags : Nat := 0
  compressionLevel : Nat := 0
  /-- in insertion order -/
  rawPackets : List (Nat × Bytes) := []

/-- `hex(n)` of a byte -/
def hexByte (b : UInt8) : String :=
  "0x" ++ String.ofList (Nat.toDigits 16 b.toNat)

/-- `repr` of a byte string -/
def reprBytes (data : Bytes) : String :=
  let quote : UInt8 := if 39 ∈ data ∧ 34 ∉ data then 34 else 39
  let shown (b : UInt8) : List Char :=
    let digits := Nat.toDigits 16 b.toNat
    if b = quote ∨ b = 92 then [Char.ofNat 92, Char.ofNat b.toNat]
    else if b = 9 then [Char.ofNat 92, 't']
    else if b = 10 then [Char.ofNat 92, 'n']
    else if b = 13 then [Char.ofNat 92, 'r']
    else if 32 ≤ b ∧ b < 127 then [Char.ofNat b.toNat]
    else Char.ofNat 92 :: 'x' :: (if digits.length < 2 then '0' :: digits else digits)
  String.ofList ('b' :: Char.ofNat quote.toNat :: data.flatMap shown ++ [Char.ofNat quote.toNat])

/-- What a stage of one turn of the inner loop does next. -/
inductive Flow (σ : Type)
  /-- fall through to the next stage -/
  | next (st : ParseState σ) (events : List Event)
  /-- `continue`, or the end of the turn -/
  | again (st : ParseState σ) (events : List Event)
  /-- `break` -/
  | wait (st : ParseState σ) (events : List Event)
  /-- `return`, or an exception -/
  | ended (e : Ending) (events : List Event)

def Flow.after (earlier : List Event) : Flow σ → Flow σ
  | .next st events => .next st (earlier ++ events)
  | .again st events => .again st (earlier ++ events)
  | .wait st events => .wait st (earlier ++ events)
  | .ended e events => .ended e (earlier ++ events)

/-- `padding_size` of the parse loop: no cipher, no padding. -/
def headerPadding (r : Receiver σ) (h : PacketHeader) : Nat :=
  if h.protocolFlags &&& FLAGS_CIPHER ≠ 0 then paddingSize r.cipherIn h.dataSize else 0

/-- The checks made of a complete header, and the sizes computed from it. -/
def parseHeader (r : Receiver σ) (header : Bytes) :
    Except Ending (PacketHeader × Nat × Nat × List Event) :=
  match unpackHeader header with
  | .error e => .error (.raised e)
  | .ok h =>
      if h.dataSize > r.absMaxPacketSize then
        .error (.invalidHeader header s!"invalid size in packet header: {h.dataSize}")
      else if h.packetIndex ≥ 16 then
        .error (.invalidHeader header s!"invalid packet index: {h.packetIndex}")
      else if h.protocolFlags &&& FLAGS_CIPHER ≠ 0 ∧ r.cipherIn.name = "" then
        .error (.invalidHeader header "invalid encryption packet flag (no cipher configured)")
      else if h.dataSize + headerPadding r h ≤ 0 then
        .error (.raised (.valueError
          s!"invalid payload size {h.dataSize + headerPadding r h} for header {reprBytes header}"))
      else
        let payloadSize := h.dataSize + headerPadding r h
        .ok (h, payloadSize, headerPadding r h,
          if payloadSize > r.maxPacketSize then [.checkPacketSize payloadSize header] else [])

/-- `if payload_size < 0`: complete the header from the first buffer. -/
def readHeader (r : Receiver σ) (st : ParseState σ) (buf : Bytes) (others : List Bytes) : Flow σ :=
  if st.header = [] ∧ buf.head? ≠ some PACKET_HEADER_CHAR then
    .ended (.invalidHeader buf s!"invalid packet header byte {hexByte (buf.headD 0)}") []
  else
    let read := min buf.length (HEADER_SIZE - st.header.length)
    let header := st.header ++ buf.take read
    if header.length < HEADER_SIZE then
      -- need to process more buffers to get a full header
      .again { st with header := header, readBuffers := others } []
    else if buf.length ≤ read then
      -- we only got the header
      .again { st with header := header, readBuffers := others } []
    else
      match parseHeader r header with
      | .error e => .ended e []
      | .ok (h, payloadSize, padding, events) =>
          .next { st with
            header := header
            readBuffers := buf.drop read :: others
            payloadSize := payloadSize
            padding := padding
            packetIndex := h.packetIndex
            protocolFlags := h.protocolFlags
            compressionLevel := h.compressionLevel } events

/-- Slice `size` bytes off the buffers, in the three ways of the source. -/
def slicePayload (size : Nat) (buffers : List Bytes) : Option (Bytes × List Bytes) :=
  -- incomplete packet, wait for the rest to arrive
  if (buffers.map List.length).sum < size then none
  else
    match buffers with
    -- only for a size of 0, which `parseHeader` refuses
    | [] => some ([], [])
    | buf :: others =>
        if buf.length = size then some (buf, others)
        else if buf.length > size then some (buf.take size, buf.drop size :: others)
        else
          let rawData := (buf :: others).flatten
          if rawData.length = size then some (rawData, [])
          else some (rawData.take size, [rawData.drop size])

/-- `if self.cipher_in_name` -/
def decryptPayload (r : Receiver σ) (decryptor : Option σ) (protocolFlags padding : Nat)
    (rawData : Bytes) : Except Ending (Bytes × Option σ) :=
  if r.cipherIn.name = "" then .ok (rawData, decryptor)
  else if protocolFlags &&& FLAGS_CIPHER = 0 then
    .error (.invalid "unencrypted packet dropped" rawData)
  else
    match decrypt r.lib r.cipherIn decryptor rawData padding with
    | .error e => .error (.raised e)
    | .ok d => if d.data = [] then .error (.decryptFailed d.internalError) else .ok (d.data, d.decryptor)

/-- `if compression_level > 0` -/
def uncompressPayload (codecs : Codecs) (compressionLevel : Nat) (data : Bytes) :
    Except Ending Bytes :=
  if compressionLevel > 0 then
    match decompress codecs data compressionLevel with
    | .ok data => .ok data
    | .error (.invalidCompression text) => .error (.invalid s!"invalid compression: {text}" data)
    -- `cipher_in` is never set by this class: the exception text is always included
    | .error e =>
        .error (.gibberish s!"{getCompressionType compressionLevel} packet decompression failed {e.text}" data)
  else .ok data

/-- Decrypt and uncompress what was sliced off. -/
def openPayload (r : Receiver σ) (decryptor : Option σ) (protocolFlags padding compressionLevel : Nat)
    (rawData : Bytes) : Except Ending (Bytes × Option σ) := do
  let (data, decryptor) ← decryptPayload r decryptor protocolFlags padding rawData
  let data ← uncompressPayload r.codecs compressionLevel data
  .ok (data, decryptor)

/-- `packet[index] = raw_data` for every raw packet, in the order they came. -/
def placeRawPackets : List PyVal → List (Nat × Bytes) → Except Exn (List PyVal)
  | packet, [] => .ok packet
  | packet, (index, rawData) :: rest =>
      if index < packet.length then placeRawPackets (packet.set index (.bytes rawData)) rest
      else .error (.indexError "list assignment index out of range")

/-- The element types `Packet` accepts after the packet type. -/
def isPacketElement : PyVal → Bool
  | .none | .float _ => false
  | _ => true

/-- `Packet(*packet)` raises nothing. -/
def packetAccepts : List PyVal → Bool
  | .str _ :: data => data.all isPacketElement
  | _ => false

/-- The main packet: decode it, put the raw packets back, and call back. -/
def finalPacket (r : Receiver σ) (protocolFlags : Nat) (rawPackets : List (Nat × Bytes))
    (data : Bytes) : Except Ending (List Event) :=
  match decode r.codecs data protocolFlags >>= pyList with
  | .error (.invalidPacketEncoding text) => .error (.invalid s!"invalid packet encoding: {text}" data)
  | .error (.valueError _) | .error (.typeError _) | .error (.indexError _) =>
      .error (.gibberish s!"failed to parse {getPacketEncodingType protocolFlags} packet" data)
  | .error e => .error (.raised e)
  | .ok packet =>
      match placeRawPackets packet rawPackets with
      | .error e => .error (.raised e)
      -- `str(packet[0])`
      | .ok [] => .error (.raised (.indexError "list index out of range"))
      | .ok packet => .ok (if packetAccepts packet then [.processPacket packet] else [])

/-- What happens to a whole payload: the raw packets kept, and the events. -/
def processPayload (r : Receiver σ) (packetIndex protocolFlags : Nat)
    (rawPackets : List (Nat × Bytes)) (data : Bytes) : Except Ending (List (Nat × Bytes) × List Event) :=
  if packetIndex > 0 then
    if packetIndex ∈ rawPackets.map Prod.fst then
      .error (.invalid s!"duplicate raw packet at index {packetIndex}" data)
    else
      let rawPackets := rawPackets ++ [(packetIndex, data)]
      if rawPackets.length ≥ 4 then
        .error (.invalid s!"too many raw packets: {rawPackets.length}" data)
      else .ok (rawPackets, [])
  else do
    let events ← finalPacket r protocolFlags rawPackets data
    .ok ([], events)

/-- The rest of a turn, once the header is known. -/
def readPayload (r : Receiver σ) (st : ParseState σ) : Flow σ :=
  match slicePayload st.payloadSize.toNat st.readBuffers with
  | none => .wait st []
  | some (rawData, buffers) =>
      match openPayload r st.decryptor st.protocolFlags st.padding st.compressionLevel rawData with
      | .error e => .ended e []
      | .ok (data, decryptor) =>
          match processPayload r st.packetIndex st.protocolFlags st.rawPackets data with
          | .error e => .ended e []
          | .ok (rawPackets, events) =>
              -- make sure we get a new header next time
              .again { st with
                header := []
                readBuffers := buffers
                payloadSize := -1
                decryptor := decryptor
                rawPackets := rawPackets } events

/-- One turn of `while read_buffers`. -/
def turn (r : Receiver σ) (st : ParseState σ) (buf : Bytes) (others : List Bytes) : Flow σ :=
  if st.payloadSize < 0 then
    match readHeader r st buf others with
    | .next st events => (readPayload r st).after events
    | flow => flow
  else readPayload r st

/-- How the loop stands once its buffers are read: blocked on the queue, or over. -/
inductive Stand (σ : Type)
  | waiting (st : ParseState σ)
  | ended (e : Ending)

/-- A bound on the turns left: every turn that continues uses up a buffer or some bytes. -/
def weight (buffers : List Bytes) : Nat := (buffers.map fun buf => buf.length + 1).sum

/-- `while read_buffers`, with `fuel` turns. -/
def whileReadBuffers (r : Receiver σ) : Nat → ParseState σ → Option (List Event × Stand σ)
  | 0, _ => none
  | fuel + 1, st =>
      match st.readBuffers with
      | [] => some ([], .waiting st)
      | buf :: others =>
          match turn r st buf others with
          -- no turn ends between its stages
          | .next st events | .wait st events => some (events, .waiting st)
          | .ended e events => some (events, .ended e)
          | .again st events => do
              let (later, stand) ← whileReadBuffers r fuel st
              some (events ++ later, stand)

/-- A buffer from the read queue: append it, look for a first header, then parse. -/
def readBuffer (r : Receiver σ) (st : ParseState σ) (buf : Bytes) :
    Option (List Event × Stand σ) :=
  let readBuffers := st.readBuffers ++ [buf]
  if buf = [] then some ([], .ended .closed)
  else if st.waitForHeader then
    let joined := readBuffers.flatten
    match findXpraHeader joined with
    | none => some ([], .waiting { st with readBuffers := [joined] })
    | some pos =>
        let readBuffers := [joined.drop pos]
        whileReadBuffers r (weight readBuffers + 1)
          { st with readBuffers := readBuffers, waitForHeader := false }
  else whileReadBuffers r (weight readBuffers + 1) { st with readBuffers := readBuffers }

/-- The buffers that arrive in the read queue, one after the other. -/
def readQueue (r : Receiver σ) : ParseState σ → List Bytes → Option (List Event × Stand σ)
  | st, [] => some ([], .waiting st)
  | st, buf :: bufs => do
      let (events, stand) ← readBuffer r st buf
      match stand with
      | .ended e => some (events, .ended e)
      | .waiting st => do
          let (later, stand) ← readQueue r st bufs
          some (events ++ later, stand)

/-- The loop from its start, over everything that arrives. -/
def doReadParseThreadLoop (r : Receiver σ) (waitForHeader : Bool) (decryptor : Option σ)
    (bufs : List Bytes) : Option (List Event × Stand σ) :=
  readQueue r { waitForHeader := waitForHeader, decryptor := decryptor } bufs

end Catlink.SocketProtocol
