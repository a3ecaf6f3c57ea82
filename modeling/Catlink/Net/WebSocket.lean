import Catlink.Python
import Catlink.Lib.BigEndian

/-! WebSocket frames: header, mask, and the reassembly of fragmented messages. -/

namespace Catlink.WebSocket

open BigEndian

abbrev OPCODE_CONTINUE : Nat := 0
abbrev OPCODE_TEXT : Nat := 1
abbrev OPCODE_BINARY : Nat := 2
abbrev OPCODE_CLOSE : Nat := 8
abbrev OPCODE_PING : Nat := 9
abbrev OPCODE_PONG : Nat := 10

/-- 2^30-1 -/
abbrev MAX_WEBSOCKET_PAYLOAD : Nat := 0x3FFFFFFF

def encodeHybiHeader (opcode payloadLen : Nat) (hasMask fin : Bool) : Except Exn Bytes :=
  if opcode &&& 0x0f ≠ opcode then .error (.valueError s!"invalid opcode {opcode}")
  else
    let maskBit := if hasMask then 0x80 else 0
    let b1 := UInt8.ofNat (opcode ||| if fin then 0x80 else 0)
    if payloadLen ≤ 125 then .ok [b1, UInt8.ofNat (payloadLen ||| maskBit)]
    else if payloadLen < 65536 then .ok (b1 :: UInt8.ofNat (126 ||| maskBit) :: encodeBE 2 payloadLen)
    else if payloadLen < 2 ^ 64 then .ok (b1 :: UInt8.ofNat (127 ||| maskBit) :: encodeBE 8 payloadLen)
    else .error (.structError "int too large to convert")

/-! ### Masks -/

/-- The byte at `i` of some data, with its mask. -/
def maskByte (mask data : Bytes) (i : Nat) : UInt8 := data.getD i 0 ^^^ mask.getD (i &&& 0x3) 0

/-- `mask_value`, for the 32-bit words after `initialChars` bytes. -/
def maskValue (mask : Bytes) (initialChars : Nat) : Nat :=
  (List.range 4).foldl (fun value i => (value <<< 8) + (mask.getD ((3 - i + initialChars) &&& 0x3) 0).toNat) 0

/-- The masked data. `align` is the alignment of the data in memory: bytes at a time until the
32-bit boundary and at the end, words of a little-endian machine in between. -/
def doHybiMask (align : Fin 4) (mask data : Bytes) : Except Exn Bytes :=
  let datalen := data.length
  if datalen > MAX_WEBSOCKET_PAYLOAD then .error (.valueError s!"data too large: {datalen} bytes")
  else
    let initialChars := 4 - align.val
    let first := (List.range (min initialChars datalen)).map (maskByte mask data)
    if datalen > initialChars then
      let steps := (datalen - initialChars) / 4
      let words := (List.range steps).flatMap fun i =>
        store false 4 (load false ((data.drop (initialChars + 4 * i)).take 4) ^^^ maskValue mask initialChars)
      let lastChars := (datalen - initialChars) &&& 0x3
      let last := (List.range lastChars).map fun i => maskByte mask data (datalen - lastChars + i)
      .ok (first ++ words ++ last)
    else .ok first

def hybiMask (align : Fin 4) (mask data : Bytes) : Except Exn Bytes :=
  if mask.length ≠ 4 then .error (.valueError s!"invalid mask buffer size: {mask.length} bytes")
  -- `buffer_context` takes no empty buffer
  else if data = [] then .error (.valueError "empty <class 'bytes'> buffer")
  else doHybiMask align mask data

/-- `min_len` is an unsigned int. The data is that of a frame, which has a header. -/
def hybiUnmask (align : Fin 4) (data : Bytes) (offset datalen : Nat) : Except Exn Bytes :=
  let minLen := (offset + 4 + datalen) % 2 ^ 32
  if data.length < minLen then .error (.valueError s!"buffer too small {data.length} vs {minLen}: offset={offset}, datalen={datalen}")
  else doHybiMask align ((data.drop offset).take 4) ((data.drop (offset + 4)).take datalen)

/-- `(opcode, payload, length, fin)` -/
structure Frame where
  opcode : Nat
  payload : Bytes
  length : Nat
  fin : Bool
  deriving DecidableEq, Repr

/-- The lengths of the header and of the payload, nothing when there is not enough data. -/
def hybiLengths (buf : Bytes) (masked : Bool) (payloadLen : Nat) : Option (Nat × Nat) :=
  let hlen := if masked then 6 else 2
  if buf.length < hlen then none
  else if payloadLen = 126 then
    if buf.length < hlen + 2 then none else some (hlen + 2, decodeBE ((buf.drop 2).take 2))
  else if payloadLen = 127 then
    if buf.length < hlen + 8 then none else some (hlen + 8, decodeBE ((buf.drop 2).take 8))
  else some (hlen, payloadLen)

/-- Nothing when there is not enough data for a whole frame. -/
def decodeHybi (align : Fin 4) : Bytes → Except Exn (Option Frame)
  | b1 :: b2 :: rest =>
      let buf := b1 :: b2 :: rest
      let opcode := b1.toNat &&& 0x0f
      let fin : Bool := decide (b1.toNat &&& 0x80 ≠ 0)
      let masked : Bool := decide (b2.toNat &&& 0x80 ≠ 0)
      match hybiLengths buf masked (b2.toNat &&& 0x7f) with
      | none => .ok none
      | some (hlen, payloadLen) =>
          let length := hlen + payloadLen
          if buf.length < length then .ok none
          else if masked then do
            let payload ← hybiUnmask align buf (hlen - 4) payloadLen
            .ok (some ⟨opcode, payload, length, fin⟩)
          else .ok (some ⟨opcode, (buf.drop hlen).take payloadLen, length, fin⟩)
  | _ => .ok none

/-! ### Sending -/

/-- `hybi_mask(mask, item)` for every item; with the alignment of each. -/
def maskItems (mask : Bytes) : List (Fin 4) → List Bytes → Except Exn (List Bytes)
  | _, [] => .ok []
  | aligns, item :: items => do
      let item ← hybiMask (aligns.headD 0) mask item
      let items ← maskItems mask aligns.tail items
      .ok (item :: items)

/-- The frame header, and the items as it leaves them; `urandom` is what `os.urandom(4)` returns. -/
def makeWsframeHeader (wsMask : Bool) (urandom : Bytes) (aligns : List (Fin 4)) (items : List Bytes) :
    Except Exn (Bytes × List Bytes) := do
  let payloadLen := (items.map List.length).sum
  let header ← encodeHybiHeader OPCODE_BINARY payloadLen wsMask true
  if wsMask then
    let items ← maskItems urandom aligns items
    .ok (header ++ urandom, items)
  else .ok (header, items)

/-! ### Receiving -/

structure WsState where
  wsData : Bytes
  wsPayload : List Bytes
  wsPayloadOpcode : Nat
  closed : Bool
  deriving DecidableEq, Repr

inductive Event
  /-- `_read_queue_put` -/
  | readQueuePut (payload : Bytes)
  | pong (payload : Bytes)
  /-- `_connection_lost`, which closes the connection -/
  | connectionLost (reason : Bytes)
  deriving DecidableEq, Repr

/-- What a whole payload is for. -/
def processPayload (st : WsState) (opcode : Nat) (fullPayload : Bytes) : WsState × List Event :=
  if opcode = OPCODE_BINARY ∨ opcode = OPCODE_TEXT then
    -- an empty payload is only worth a warning
    if fullPayload = [] then (st, []) else (st, [.readQueuePut fullPayload])
  else if opcode = OPCODE_CLOSE then
    ({ st with wsData := [], wsPayload := [], closed := true }, [.connectionLost fullPayload])
  else if opcode = OPCODE_PING then (st, [.pong fullPayload])
  else (st, [])

/-- What a frame adds to the fragments there are. -/
def processFrame (st : WsState) (frame : Frame) : Except Exn (WsState × List Event) :=
  if frame.opcode = OPCODE_CONTINUE then
    if st.wsPayloadOpcode = 0 ∨ st.wsPayload = [] then
      .error (.assertionError "continuation frame does not follow a partial frame")
    else
      let wsPayload := st.wsPayload ++ [frame.payload]
      if ¬frame.fin then .ok ({ st with wsPayload }, [])
      else
        .ok (processPayload { st with wsPayload := [], wsPayloadOpcode := 0 } st.wsPayloadOpcode
          wsPayload.flatten)
  else if st.wsPayload ≠ [] ∧ st.wsPayloadOpcode ≠ 0 then
    .error (.valueError s!"expected a continuation frame not {frame.opcode}")
  else if ¬frame.fin then
    if frame.opcode ≠ OPCODE_BINARY ∧ frame.opcode ≠ OPCODE_TEXT then
      .error (.runtimeError s!"cannot handle fragmented {frame.opcode} frames")
    else
      .ok ({ st with wsPayloadOpcode := frame.opcode, wsPayload := st.wsPayload ++ [frame.payload] }, [])
  else .ok (processPayload st frame.opcode frame.payload)

/-- `while ws_data and not self._closed`, with `fuel` turns; `align` is by the data left. -/
def parseFrames (align : Bytes → Fin 4) : Nat → WsState → Bytes → Option (List Event × Except Exn WsState)
  | 0, _, _ => none
  | fuel + 1, st, wsData =>
      if wsData = [] ∨ st.closed then some ([], .ok st)
      else
        match decodeHybi (align wsData) wsData with
        | .error e => some ([], .error e)
        -- not enough data to get a full frame, save it for later
        | .ok none => some ([], .ok { st with wsData })
        | .ok (some frame) =>
            match processFrame st frame with
            | .error e => some ([], .error e)
            | .ok (st, events) => do
                let (later, result) ← parseFrames align fuel st (wsData.drop frame.length)
                some (events ++ later, result)

/-- `while self.input_packetcount == 0 and ws_data.startswith(b"\r\n")` -/
def stripNewlines (inputPacketcount : Nat) : Bytes → Bytes
  | 13 :: 10 :: wsData =>
      if inputPacketcount = 0 then stripNewlines inputPacketcount wsData else 13 :: 10 :: wsData
  | wsData => wsData

/-- A buffer that is read, the packets counted by then, and where its data is in memory. -/
structure Read where
  buf : Bytes
  inputPacketcount : Nat
  align : Bytes → Fin 4

def parseWsFrame (st : WsState) (read : Read) : Option (List Event × Except Exn WsState) :=
  let wsData := stripNewlines read.inputPacketcount (st.wsData ++ read.buf)
  parseFrames read.align (wsData.length + 1) { st with wsData := [] } wsData

/-- The buffers that are read, one after the other. -/
def parseReads : WsState → List Read → Option (List Event × Except Exn WsState)
  | st, [] => some ([], .ok st)
  | st, read :: reads => do
      let (events, result) ← parseWsFrame st read
      match result with
      | .error e => some (events, .error e)
      | .ok st => do
          let (later, result) ← parseReads st reads
          some (events ++ later, result)

end Catlink.WebSocket
