import Catlink.Auth.SysAuthBase
import Catlink.Lib.BigEndian
import Catlink.Net.SocketProtocol
import Catlink.Rencodeplus.Decode

/-! The RFB protocol of a server: the handshake, and the messages of the client. -/

namespace Catlink.Rfb

open Auth BigEndian

/-! ### Messages -/

/-- A format character of a struct. -/
inductive Field
  | B
  | H
  | i
  deriving DecidableEq

def Field.size : Field → Nat
  | .B => 1
  | .H => 2
  | .i => 4

def Field.value (f : Field) (data : Bytes) : Int :=
  let n := decodeBE data
  match f with
  | .B | .H => n
  | .i => if n < 2 ^ 31 then n else n - 2 ^ 32

def structSize (s : List Field) : Nat := (s.map Field.size).sum

def unpack : List Field → Bytes → List Int
  | [], _ => []
  | f :: s, data => f.value (data.take f.size) :: unpack s (data.drop f.size)

/-- `PIXEL_FORMAT` -/
def pixelFormat : List Field := [.B, .B, .B, .B, .H, .H, .H, .B, .B, .B, .B, .B, .B]

/-- `CLIENT_PACKET_TYPE_STR` -/
def clientPacketTypeStr : List (Nat × String) :=
  [(0, "SetPixelFormat"), (2, "SetEncodings"), (3, "FramebufferUpdateRequest"), (4, "KeyEvent"),
    (5, "PointerEvent"), (6, "ClientCutText"), (7, "FileTransfer"), (8, "SetScale"),
    (9, "SetServerInput"), (10, "SetSW"), (11, "TextChat"), (12, "KeyFrameRequest"),
    (13, "KeepAlive"), (15, "SetScaleFactor"), (20, "RequestSession"), (21, "SetSession"),
    (80, "NotifyPluginStreaming"), (127, "VMWare"), (128, "CarConnectivity"),
    (150, "EnableContinuousUpdates"), (248, "ClientFence"), (249, "OliveCallControl"),
    (250, "XVPClientMessage"), (251, "SetDesktopSize"), (252, "Tight"), (253, "GIIClientMessage"),
    (255, "QEMUClientMessage")]

/-- `PACKET_STRUCT` -/
def packetStruct : List (Nat × List Field) :=
  [(0, [.B, .B, .B, .B] ++ pixelFormat), (2, [.B, .B, .H]), (3, [.B, .B, .H, .H, .H, .H]),
    (4, [.B, .B, .B, .B, .i]), (5, [.B, .B, .H, .H]), (6, [.B, .B, .B, .B, .i])]

/-- What some packets carry after their struct. -/
inductive Extra
  | nothing
  | encodings (values : List Int)
  | text (data : Bytes)

/-- What the packet callback is given. -/
inductive Packet
  | authenticated
  /-- `values`, whose first is the name of the type -/
  | message (packetType : String) (values : List Int) (extra : Extra)
  | invalid (msg : String) (data : Bytes)
  | connectionLost

/-- `data[:stop]` -/
def sliceTo (data : Bytes) (stop : Int) : Bytes :=
  data.take (if stop < 0 then data.length + stop else stop).toNat

/-- `data[start:]` -/
def sliceFrom (data : Bytes) (start : Int) : Bytes :=
  data.drop (if start < 0 then data.length + start else start).toNat

/-! ### The state -/

/-- `_packet_parser` -/
inductive PacketParser
  | protocolHandshake
  | securityHandshake
  | challenge
  | securityResult
  | rfb
  | invalid
  deriving DecidableEq

/-- What `_get_rfb_pixelformat` returns. -/
structure PixelFormat where
  w : Nat
  h : Nat
  bpp : Nat
  depth : Nat
  bigendian : Bool
  truecolor : Bool
  rmax : Nat
  gmax : Nat
  bmax : Nat
  rshift : Nat
  bshift : Nat
  gshift : Nat

/-- What is sent to the client. -/
inductive Reply
  | unsupported (msg : Bytes)
  | securityTypes (types : List UInt8)
  | challenge (data : Bytes)
  | securityResult (result : Nat)
  | serverInit (format : PixelFormat) (name : Bytes)

def Reply.bytes : Reply → Bytes
  | .unsupported msg => 0 :: encodeBE 4 msg.length ++ msg
  | .securityTypes types => UInt8.ofNat types.length :: types
  | .challenge data => data
  | .securityResult result => encodeBE 4 result
  | .serverInit f name =>
      encodeBE 2 f.w ++ encodeBE 2 f.h ++
        [UInt8.ofNat f.bpp, UInt8.ofNat f.depth, f.bigendian.toUInt8, f.truecolor.toUInt8] ++
        encodeBE 2 f.rmax ++ encodeBE 2 f.gmax ++ encodeBE 2 f.bmax ++
        [UInt8.ofNat f.rshift, UInt8.ofNat f.bshift, UInt8.ofNat f.gshift, 0, 0, 0] ++
        encodeBE 4 name.length ++ name

inductive Event
  | sent (reply : Reply)
  /-- the packet callback is called -/
  | packet (packet : Packet)
  /-- a response is checked, with this salt -/
  | guess (salt : Option Bytes)
  /-- `authenticate` has returned, or raised -/
  | evaluated (accepted : Bool)

/-- A callback that the main loop has yet to call. -/
inductive Callback
  | processPacket (packet : Packet)
  | connectionLost
  | sendFailChallenge
  | close

/-- A module and its state. -/
abbrev Authenticator := Module × State

structure RFBProtocol where
  sessionName : Bytes
  authenticator : Option Authenticator
  buffer : Bytes
  packetParser : PacketParser := .protocolHandshake
  challenge : Option Bytes := none
  share : Bool := false
  closed : Bool := false
  /-- the read thread is running -/
  reading : Bool := true
  /-- it repeats one turn for ever -/
  looping : Bool := false
  callbacks : List Callback := []
  events : List Event := []

/-- What the rest of the server answers. -/
structure Outside where
  hashes : Hashes
  answers : Answers
  getRfbPixelformat : PixelFormat

def RFBProtocol.note (p : RFBProtocol) (events : List Event) : RFBProtocol :=
  { p with events := p.events ++ events }

def RFBProtocol.schedule (p : RFBProtocol) (callback : Callback) : RFBProtocol :=
  { p with callbacks := p.callbacks ++ [callback] }

/-- Nothing is sent on a closed connection. -/
def RFBProtocol.send (p : RFBProtocol) (reply : Reply) : RFBProtocol :=
  if p.closed then p else p.note [.sent reply]

/-- `_process_packet_cb` -/
def RFBProtocol.processPacket (p : RFBProtocol) (packet : Packet) : RFBProtocol :=
  p.note [.packet packet]

/-- The read thread ends when it comes back to its loop. -/
def RFBProtocol.close (p : RFBProtocol) : RFBProtocol :=
  if p.closed then p
  else { p with closed := true }.processPacket .connectionLost

def RFBProtocol.invalid (p : RFBProtocol) (msg : String) (data : Bytes) : RFBProtocol :=
  ({ p with packetParser := .invalid }.schedule (.processPacket (.invalid msg data))).schedule
    .connectionLost

def hexstr (data : Bytes) : String :=
  String.ofList (data.flatMap fun b =>
    let digits := Nat.toDigits 16 b.toNat
    if digits.length < 2 then '0' :: digits else digits)

def ellipsize (text : String) : String :=
  let chars := text.toList
  if 100 < chars.length
  then String.ofList (chars.take 48) ++ " .. " ++ String.ofList (chars.drop (chars.length - 48))
  else text

def RFBProtocol.invalidHeader (p : RFBProtocol) (data : Bytes) (msg : String) : RFBProtocol :=
  let err := msg ++ ": '" ++ hexstr (data.take 8) ++ "'"
  let err := if 1 < data.length
    then err ++ " read buffer=" ++ ellipsize (SocketProtocol.reprBytes data) ++ " (" ++
      toString data.length ++ " bytes)"
    else err
  p.invalid err data

def RFBProtocol.internalError (p : RFBProtocol) : RFBProtocol :=
  if p.closed then p else p.schedule .connectionLost

/-! ### Parsers: each returns how many bytes it has consumed -/

abbrev Parsed := RFBProtocol × Except Exn Int

def RFBProtocol.requiresChallenge (p : RFBProtocol) : Bool :=
  match p.authenticator with
  | none => false
  | some (m, _) => m.requiresChallenge

/-- `RFBAuth` -/
def authNone : UInt8 := 1

def authVnc : UInt8 := 2

def handshakeComplete (p : RFBProtocol) : RFBProtocol :=
  let types := if p.requiresChallenge then [authVnc] else [authNone]
  { p with packetParser := .securityHandshake }.send (.securityTypes types)

/-- `data.split(b".")` -/
def splitPoints (data : Bytes) : List Bytes :=
  data.foldr (fun b parts =>
    if b = 46 then [] :: parts
    else match parts with
      | [] => [[b]]
      | part :: parts => (b :: part) :: parts) [[]]

def unsupportedMsg : Bytes := "unsupported protocol version".toUTF8.toList

def parseProtocolHandshake (p : RFBProtocol) (rfbdata : Bytes) : Parsed :=
  if rfbdata.length < 12 then (p, .ok 0)
  else if [82, 70, 66, 32].isPrefixOf rfbdata = false then
    (p.invalidHeader rfbdata "invalid RFB protocol handshake rfbdata header", .ok 0)
  else
    match (splitPoints ((rfbdata.take 11).drop 4)).mapM Rencodeplus.pyInt with
    | .error e => (p, .error e)
    | .ok protocolVersion =>
        if protocolVersion ≠ [3, 8] then
          -- `invalid` is given the text as bytes
          ((p.send (.unsupported unsupportedMsg)).invalid "unsupported protocol version" rfbdata,
            .ok 0)
        else (handshakeComplete p, .ok 12)

def parseSecurityHandshake (o : Outside) (p : RFBProtocol) (rfbdata : Bytes) : Parsed :=
  match rfbdata with
  | [auth] =>
      if auth = authVnc then
        let p := { p with packetParser := .challenge }
        match p.authenticator with
        | none => (p, .error (.assertionError ""))
        | some (m, s) =>
            match m.getChallenge o.answers.getSalt s ["des"] with
            | (s, .error e) => ({ p with authenticator := some (m, s) }, .error e)
            | (s, .ok (challenge, digest)) =>
                let p := { p with authenticator := some (m, s) }
                if digest ≠ "des" then
                  (p, .error (.assertionError s!"invalid digest '{digest}', only 'des' is supported"))
                else
                  let p := { p with challenge := some (challenge.take 16) }
                  (p.send (.challenge (challenge.take 16)), .ok 1)
      else if p.requiresChallenge then
        (p.invalidHeader rfbdata "invalid security handshake response, authentication is required",
          .ok 0)
      else ({ p with packetParser := .securityResult }.send (.securityResult 0), .ok 1)
  -- `struct.error`
  | _ => (p.internalError, .ok 0)

/-- `authenticate(typedict({"challenge_response": hexstr(response)}))` -/
def Authenticator.authenticate (o : Outside) (a : Authenticator) (response : Bytes) : Outcome Bool :=
  if a.1.requiresChallenge then
    Auth.authenticate o.hashes a.1.checkMethod o.answers a.2
      { challengeResponse := (hexstr response).toUTF8.toList }
  else ⟨a.2, [], o.answers.authenticates⟩

/-- `if self._authenticator.authenticate(caps)`, for which an exception is no success -/
def accepts (r : Outcome Bool) : Bool :=
  match r.result with
  | .ok accepted => accepted
  | .error _ => false

def parseChallenge (o : Outside) (p : RFBProtocol) (response : Bytes) : Parsed :=
  if response.length < 16 then (p, .ok 0)
  else
    match p.authenticator with
    | none => (p, .error (.assertionError ""))
    | some a =>
        -- an assertion within the `try`
        if response.length ≠ 16 then (p.schedule .sendFailChallenge, .ok response.length)
        else
          let r := a.authenticate o response
          let p := { p with authenticator := some (a.1, r.state) }.note
            (r.guesses.map Event.guess ++ [Event.evaluated (accepts r)])
          if accepts r then
            ({ p.send (.securityResult 0) with packetParser := .securityResult }, .ok 16)
          else (p.schedule .sendFailChallenge, .ok response.length)

def parseSecurityResult (o : Outside) (p : RFBProtocol) (rfbdata : Bytes) : Parsed :=
  let p := { p with share := decide (rfbdata ≠ [0]), packetParser := .rfb }
  ((p.send (.serverInit o.getRfbPixelformat p.sessionName)).processPacket .authenticated, .ok 1)

/-- The size of a message, and what comes after its struct; `none` when more bytes are needed. -/
def parseExtra (ptype : Nat) (size : Nat) (values : List Int) (rfbdata : Bytes) :
    Option (Int × Extra) :=
  if ptype = 2 then
    let estruct := List.replicate (values.getD 2 0).toNat Field.i
    let total := size + structSize estruct
    if rfbdata.length < total then none
    else some (total, .encodings (unpack estruct ((rfbdata.take total).drop size)))
  else if ptype = 6 then
    let total := size + values.getD 4 0
    if rfbdata.length < total then none
    else some (total, .text ((sliceTo rfbdata total).drop size))
  else some (size, .nothing)

def parseRfb (p : RFBProtocol) (rfbdata : Bytes) : Parsed :=
  match rfbdata with
  | [] => (p, .error (.indexError "index out of range"))
  | first :: _ =>
      let ptype := first.toNat
      match clientPacketTypeStr.lookup ptype with
      | none =>
          (p.invalid ("unknown RFB packet type: " ++ String.ofList (Nat.toDigits 16 ptype)) rfbdata,
            .ok 0)
      | some packetType =>
          match packetStruct.lookup ptype with
          | none =>
              (p.invalid ("RFB rfbdata type '" ++ packetType ++ "' is not supported") rfbdata, .ok 0)
          | some s =>
              if rfbdata.length < structSize s then (p, .ok 0)
              else
                let values := unpack s (rfbdata.take (structSize s))
                match parseExtra ptype (structSize s) values rfbdata with
                | none => (p, .ok 0)
                | some (size, extra) =>
                    (p.processPacket (.message packetType values.tail extra), .ok size)

/-- `_packet_parser(self._buffer)` -/
def RFBProtocol.parse (o : Outside) (p : RFBProtocol) : Parsed :=
  match p.packetParser with
  | .protocolHandshake => parseProtocolHandshake p p.buffer
  | .securityHandshake => parseSecurityHandshake o p p.buffer
  | .challenge => parseChallenge o p p.buffer
  | .securityResult => parseSecurityResult o p p.buffer
  | .rfb => parseRfb p p.buffer
  | .invalid => (p, .ok p.buffer.length)

/-! ### The read thread -/

/-- One turn of the loop over the buffer, and whether there may be another. An exception ends the
thread and closes the connection. -/
def RFBProtocol.turn (o : Outside) (p : RFBProtocol) : RFBProtocol × Bool :=
  match p.parse o with
  | (p, .error _) => ({ p with reading := false }.close, false)
  | (p, .ok consumed) =>
      if consumed = 0 then (p, false)
      else ({ p with buffer := sliceFrom p.buffer consumed }, true)

/-- `while self._buffer`, for some turns. A negative count of consumed bytes may leave the buffer as
it is; then it is parsed again and again. -/
def RFBProtocol.turns (o : Outside) : Nat → RFBProtocol → RFBProtocol
  | 0, p => p
  | fuel + 1, p =>
      if p.buffer = [] then p
      else
        match p.turn o with
        | (after, false) => after
        | (after, true) =>
            if after.buffer.length < p.buffer.length then turns o fuel after
            else { after with looping := true }

def RFBProtocol.receive (p : RFBProtocol) (buf : Bytes) : RFBProtocol :=
  { p with buffer := p.buffer ++ buf }

/-- The read thread is there to read. -/
def RFBProtocol.Active (p : RFBProtocol) : Prop :=
  p.reading = true ∧ p.closed = false ∧ p.looping = false

instance (p : RFBProtocol) : Decidable p.Active := inferInstanceAs (Decidable (_ ∧ _ ∧ _))

/-- `_read` with some bytes, as often as the thread is there to call it. -/
def RFBProtocol.read (o : Outside) (p : RFBProtocol) (buf : Bytes) : RFBProtocol :=
  if p.Active then (p.receive buf).turns o (p.receive buf).buffer.length else p

def RFBProtocol.run (o : Outside) (p : RFBProtocol) (reads : List Bytes) : RFBProtocol :=
  reads.foldl (RFBProtocol.read o) p

/-- `_read` without bytes: the end of the stream. -/
def RFBProtocol.eof (p : RFBProtocol) : RFBProtocol := { p with reading := false }.schedule .close

/-- The main loop calls a callback. -/
def Callback.call (p : RFBProtocol) : Callback → RFBProtocol
  | .processPacket packet => p.processPacket packet
  | .connectionLost | .close => p.close
  | .sendFailChallenge => (p.send (.securityResult 1)).close

def newProtocol (authenticator : Option Module) (sessionName data : Bytes) : RFBProtocol where
  sessionName := sessionName
  authenticator := authenticator.map fun m => (m, m.start)
  buffer := data

end Catlink.Rfb
