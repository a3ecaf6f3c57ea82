import Catlink.Lib.Dict
import Catlink.Lib.Pieces
import Catlink.Rencodeplus.Decode

/-! Messages of the clipboard bridge: a line of JSON, then as many bytes as it announces. -/

namespace Catlink.Clipboard.BridgeIpc

open Pieces

/-- A message header, a dictionary with texts as keys. -/
abbrev Header := List (String × PyVal)

/-- The `json` module: compact texts as bytes, and what they load as. -/
structure Json where
  dumps : Header → Except Exn Bytes
  loads : Bytes → Except Exn Header

/-- A header is written on one line, which loads as that header. -/
def Json.RoundTrips (json : Json) (header : Header) : Prop :=
  ∃ text, json.dumps header = .ok text ∧ 10 ∉ text ∧ json.loads (text ++ [10]) = .ok header

def maxIpcHeaderSize : Nat := 2 ^ 20

def maxIpcBinarySize : Nat := 128 * 2 ^ 20

section Json

variable (json : Json)

/-- The header as it is sent. -/
def withSize (value : Header) (payload : Bytes) : Header :=
  if payload = [] then value else Dict.set value "binary_size" (.int payload.length)

/-- `sock` holds what was written to the connection, if there is one. -/
def send (sock : Option Bytes) (value : Header) (payload : Bytes) : Except Exn (Option Bytes) :=
  match sock with
  | none => .ok none
  | some written => do
      if maxIpcBinarySize < payload.length then
        throw (.valueError s!"clipboard IPC binary payload is too large: {payload.length} bytes")
      let encoded := (← json.dumps (withSize value payload)) ++ [10]
      if maxIpcHeaderSize < encoded.length then
        throw (.valueError s!"clipboard IPC header is too large: {encoded.length} bytes")
      return some (written ++ encoded ++ payload)

/-- `int(value)` of what JSON can hold. -/
def toInt : PyVal → Except Exn Int
  | .int n => .ok n
  | .bool b => .ok (if b then 1 else 0)
  | .str text => Rencodeplus.pyInt (Rencodeplus.utf8 text)
  | .float bits =>
      match Rencodeplus.floatNumber bits with
      | .finite units => .ok (units.tdiv (2 ^ 1074))
      | .infinite _ => .error (.overflowError "cannot convert float infinity to integer")
      | .nan => .error (.valueError "cannot convert float NaN to integer")
  | _ => .error (.typeError "int() argument must be a string or a number")

/-- A turn of `_reader`: the next message, none at the end of the stream. -/
def readMessage (stream : List Bytes) : Except Exn (Option ((Header × Bytes) × List Bytes)) :=
  match readline 10 stream with
  | ([], _) => .ok none
  | (line, stream) => do
      if maxIpcHeaderSize < line.length then
        throw (.valueError s!"clipboard IPC header is too large: {line.length} bytes")
      let msg ← json.loads line
      let size ← toInt ((Dict.get msg "binary_size").getD (.int 0))
      if size < 0 ∨ maxIpcBinarySize < size then
        throw (.valueError s!"invalid clipboard IPC binary size: {size}")
      match readExact size.toNat size.toNat stream with
      | none => throw (.other "clipboard IPC binary payload ended with bytes missing")
      | some (data, stream) => return some ((msg, data), stream)

/-- The loop of `_reader`: the messages, and the exception that stopped it, none at the end. -/
def readerLoop : Nat → List Bytes → List (Header × Bytes) × Option Exn
  | 0, _ => ([], none)
  | fuel + 1, stream =>
      match readMessage json stream with
      | .error e => ([], some e)
      | .ok none => ([], none)
      | .ok (some (message, stream)) =>
          (message :: (readerLoop fuel stream).1, (readerLoop fuel stream).2)

/-- Every message takes a byte of the stream at least. -/
def reader (stream : List Bytes) : List (Header × Bytes) × Option Exn :=
  readerLoop json (stream.flatten.length + 1) stream

/-- As many turns of the loop, all of which find a message. -/
def readMany : Nat → List Bytes → Except Exn (List (Header × Bytes) × List Bytes)
  | 0, stream => .ok ([], stream)
  | count + 1, stream => do
      match ← readMessage json stream with
      | none => throw (.other "end of the stream")
      | some (message, stream) =>
          let (messages, stream) ← readMany count stream
          return (message :: messages, stream)

def sendAll (sock : Option Bytes) (messages : List (Header × Bytes)) : Except Exn (Option Bytes) :=
  messages.foldlM (fun sock message => send json sock message.1 message.2) sock

/-! ### What is read -/

/-- The message as it is read. -/
def received (message : Header × Bytes) : Header × Bytes :=
  (withSize message.1 message.2, message.2)

/-- The header has no size of its own, and the message is within the limits. -/
structure Sendable (message : Header × Bytes) : Prop where
  unsized : Dict.get message.1 "binary_size" = none
  roundTrips : json.RoundTrips (withSize message.1 message.2)
  small : message.2.length ≤ maxIpcBinarySize
  short : ∀ text, json.dumps (withSize message.1 message.2) = .ok text →
    (text ++ [10]).length ≤ maxIpcHeaderSize

/-- What is read announces the size of the payload. -/
theorem received_size {message : Header × Bytes} (unsized : Dict.get message.1 "binary_size" = none) :
    toInt ((Dict.get (withSize message.1 message.2) "binary_size").getD (.int 0)) =
      .ok message.2.length := by
  unfold withSize
  split
  · rename_i none
    rw [unsized, none]
    rfl
  · rw [Dict.get_set]
    rfl

/-- What is read is what was sent, but for the size. -/
theorem received_erase {message : Header × Bytes} (unsized : Dict.get message.1 "binary_size" = none) :
    Dict.erase (withSize message.1 message.2) "binary_size" = message.1 := by
  have same := Dict.erase_new (Dict.get_none unsized)
  unfold withSize
  split
  · exact same
  · rw [Dict.erase_set, same]

variable {json}

variable (json) in
/-- The bytes at the start of a stream are read as the message, with no byte of what follows. -/
def ReadAs (message : Header × Bytes) (bytes : Bytes) : Prop :=
  ∀ stream after, stream.flatten = bytes ++ after →
    ∃ stream', readMessage json stream = .ok (some (received message, stream')) ∧
      stream'.flatten = after

theorem readMessage_send {message : Header × Bytes} (sendable : Sendable json message) :
    ∃ bytes, bytes ≠ [] ∧ ReadAs json message bytes ∧
      ∀ written, send json (some written) message.1 message.2 = .ok (some (written ++ bytes)) := by
  obtain ⟨text, dumped, clean, loaded⟩ := sendable.roundTrips
  have short := sendable.short text dumped
  have small := sendable.small
  refine ⟨text ++ [10] ++ message.2, by simp, ?_, ?_⟩
  · intro stream after whole
    rw [List.append_assoc, List.append_assoc, List.singleton_append] at whole
    obtain ⟨stream', lineRead, rest⟩ := readline_spec clean whole
    obtain ⟨stream'', dataRead, rest'⟩ := readExact_spec le_rfl rest
    refine ⟨stream'', ?_, rest'⟩
    have line : text ++ [10] ≠ [] := by simp
    have inside : ¬ ((message.2.length : Int) < 0 ∨ (maxIpcBinarySize : Int) < message.2.length) := by
      omega
    rw [readMessage, lineRead]
    cases held : text ++ [10] with
    | nil => exact absurd held line
    | cons b line =>
        rw [held] at short loaded
        dsimp only [bind, Except.bind, pure, Except.pure]
        rw [if_neg (by omega), loaded]
        dsimp only
        rw [received_size sendable.unsized]
        dsimp only
        rw [if_neg inside]
        rw [Int.toNat_natCast, dataRead]
        rfl
  · intro written
    rw [send]
    dsimp only
    rw [if_neg (by omega), dumped]
    dsimp only [bind, Except.bind, pure, Except.pure]
    rw [if_neg (by omega)]
    simp only [List.append_assoc]

theorem readMessage_end {stream : List Bytes} (ended : stream.flatten = []) :
    readMessage json stream = .ok none := by
  have line : ∀ stream : List Bytes, stream.flatten = [] → (readline 10 stream).1 = [] := by
    intro stream ended
    induction stream with
    | nil => rfl
    | cons piece stream ih =>
        rw [List.flatten_cons, List.append_eq_nil_iff] at ended
        rw [readline, ended.1]
        exact ih ended.2
  have first := line stream ended
  rw [readMessage]
  split
  · rfl
  · rename_i other found
    rw [found] at first
    exact absurd first other

variable (json) in
/-- The bytes of all messages in order, read one after the other. -/
structure Sent (messages : List (Header × Bytes)) (wire : Bytes) : Prop where
  many : ∀ stream after, stream.flatten = wire ++ after →
    ∃ stream', readMany json messages.length stream = .ok (messages.map received, stream') ∧
      stream'.flatten = after
  all : ∀ fuel stream, stream.flatten = wire → stream.flatten.length < fuel →
    readerLoop json fuel stream = (messages.map received, none)

theorem sent_nil : Sent json [] [] := by
  constructor
  · intro stream after whole
    exact ⟨stream, rfl, whole⟩
  · intro fuel stream ended enough
    cases fuel with
    | zero => omega
    | succ fuel =>
        rw [readerLoop, readMessage_end ended]
        rfl

theorem sent_cons {message : Header × Bytes} {messages : List (Header × Bytes)} {bytes wire : Bytes}
    (some : bytes ≠ []) (first : ReadAs json message bytes) (others : Sent json messages wire) :
    Sent json (message :: messages) (bytes ++ wire) := by
  constructor
  · intro stream after whole
    rw [List.append_assoc] at whole
    obtain ⟨stream', read, rest⟩ := first stream _ whole
    obtain ⟨stream'', reads, rest'⟩ := others.many stream' after rest
    refine ⟨stream'', ?_, rest'⟩
    rw [List.length_cons, readMany, read]
    dsimp only [bind, Except.bind]
    rw [reads]
    rfl
  · intro fuel stream whole enough
    obtain ⟨stream', read, rest⟩ := first stream _ whole
    have positive := List.length_pos_iff.mpr some
    rw [whole, List.length_append] at enough
    cases fuel with
    | zero => omega
    | succ fuel =>
        have reads := others.all fuel stream' rest (by rw [rest]; omega)
        rw [readerLoop, read]
        dsimp only
        rw [reads]
        rfl

/-- However the stream is cut, the reader yields the messages as they were sent, in order, and
takes no byte of what follows them. -/
theorem reader_sendAll {messages : List (Header × Bytes)}
    (sendable : ∀ message ∈ messages, Sendable json message) (written : Bytes) :
    ∃ wire, sendAll json (some written) messages = .ok (some (written ++ wire)) ∧
      (∀ stream, stream.flatten = wire → reader json stream = (messages.map received, none)) ∧
      (∀ stream after, stream.flatten = wire ++ after →
        ∃ stream', readMany json messages.length stream = .ok (messages.map received, stream') ∧
          stream'.flatten = after) ∧
      ∀ message ∈ messages, (received message).2 = message.2 ∧
        Dict.erase (received message).1 "binary_size" = message.1 := by
  have each : ∃ wire, (∀ written, sendAll json (some written) messages =
      .ok (some (written ++ wire))) ∧ Sent json messages wire := by
    induction messages with
    | nil => exact ⟨[], fun written => by rw [List.append_nil]; rfl, sent_nil⟩
    | cons message messages ih =>
        obtain ⟨first, others⟩ := List.forall_mem_cons.mp sendable
        obtain ⟨bytes, nonempty, readAs, sends⟩ := readMessage_send first
        obtain ⟨wire, sendsAll, sent⟩ := ih others
        refine ⟨bytes ++ wire, ?_, sent_cons nonempty readAs sent⟩
        intro written
        rw [sendAll, List.foldlM_cons, sends]
        dsimp only [bind, Except.bind]
        rw [← sendAll, sendsAll, List.append_assoc]
  obtain ⟨wire, sends, sent⟩ := each
  refine ⟨wire, sends written, ?_, sent.many, ?_⟩
  · intro stream whole
    exact sent.all _ stream whole (Nat.lt_succ_self _)
  · intro message member
    exact ⟨rfl, received_erase (sendable message member).unsized⟩

end Json

/-- A payload that starts with a line end and looks like JSON. -/
def dataMessage : Header × Bytes := ([("type", .str "data")], [10, 123, 125])

/-- What the module writes for the header of that message. -/
def dataJson : Json where
  dumps _ := .ok (Rencodeplus.utf8 "\x7b\"type\":\"data\",\"binary_size\":3\x7d")
  loads _ := .ok [("type", .str "data"), ("binary_size", .int 3)]

theorem reader_sendAll_data :
    ∃ wire, sendAll dataJson (some []) [dataMessage] = .ok (some wire) ∧
      ∀ stream, stream.flatten = wire →
        reader dataJson stream =
          ([([("type", .str "data"), ("binary_size", .int 3)], [10, 123, 125])], none) := by
  have sendable : ∀ message ∈ [dataMessage], Sendable dataJson message := by
    intro message member
    cases List.mem_singleton.mp member
    constructor
    · rfl
    · exact ⟨_, rfl, by decide, rfl⟩
    · exact (by decide : 3 ≤ maxIpcBinarySize)
    · intro text dumped
      cases dumped
      exact (by decide : 32 ≤ 2 ^ 20)
  obtain ⟨wire, sends, reads, -⟩ := reader_sendAll sendable []
  exact ⟨wire, sends, reads⟩

end Catlink.Clipboard.BridgeIpc
