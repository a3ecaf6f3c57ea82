import Catlink.Net.WebSocketFrames

/-! The answers to pings, from the frames that are read to the bytes that are written. -/

namespace Catlink.WebSocket

/-- A sequence that `raw_write` is given. -/
inductive Items
  | text (chars : List Char)
  | buffers (bufs : List Bytes)
  deriving DecidableEq, Repr

/-- An entry of the write queue. -/
structure WriteItem where
  items : Items
  packetType : Items
  synchronous : Bool
  more : Bool
  deriving DecidableEq, Repr

def rawWrite (items packetType : Items) : WriteItem := ⟨items, packetType, true, false⟩

/-- The packet type is passed where the items go. -/
def processWsPing (payload : Bytes) : Except Exn WriteItem := do
  let header ← encodeHybiHeader OPCODE_PONG payload.length false true
  let item := header ++ payload
  .ok (rawWrite (.text ['w', 's', '-', 'p', 'i', 'n', 'g']) (.buffers [item]))

/-! ### The write thread -/

/-- What is written at a time. -/
inductive Buffer
  | bytes (data : Bytes)
  | text (chars : List Char)
  deriving DecidableEq, Repr

/-- What iterating over the items yields. -/
def Items.each : Items → List Buffer
  | .text chars => chars.map fun c => .text [c]
  | .buffers bufs => bufs.map .bytes

namespace Buffer

def empty : Buffer → Bool
  | bytes data => data.isEmpty
  | text chars => chars.isEmpty

/-- `buf[written:]` -/
def drop (written : Nat) : Buffer → Buffer
  | bytes data => bytes (data.drop written)
  | text chars => text (chars.drop written)

end Buffer

def strtobytes (chars : List Char) : Bytes :=
  if chars.all fun c => c.toNat < 256 then chars.map fun c => UInt8.ofNat c.toNat
  else (String.ofList chars).toUTF8.toList

/-- Sockets and pipes take some of the bytes they are given. -/
inductive Connection
  | socket (written : Bytes → Nat)
  | quic

/-- What is sent, and the value returned. -/
def Connection.write : Connection → Buffer → Except Exn (Bytes × Nat)
  | socket written, .bytes data => .ok (data.take (written data), written data)
  | socket _, .text _ => .error (.typeError "a bytes-like object is required, not 'str'")
  | quic, .bytes data => .ok (data, data.length)
  | quic, .text chars => .ok (strtobytes chars, chars.length)

/-- `while buf and not self._closed`, with `fuel` turns. -/
def writeBuffer (con : Connection) (closed : Bool) : Nat → Buffer → Option (Bytes × Except Exn Unit)
  | 0, _ => none
  | fuel + 1, buf =>
      if buf.empty ∨ closed then some ([], .ok ())
      else
        match con.write buf with
        | .error e => some ([], .error e)
        | .ok (sent, written) => do
            let (later, result) ← writeBuffer con closed fuel (buf.drop written)
            some (sent ++ later, result)

def writeBuffers (con : Connection) (closed : Bool) (fuel : Nat) :
    List Buffer → Option (Bytes × Except Exn Unit)
  | [] => some ([], .ok ())
  | buf :: bufs => do
      let (sent, result) ← writeBuffer con closed fuel buf
      match result with
      | .error e => some (sent, .error e)
      | .ok _ => do
          let (later, result) ← writeBuffers con closed fuel bufs
          some (sent ++ later, result)

/-- An error, which can only be a `TypeError`, is logged. -/
def writeItems (con : Connection) (closed : Bool) (fuel : Nat) (item : WriteItem) : Option Bytes :=
  (writeBuffers con closed fuel item.items.each).map Prod.fst

def writeQueue (con : Connection) (closed : Bool) (fuel : Nat) : List WriteItem → Option Bytes
  | [] => some []
  | item :: queue => do
      let sent ← writeItems con closed fuel item
      let later ← writeQueue con closed fuel queue
      some (sent ++ later)

/-- What the pings leave in the write queue. -/
def queued (events : List Event) : List WriteItem :=
  events.filterMap fun
    | .pong payload => (processWsPing payload).toOption
    | _ => none

/-! ### What is written -/

/-- Nothing, or something else than a frame in use. -/
def NoAnswer (sent : Bytes) : Prop := sent = [] ∨ ∃ rest, sent = 119 :: rest

theorem writeBuffers_closed (con : Connection) (fuel : Nat) {bufs : List Buffer} {sent : Bytes}
    {result : Except Exn Unit} (written : writeBuffers con true fuel bufs = some (sent, result)) :
    sent = [] := by
  induction bufs generalizing sent result with
  | nil =>
      cases written
      rfl
  | cons buf bufs ih =>
      cases fuel with
      | zero => cases written
      | succ fuel =>
          have first : writeBuffer con true (fuel + 1) buf = some ([], .ok ()) := if_pos (.inr rfl)
          simp only [writeBuffers, first, Option.bind_eq_bind, Option.bind_some, List.nil_append] at written
          obtain ⟨⟨later, result'⟩, rest, same⟩ := Option.bind_eq_some_iff.mp written
          cases same
          exact ih rest

/-- Characters are refused, or sent as they are. -/
theorem writeBuffers_text {con : Connection} {closed : Bool} {fuel : Nat} {chars : List Char} {sent : Bytes}
    {result : Except Exn Unit}
    (written : writeBuffers con closed fuel (Items.text ('w' :: chars)).each = some (sent, result)) :
    NoAnswer sent := by
  cases closed with
  | true => exact .inl (writeBuffers_closed con fuel written)
  | false =>
      rw [Items.each, List.map_cons, writeBuffers] at written
      obtain ⟨⟨first, result'⟩, one, written⟩ := Option.bind_eq_some_iff.mp written
      cases con with
      | socket written' =>
          cases fuel with
          | zero => cases one
          | succ fuel =>
              cases one
              cases written
              exact .inl rfl
      | quic =>
          match fuel, one with
          | fuel + 2, one =>
              cases one
              obtain ⟨⟨later, result''⟩, -, same⟩ := Option.bind_eq_some_iff.mp written
              cases same
              exact .inr ⟨later, rfl⟩

/-- A ping is not answered. -/
theorem writeItems_ping {con : Connection} {closed : Bool} {fuel : Nat} {payload sent : Bytes}
    {item : WriteItem} (ping : processWsPing payload = .ok item)
    (written : writeItems con closed fuel item = some sent) : NoAnswer sent := by
  obtain ⟨header, -, ping⟩ := ok_of_bind ping
  cases ping
  obtain ⟨⟨sent', result⟩, all, rfl⟩ := Option.map_eq_some_iff.mp written
  exact writeBuffers_text all

theorem writeQueue_queued {con : Connection} {closed : Bool} {fuel : Nat} {events : List Event}
    {sent : Bytes} (written : writeQueue con closed fuel (queued events) = some sent) : NoAnswer sent := by
  have pings : ∀ item ∈ queued events, ∃ payload, processWsPing payload = .ok item := by
    intro item member
    obtain ⟨event, -, made⟩ := List.mem_filterMap.mp member
    cases event with
    | pong payload =>
        refine ⟨payload, ?_⟩
        cases processed : processWsPing payload with
        | error e =>
            simp only [processed] at made
            cases made
        | ok item' =>
            simp only [processed] at made
            cases made
            rfl
    | readQueuePut payload => cases made
    | connectionLost reason => cases made
  generalize queued events = queue at pings written
  induction queue generalizing sent with
  | nil =>
      cases written
      exact .inl rfl
  | cons item queue ih =>
      obtain ⟨first, rest⟩ := List.forall_mem_cons.mp pings
      obtain ⟨payload, ping⟩ := first
      obtain ⟨out, one, written⟩ := Option.bind_eq_some_iff.mp written
      obtain ⟨later, others, same⟩ := Option.bind_eq_some_iff.mp written
      cases same
      rcases writeItems_ping ping one with rfl | ⟨more, rfl⟩
      · exact ih rest others
      · exact .inr ⟨more ++ later, rfl⟩

/-! ### Pings among other frames -/

def Wire.isPing (w : Wire) : Bool := w.opcode = OPCODE_PING

/-- One PONG for each, with its payload. -/
def Answers (pings : List Wire) (sent : Bytes) : Prop :=
  ∃ pongs : List Wire, wires pongs = sent ∧
    pongs.map (fun w => (w.opcode, w.fin, w.fragment.payload)) =
      pings.map fun w => (OPCODE_PONG, true, w.fragment.payload)

/-- The messages handed over, and how reading ends. -/
def delivered (read : List Event × Except Exn WsState) : List Bytes × Except Exn WsState :=
  (read.1.filterMap fun
    | .readQueuePut payload => some payload
    | _ => none, read.2)

/-- Every ping is answered, and nothing else is different from the stream without them. -/
structure PingsAnswered (frames : List Wire) (reads without : List Read) (con : Connection)
    (closed : Bool) (fuel : Nat) : Prop where
  answered : ∃ read sent, parseReads ⟨[], [], 0, false⟩ reads = some read ∧
    writeQueue con closed fuel (queued read.1) = some sent ∧ Answers (frames.filter Wire.isPing) sent
  delivered : (parseReads ⟨[], [], 0, false⟩ reads).map delivered =
    (parseReads ⟨[], [], 0, false⟩ without).map delivered

theorem answers_none {pings : List Wire} {sent : Bytes} (answers : Answers pings sent)
    (nothing : NoAnswer sent) : pings = [] := by
  obtain ⟨pongs, rfl, same⟩ := answers
  cases pongs with
  | nil => exact List.map_eq_nil_iff.mp same.symm
  | cons pong pongs =>
      cases pings with
      | nil => rfl
      | cons ping pings =>
          have code : pong.opcode = OPCODE_PONG := (Prod.mk.inj (List.cons.inj same).1).1
          rcases nothing with none | ⟨rest, other⟩
          · rw [wires_cons, List.append_eq_nil_iff] at none
            exact absurd none.1 pong.bytes_ne
          · cases bytes : pong.bytes with
            | nil => exact absurd bytes pong.bytes_ne
            | cons b bs =>
                rw [wires_cons, bytes] at other
                have opcode := pong.head_code bytes
                rw [(List.cons.inj other).1, code] at opcode
                exact absurd opcode (by decide)

theorem processPayload_data {st : WsState} {opcode : Nat} (data : opcode ≠ OPCODE_PING) (payload : Bytes) :
    queued (processPayload st opcode payload).2 = [] := by
  unfold processPayload
  split
  · split <;> rfl
  split
  · rfl
  · rfl

theorem runFrame_data {st st' : WsState} {w : Wire} {events : List Event} (ready : Ready st)
    (data : w.opcode ≠ OPCODE_PING) (done : runFrame st w = .ok (st', events)) : queued events = [] := by
  obtain ⟨frame, opened, done⟩ := ok_of_bind done
  have code : frame.opcode = w.opcode := by
    unfold Wire.opened at opened
    split at opened
    · cases opened
    · cases opened
      rfl
  unfold processFrame at done
  split at done
  · split at done
    · cases done
    dsimp only at done
    split at done
    · cases done
      rfl
    · have kind : st.wsPayloadOpcode ≠ OPCODE_PING := by
        rcases ready.opcode with none | text | binary
        · rw [none]
          decide
        · rw [text]
          decide
        · rw [binary]
          decide
      have nothing : queued (processPayload { st with wsPayload := [], wsPayloadOpcode := 0 }
          st.wsPayloadOpcode (st.wsPayload ++ [frame.payload]).flatten).2 = [] := processPayload_data kind _
      rwa [Except.ok.inj done] at nothing
  · split at done
    · cases done
    split at done
    · split at done
      · cases done
      · cases done
        rfl
    · have nothing : queued (processPayload st frame.opcode frame.payload).2 = [] :=
        processPayload_data (by rwa [code]) _
      rwa [Except.ok.inj done] at nothing

theorem runFrames_data {frames : List Wire} (data : ∀ w ∈ frames, w.opcode ≠ OPCODE_PING) {st : WsState}
    (ready : Ready st) : queued (runFrames st frames).1 = [] := by
  induction frames generalizing st with
  | nil => rfl
  | cons w frames ih =>
      obtain ⟨first, rest⟩ := List.forall_mem_cons.mp data
      cases one : runFrame st w with
      | error e => rw [runFrames_error ready.active one]; rfl
      | ok r =>
          obtain ⟨next, events⟩ := r
          rw [runFrames_ok ready.active one, queued, List.filterMap_append]
          have before := runFrame_data ready first one
          rw [queued] at before
          rw [before, List.nil_append]
          rcases runFrame_cases ready one with ready' | ⟨closed, -⟩
          · exact ih rest ready'
          · rw [runFrames_closed closed]
            rfl

/-- Within a message a ping is not even read. -/
theorem runFrame_ping_within {st : WsState} {w : Wire} (within : st.wsPayload ≠ [] ∧ st.wsPayloadOpcode ≠ 0)
    (ping : w.opcode = OPCODE_PING) (accepted : w.fragment.Accepted) :
    runFrame st w = .error (.valueError "expected a continuation frame not 9") := by
  rw [runFrame, Wire.opened_accepted accepted]
  have code : w.frame.opcode = OPCODE_PING := ping
  simp only [bind, Except.bind, processFrame, code]
  rw [if_neg (by decide), if_pos within]
  rfl

/-- Between messages it leaves all as it is. -/
theorem runFrame_ping_between {st : WsState} {w : Wire}
    (between : ¬ (st.wsPayload ≠ [] ∧ st.wsPayloadOpcode ≠ 0)) (ping : w.opcode = OPCODE_PING)
    (whole : w.fin = true) (accepted : w.fragment.Accepted) :
    runFrame st w = .ok (st, [.pong w.fragment.payload]) := by
  rw [runFrame, Wire.opened_accepted accepted]
  have code : w.frame.opcode = OPCODE_PING := ping
  have fin : w.frame.fin = true := whole
  simp only [bind, Except.bind, processFrame, code, fin]
  rw [if_neg (by decide), if_neg between, if_neg (by decide)]
  rfl

/-- Pings are answered, and leave the messages alone, just when there are none. -/
theorem pings_answered_iff (frames : List Wire) {reads without : List Read}
    (whole : (reads.map Read.buf).flatten = wires frames)
    (rest : (without.map Read.buf).flatten = wires (frames.filter fun w => !w.isPing))
    (con : Connection) (closed : Bool) (fuel : Nat) :
    PingsAnswered frames reads without con closed fuel ↔ ∀ w ∈ frames, w.opcode ≠ OPCODE_PING := by
  constructor
  · rintro ⟨⟨read, sent, -, written, answers⟩, -⟩ w member ping
    have none := answers_none answers (writeQueue_queued written)
    have listed : w ∈ frames.filter Wire.isPing :=
      List.mem_filter.mpr ⟨member, decide_eq_true ping⟩
    rw [none] at listed
    cases listed
  · intro data
    have same : (frames.filter fun w => !w.isPing) = frames := by
      apply List.filter_eq_self.mpr
      intro w member
      simp [Wire.isPing, data w member]
    have none : frames.filter Wire.isPing = [] := by
      apply List.filter_eq_nil_iff.mpr
      intro w member
      simp [Wire.isPing, data w member]
    rw [same] at rest
    constructor
    · refine ⟨_, [], parseReads_runFrames initial_ready reads whole, ?_, [], rfl, by rw [none]; rfl⟩
      rw [runFrames_data data initial_ready]
      rfl
    · rw [parseReads_runFrames initial_ready reads whole,
        parseReads_runFrames initial_ready without rest]

/-- A text message between which and its end nothing comes. -/
def textFrames : List Wire :=
  [⟨OPCODE_TEXT, false, ⟨[], [72], Fragment.unkeyed, by decide⟩, by decide⟩,
    ⟨OPCODE_CONTINUE, true, ⟨[], [105], Fragment.unkeyed, by decide⟩, by decide⟩]

theorem pings_answered_text :
    PingsAnswered textFrames [⟨[1, 1], 0, fun _ => 0⟩, ⟨[72, 128, 1, 105], 0, fun _ => 0⟩]
      [⟨[1, 1, 72, 128, 1, 105], 0, fun _ => 0⟩] .quic false 1 := by
  apply (pings_answered_iff textFrames rfl rfl _ _ _).mpr
  intro w member
  rcases List.mem_cons.mp member with rfl | member
  · decide
  · cases List.mem_singleton.mp member
    decide

/-- A PING with two bytes. -/
def pingFrame : Wire := ⟨OPCODE_PING, true, ⟨[], [72, 105], Fragment.unkeyed, by decide⟩, by decide⟩

theorem not_pings_answered :
    ¬ ∀ (frames : List Wire) (reads without : List Read), (reads.map Read.buf).flatten = wires frames →
      (without.map Read.buf).flatten = wires (frames.filter fun w => !w.isPing) →
      ∀ con closed fuel, PingsAnswered frames reads without con closed fuel := by
  intro claim
  obtain ⟨⟨read, sent, -, written, answers⟩, -⟩ :=
    claim [pingFrame] [⟨pingFrame.bytes, 0, fun _ => 0⟩] [] rfl rfl (.socket List.length) false 1
  have none := answers_none answers (writeQueue_queued written)
  cases none

end Catlink.WebSocket
