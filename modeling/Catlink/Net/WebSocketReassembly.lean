import Catlink.Net.WebSocketFrames
import Mathlib.Tactic

/-! Messages sent in fragments arrive whole, however the stream is cut. -/

namespace Catlink.WebSocket

open BigEndian

/-- A frame as it is sent. -/
structure Sent where
  continues : Bool
  fin : Bool
  fragment : Fragment

def Sent.opcode (s : Sent) : Nat := if s.continues then OPCODE_CONTINUE else OPCODE_BINARY

def Sent.bytes (s : Sent) : Bytes :=
  match encodeHybiHeader s.opcode s.fragment.payload.length s.fragment.hasMask s.fin with
  | .ok header => header ++ s.fragment.mask ++ s.fragment.body
  | .error _ => []

def Sent.frame (s : Sent) : Frame := ⟨s.opcode, s.fragment.payload, s.bytes.length, s.fin⟩

/-- The final bit is only on the last fragment. -/
def continued : List Fragment → List Sent
  | [] => []
  | f :: fs => ⟨true, fs.isEmpty, f⟩ :: continued fs

/-- A data message that is not empty. -/
structure Message where
  first : Fragment
  rest : List Fragment
  filled : first.payload ++ (rest.map Fragment.payload).flatten ≠ []

namespace Message

def payload (m : Message) : Bytes := m.first.payload ++ (m.rest.map Fragment.payload).flatten

def frames (m : Message) : List Sent := ⟨false, m.rest.isEmpty, m.first⟩ :: continued m.rest

def Accepted (m : Message) : Prop := m.first.Accepted ∧ ∀ f ∈ m.rest, f.Accepted

end Message

def stream (frames : List Sent) : Bytes := frames.flatMap Sent.bytes

def Sent.wire (s : Sent) : Wire :=
  ⟨s.opcode, s.fin, s.fragment, by unfold Sent.opcode; cases s.continues <;> decide⟩

/-! ### The fragments of a message -/

/-- The frames processed one after the other. -/
def processFrames : WsState → List Sent → Except Exn (WsState × List Event)
  | st, [] => .ok (st, [])
  | st, s :: frames => do
      let (st, events) ← processFrame st s.frame
      let (st, later) ← processFrames st frames
      .ok (st, events ++ later)

theorem processFrames_append {st st' : WsState} {frames : List Sent} {events : List Event}
    (before : processFrames st frames = .ok (st', events)) (frames' : List Sent) :
    processFrames st (frames ++ frames') =
      (processFrames st' frames').map fun r => (r.1, events ++ r.2) := by
  induction frames generalizing st events with
  | nil =>
      cases before
      simp only [List.nil_append]
      cases processFrames st' frames' <;> rfl
  | cons s frames ih =>
      obtain ⟨⟨next, first⟩, one, before⟩ := ok_of_bind before
      obtain ⟨⟨following, rest⟩, others, before⟩ := ok_of_bind before
      cases before
      simp only [List.cons_append, processFrames, one, ih others, bind, Except.bind]
      cases processFrames st' frames' with
      | error e => rfl
      | ok r => simp [Except.map]

/-- Between messages. -/
def quiet : WsState := ⟨[], [], 0, false⟩

theorem processFrame_whole {payload : Bytes} (filled : payload ≠ []) (n : Nat) :
    processFrame quiet ⟨OPCODE_BINARY, payload, n, true⟩ = .ok (quiet, [.readQueuePut payload]) := by
  simp [processFrame, quiet, processPayload, filled]

theorem processFrame_start (payload : Bytes) (n : Nat) :
    processFrame quiet ⟨OPCODE_BINARY, payload, n, false⟩ =
      .ok (⟨[], [payload], OPCODE_BINARY, false⟩, []) := by
  simp [processFrame, quiet]

theorem processFrame_more {payloads : List Bytes} (started : payloads ≠ []) (payload : Bytes) (n : Nat) :
    processFrame ⟨[], payloads, OPCODE_BINARY, false⟩ ⟨OPCODE_CONTINUE, payload, n, false⟩ =
      .ok (⟨[], payloads ++ [payload], OPCODE_BINARY, false⟩, []) := by
  simp [processFrame, started]

theorem processFrame_last {payloads : List Bytes} (started : payloads ≠ []) {payload : Bytes}
    (filled : payloads.flatten ++ payload ≠ []) (n : Nat) :
    processFrame ⟨[], payloads, OPCODE_BINARY, false⟩ ⟨OPCODE_CONTINUE, payload, n, true⟩ =
      .ok (quiet, [.readQueuePut (payloads.flatten ++ payload)]) := by
  have whole : (payloads ++ [payload]).flatten = payloads.flatten ++ payload := by simp
  simp only [processFrame, started, processPayload, whole, filled]
  rfl

theorem processFrames_continued (payloads : List Bytes) (started : payloads ≠ []) (rest : List Fragment)
    (more : rest ≠ []) (filled : payloads.flatten ++ (rest.map Fragment.payload).flatten ≠ []) :
    processFrames ⟨[], payloads, OPCODE_BINARY, false⟩ (continued rest) =
      .ok (quiet, [.readQueuePut (payloads.flatten ++ (rest.map Fragment.payload).flatten)]) := by
  induction rest generalizing payloads with
  | nil => exact absurd rfl more
  | cons f rest ih =>
      rw [continued, processFrames]
      cases rest with
      | nil =>
          simp only [List.map_cons, List.map_nil, List.flatten_cons, List.flatten_nil,
            List.append_nil] at filled ⊢
          simp only [Sent.frame, Sent.opcode, if_true, List.isEmpty_nil,
            processFrame_last started filled, continued, processFrames, bind, Except.bind]
          rfl
      | cons g rest =>
          have next := ih (payloads ++ [f.payload]) (by simp) (by simp) (by simpa using filled)
          simp only [Sent.frame, Sent.opcode, if_true, List.isEmpty_cons,
            processFrame_more started, next, bind, Except.bind]
          simp

theorem processFrames_message (m : Message) :
    processFrames quiet m.frames = .ok (quiet, [.readQueuePut m.payload]) := by
  have filled := m.filled
  rw [Message.frames, Message.payload, processFrames]
  cases rest : m.rest with
  | nil =>
      rw [rest, List.map_nil, List.flatten_nil, List.append_nil] at filled
      simp only [Sent.frame, Sent.opcode, Bool.false_eq_true, if_false, List.isEmpty_nil,
        processFrame_whole filled, continued, processFrames, bind, Except.bind]
      simp
  | cons f fs =>
      have next := processFrames_continued [m.first.payload] (by simp) (f :: fs) (by simp)
        (by rw [← rest]; simpa using filled)
      simp only [Sent.frame, Sent.opcode, Bool.false_eq_true, if_false, List.isEmpty_cons,
        processFrame_start, next, bind, Except.bind]
      simp

theorem processFrames_messages (messages : List Message) :
    processFrames quiet (messages.flatMap Message.frames) =
      .ok (quiet, messages.map fun m => .readQueuePut m.payload) := by
  induction messages with
  | nil => rfl
  | cons m messages ih =>
      rw [List.flatMap_cons, processFrames_append (processFrames_message m), ih]
      rfl

/-! ### The stream, cut anywhere -/

/-- Ready for the next frame of a data message. -/
structure Open (st : WsState) : Prop where
  closed : st.closed = false
  wsData : st.wsData = []
  opcode : st.wsPayloadOpcode = 0 ∨ st.wsPayloadOpcode = OPCODE_BINARY

theorem processPayload_open {st : WsState} (ready : Open st) (payload : Bytes) :
    Open (processPayload st OPCODE_BINARY payload).1 := by
  unfold processPayload
  rw [if_pos (.inl rfl)]
  split <;> exact ready

theorem processFrame_open {st st' : WsState} {s : Sent} {events : List Event} (ready : Open st)
    (done : processFrame st s.frame = .ok (st', events)) : Open st' := by
  have code : s.frame.opcode = OPCODE_CONTINUE ∨ s.frame.opcode = OPCODE_BINARY := by
    rw [Sent.frame, Sent.opcode]
    cases s.continues
    · exact .inr rfl
    · exact .inl rfl
  unfold processFrame at done
  split at done
  · split at done
    · cases done
    rename_i started
    have binary : st.wsPayloadOpcode = OPCODE_BINARY := by
      rcases ready.opcode with none | binary
      · exact absurd (.inl none) started
      · exact binary
    dsimp only at done
    split at done
    · cases done
      exact ⟨ready.closed, ready.wsData, ready.opcode⟩
    · rw [binary] at done
      have between : Open { st with wsPayload := [], wsPayloadOpcode := 0 } :=
        ⟨ready.closed, ready.wsData, .inl rfl⟩
      have kept := processPayload_open between (st.wsPayload ++ [s.frame.payload]).flatten
      rwa [Except.ok.inj done] at kept
  · rename_i first
    have binary := code.resolve_left first
    split at done
    · cases done
    split at done
    · split at done
      · cases done
      · cases done
        exact ⟨ready.closed, ready.wsData, .inr binary⟩
    · rw [binary] at done
      have kept := processPayload_open ready s.frame.payload
      rwa [Except.ok.inj done] at kept

/-- What is kept is less than the next frame. -/
def Held (held : Bytes) (left : List Sent) : Prop :=
  held = [] ∨ ∃ s rest, left = s :: rest ∧ held.length < s.bytes.length

/-- Some frames are taken from the data, and the rest of it is kept. -/
structure Taken (frames : List Sent) (data : Bytes) (st : WsState) (taken left : List Sent)
    (held : Bytes) (st' : WsState) (events : List Event) : Prop where
  split : frames = taken ++ left
  data : data = stream taken ++ held
  held : Held held left
  processed : processFrames st taken = .ok (st', events)
  ready : Open st'

theorem stream_wires (frames : List Sent) : stream frames = wires (frames.map Sent.wire) := by
  rw [stream, wires, List.flatMap_map]
  rfl

theorem Open.ready {st : WsState} (ready : Open st) : Ready st :=
  ⟨ready.closed, ready.wsData, ready.opcode.imp_right .inr⟩

/-- Some of the frames are processed when all of them are. -/
theorem processFrames_split {st last : WsState} {taken left : List Sent} {all : List Event}
    (whole : processFrames st (taken ++ left) = .ok (last, all)) :
    ∃ st' events, processFrames st taken = .ok (st', events) := by
  induction taken generalizing st last all with
  | nil => exact ⟨st, [], rfl⟩
  | cons s taken ih =>
      obtain ⟨⟨next, first⟩, one, whole⟩ := ok_of_bind whole
      obtain ⟨⟨after, rest⟩, others, -⟩ := ok_of_bind whole
      obtain ⟨st', events, some⟩ := ih others
      exact ⟨st', first ++ events, by simp only [processFrames, one, some, bind, Except.bind]⟩

theorem processFrames_open {st st' : WsState} {frames : List Sent} {events : List Event} (ready : Open st)
    (processed : processFrames st frames = .ok (st', events)) : Open st' := by
  induction frames generalizing st events with
  | nil =>
      cases processed
      exact ready
  | cons s frames ih =>
      obtain ⟨⟨next, first⟩, one, processed⟩ := ok_of_bind processed
      obtain ⟨⟨last, rest⟩, others, processed⟩ := ok_of_bind processed
      cases processed
      exact ih (processFrame_open ready one) others

theorem runFrames_sent {frames : List Sent} (accepted : ∀ s ∈ frames, s.fragment.Accepted)
    {st st' : WsState} {events : List Event} (ready : Open st)
    (processed : processFrames st frames = .ok (st', events)) :
    runFrames st (frames.map Sent.wire) = (events, .ok st') := by
  induction frames generalizing st events with
  | nil =>
      cases processed
      rfl
  | cons s frames ih =>
      obtain ⟨acceptedFirst, acceptedRest⟩ := List.forall_mem_cons.mp accepted
      obtain ⟨⟨next, first⟩, one, processed⟩ := ok_of_bind processed
      obtain ⟨⟨last, rest⟩, others, processed⟩ := ok_of_bind processed
      cases processed
      have single : runFrame st s.wire = .ok (next, first) := by
        rw [runFrame, Wire.opened_accepted acceptedFirst]
        exact one
      rw [List.map_cons, runFrames_ok ready.closed single,
        ih acceptedRest (processFrame_open ready one) others]

theorem parseReads_cut (reads : List Read) (later : Bytes) {frames : List Sent}
    (accepted : ∀ s ∈ frames, s.fragment.Accepted) {st last : WsState} {all : List Event}
    (whole : processFrames st frames = .ok (last, all)) (ready : Open st)
    (cut : (reads.map Read.buf).flatten ++ later = stream frames) :
    ∃ taken left held st' events,
      Taken frames (reads.map Read.buf).flatten st taken left held st' events ∧
      parseReads st reads = some (events, .ok { st' with wsData := held }) := by
  rw [stream_wires] at cut
  obtain ⟨takenWires, leftWires, held, split, data, parsed⟩ :=
    parseReads_wires reads later ready.ready (.inl rfl) (by rwa [List.nil_append])
  obtain ⟨taken, left, rfl, rfl, rfl⟩ := List.map_eq_append_iff.mp split
  obtain ⟨st', events, processed⟩ := processFrames_split whole
  have kept := processFrames_open ready processed
  have runs := runFrames_sent (fun s member => accepted s (List.mem_append_left _ member)) ready processed
  have same : { st with wsData := [] } = st := by rw [← ready.wsData]
  rw [same] at parsed
  rw [List.nil_append, ← stream_wires] at data
  refine ⟨taken, left, held, st', events, ?_⟩
  generalize parseReads st reads = result at parsed
  cases parsed with
  | raised runs' => cases runs.symm.trans runs'
  | closed runs' closed =>
      cases runs.symm.trans runs'
      rw [kept.closed] at closed
      cases closed
  | kept runs' ready' short =>
      cases runs.symm.trans runs'
      refine ⟨⟨rfl, data, ?_, processed, kept⟩, rfl⟩
      rcases short with none | ⟨w, rest, first, less⟩
      · exact .inl none
      · obtain ⟨s, tail, rfl, rfl, -⟩ := List.map_eq_cons_iff.mp first
        exact .inr ⟨s, tail, rfl, less⟩

/-! ### Whole messages -/

theorem mem_continued {fs : List Fragment} {s : Sent} (member : s ∈ continued fs) : s.fragment ∈ fs := by
  induction fs with
  | nil => cases member
  | cons f fs ih =>
      rcases List.mem_cons.mp member with rfl | later
      · exact List.mem_cons_self
      · exact List.mem_cons_of_mem _ (ih later)

theorem accepted_frames {messages : List Message} (accepted : ∀ m ∈ messages, m.Accepted) :
    ∀ s ∈ messages.flatMap Message.frames, s.fragment.Accepted := by
  intro s member
  obtain ⟨m, present, inside⟩ := List.mem_flatMap.mp member
  rcases List.mem_cons.mp inside with rfl | later
  · exact (accepted m present).1
  · exact (accepted m present).2 _ (mem_continued later)

theorem quiet_open : Open quiet := ⟨rfl, rfl, .inl rfl⟩

/-- Every message is handed over whole and in order, once all of the stream is read; at any point
before, what is kept is the beginning of the next frame. -/
theorem reassembly (messages : List Message) (accepted : ∀ m ∈ messages, m.Accepted)
    (reads : List Read)
    (whole : (reads.map Read.buf).flatten = stream (messages.flatMap Message.frames)) :
    parseReads quiet reads = some (messages.map fun m => .readQueuePut m.payload, .ok quiet) ∧
      ∀ early late, reads = early ++ late → ∃ taken left held st events,
        Taken (messages.flatMap Message.frames) (early.map Read.buf).flatten quiet taken left held st events ∧
          parseReads quiet early = some (events, .ok { st with wsData := held }) := by
  have acceptedFrames := accepted_frames accepted
  have processed := processFrames_messages messages
  constructor
  · rw [stream_wires] at whole
    rw [parseReads_runFrames quiet_open.ready reads whole, runFrames_sent acceptedFrames quiet_open processed]
  · rintro early late rfl
    rw [List.map_append, List.flatten_append] at whole
    exact parseReads_cut early (late.map Read.buf).flatten acceptedFrames processed quiet_open whole

/-- Two fragments of one message, the first one with a mask. -/
def greeting : Message :=
  { first := ⟨[1, 2, 3, 4], [65, 66], .inr rfl, by decide⟩
    rest := [⟨[], [67], Fragment.unkeyed, by decide⟩]
    filled := by decide }

/-- The stream cut in the mask and in the second header. -/
def greetingReads : List Read :=
  [⟨[2, 130, 1], 0, fun _ => .last 3⟩, ⟨[2, 3, 4, 64, 64, 128], 0, fun _ => .castSucc (.last 2)⟩,
    ⟨[1, 67], 0, fun _ => .rev (.last 3)⟩]

theorem reassembly_greeting :
    parseReads quiet greetingReads = some ([.readQueuePut [65, 66, 67]], .ok quiet) ∧
      ∀ early late, greetingReads = early ++ late → ∃ taken left held st events,
        Taken ([greeting].flatMap Message.frames) (early.map Read.buf).flatten quiet taken left held st events ∧
          parseReads quiet early = some (events, .ok { st with wsData := held }) := by
  apply reassembly [greeting]
  · intro m member
    cases List.mem_singleton.mp member
    constructor
    · intro _
      decide
    · intro f member
      cases List.mem_singleton.mp member
      intro _
      decide
  · rfl

/-- A masked fragment beyond the limit is refused. -/
theorem parseReads_large {m : Message} (single : m.rest = []) (there : m.first.mask ≠ [])
    (large : m.first.payload.length > MAX_WEBSOCKET_PAYLOAD) :
    ∃ e, parseReads quiet [⟨stream m.frames, 0, fun _ => 0⟩] = some ([], .error e) := by
  have one : m.frames = [⟨false, true, m.first⟩] := by
    rw [Message.frames, single]
    rfl
  have refused : runFrame quiet (Sent.mk false true m.first).wire =
      .error (.valueError s!"data too large: {m.first.payload.length} bytes") := by
    rw [runFrame, Wire.opened, if_pos ⟨there, large⟩]
    rfl
  have read : parseReads quiet [⟨stream m.frames, 0, fun _ => 0⟩] =
      some (runFrames quiet (m.frames.map Sent.wire)) := by
    apply parseReads_runFrames quiet_open.ready
    rw [← stream_wires]
    exact List.append_nil _
  rw [one, List.map_cons, runFrames_error rfl refused, ← one] at read
  exact ⟨_, read⟩

theorem exists_large : ∃ m : Message, m.rest = [] ∧ m.first.mask ≠ [] ∧
    m.first.payload.length > MAX_WEBSOCKET_PAYLOAD := by
  have length : (List.replicate (2 ^ 30) (1 : UInt8)).length = 2 ^ 30 := List.length_replicate
  generalize List.replicate (2 ^ 30) (1 : UInt8) = payload at length
  have filled : payload ++ (([] : List Fragment).map Fragment.payload).flatten ≠ [] := by
    rw [List.map_nil, List.flatten_nil, List.append_nil, ← List.length_pos_iff, length]
    decide
  refine ⟨⟨⟨[0, 0, 0, 0], payload, .inr rfl, by rw [length]; decide⟩, [], filled⟩, rfl,
    List.cons_ne_nil _ _, ?_⟩
  rw [gt_iff_lt, length]
  decide

/-- A message of 2^30 bytes in one masked fragment. -/
theorem not_reassembly :
    ¬∀ (messages : List Message) (reads : List Read),
      (reads.map Read.buf).flatten = stream (messages.flatMap Message.frames) →
        parseReads quiet reads = some (messages.map fun m => .readQueuePut m.payload, .ok quiet) := by
  intro always
  obtain ⟨m, single, there, large⟩ := exists_large
  obtain ⟨e, refused⟩ := parseReads_large single there large
  have result := always [m] [⟨stream m.frames, 0, fun _ => 0⟩] (by simp)
  rw [refused] at result
  cases result

end Catlink.WebSocket
