import Catlink.Net.WebSocketMask

/-! Streams of frames: what is done with them does not depend on where the stream is cut. -/

namespace Catlink.WebSocket

open BigEndian

/-- The payload of a frame, a message or part of one, with its own mask or none. -/
structure Fragment where
  mask : Bytes
  payload : Bytes
  keyed : mask = [] ∨ mask.length = 4
  /-- the 64-bit form can express it -/
  fits : payload.length < 2 ^ 64

namespace Fragment

theorem unkeyed : ([] : Bytes) = [] ∨ ([] : Bytes).length = 4 := .inl rfl

def hasMask (f : Fragment) : Bool := f.mask ≠ []

/-- The bytes after the header and the mask. -/
def body (f : Fragment) : Bytes := if f.mask = [] then f.payload else masked f.mask 0 f.payload

/-- What `hybi_unmask` does not refuse. -/
def Accepted (f : Fragment) : Prop := f.mask ≠ [] → f.payload.length ≤ MAX_WEBSOCKET_PAYLOAD

theorem body_length (f : Fragment) : f.body.length = f.payload.length := by
  unfold body
  split
  · rfl
  · exact masked_length _ _ _

theorem mask_length (f : Fragment) : f.mask.length = if f.hasMask then 4 else 0 := by
  unfold hasMask
  rcases f.keyed with none | four
  · simp [none]
  · have there : f.mask ≠ [] := by
      intro none
      rw [none] at four
      cases four
    simp [there, four]

end Fragment

/-- A frame of any opcode in use, as it is sent. -/
structure Wire where
  opcode : Nat
  fin : Bool
  fragment : Fragment
  known : opcode ≤ OPCODE_PONG

namespace Wire

variable (w : Wire)

def bytes : Bytes :=
  match encodeHybiHeader w.opcode w.fragment.payload.length w.fragment.hasMask w.fin with
  | .ok header => header ++ w.fragment.mask ++ w.fragment.body
  | .error _ => []

def frame : Frame := ⟨w.opcode, w.fragment.payload, w.bytes.length, w.fin⟩

/-- What `decode_hybi` makes of it. -/
def opened : Except Exn Frame :=
  if w.fragment.mask ≠ [] ∧ w.fragment.payload.length > MAX_WEBSOCKET_PAYLOAD then
    .error (.valueError s!"data too large: {w.fragment.payload.length} bytes")
  else .ok w.frame

theorem opened_accepted {w : Wire} (accepted : w.fragment.Accepted) : w.opened = .ok w.frame := by
  rw [opened, if_neg]
  rintro ⟨there, large⟩
  exact absurd (accepted there) (Nat.not_le.mpr large)

/-! ### One frame -/

theorem header_ok :
    ∃ header, encodeHybiHeader w.opcode w.fragment.payload.length w.fragment.hasMask w.fin = .ok header := by
  have valid : w.opcode &&& 0x0f = w.opcode := by
    have mod : w.opcode &&& 0x0f = w.opcode % 16 := Nat.and_two_pow_sub_one_eq_mod w.opcode 4
    have known : w.opcode ≤ 10 := w.known
    rw [mod]
    omega
  unfold encodeHybiHeader
  rw [if_neg (not_not.mpr valid)]
  dsimp only
  split
  · exact ⟨_, rfl⟩
  split
  · exact ⟨_, rfl⟩
  · rw [if_pos w.fragment.fits]
    exact ⟨_, rfl⟩

theorem bytes_eq {header : Bytes}
    (encoded : encodeHybiHeader w.opcode w.fragment.payload.length w.fragment.hasMask w.fin = .ok header) :
    w.bytes = header ++ w.fragment.mask ++ w.fragment.body := by
  rw [bytes, encoded]

/-- A whole frame is decoded, whatever follows. -/
theorem decode (align : Fin 4) (rest : Bytes) :
    decodeHybi align (w.bytes ++ rest) = w.opened.map some := by
  obtain ⟨header, encoded⟩ := w.header_ok
  have bytes := w.bytes_eq encoded
  rw [← w.fragment.body_length] at encoded
  have whole := decodeHybi_frame align w.fragment.mask encoded w.fragment.mask_length rest
  rw [← bytes, WebSocket.opened, w.fragment.body_length] at whole
  rw [whole, Wire.opened]
  by_cases none : w.fragment.mask = []
  · rw [if_pos none, if_neg fun both => both.1 none, Fragment.body, if_pos none]
    rfl
  · rw [if_neg none]
    by_cases large : w.fragment.payload.length > MAX_WEBSOCKET_PAYLOAD
    · rw [if_pos large, if_pos ⟨none, large⟩]
      rfl
    · rw [if_neg large, if_neg fun both => large both.2, Fragment.body, if_neg none, masked_masked]
      rfl

end Wire

/-- The lengths cannot be read wrong from the beginning of a header. -/
theorem hybiLengths_prefix {length low : Nat} {ext : Bytes} (form : LengthForm length low ext)
    (b1 b2 : UInt8) (hasMask : Bool) {rest part later : Bytes} (cut : part ++ later = ext ++ rest) :
    hybiLengths (b1 :: b2 :: part) hasMask low = none ∨
      hybiLengths (b1 :: b2 :: part) hasMask low =
        some (2 + ext.length + (if hasMask then 4 else 0), length) := by
  have hlen : (if hasMask = true then 6 else 2) = 2 + if hasMask then 4 else 0 := by
    cases hasMask <;> rfl
  have extended : ∀ n, ext.length = n → n ≤ part.length → part.take n = ext := by
    intro n same enough
    have both := congrArg (List.take n) cut
    rwa [List.take_append_of_le_length enough, List.take_left' same] at both
  unfold hybiLengths
  simp only [hlen, List.length_cons, List.drop_succ_cons, List.drop_zero]
  generalize (if hasMask = true then 4 else 0) = extra
  by_cases short : part.length + 1 + 1 < 2 + extra
  · exact .inl (if_pos short)
  rw [if_neg short]
  cases form with
  | short fits =>
      rw [if_neg (by omega), if_neg (by omega)]
      right
      rfl
  | medium fits =>
      rw [if_pos rfl]
      split
      · exact .inl rfl
      · right
        rw [extended 2 (encodeBE_length 2 length) (by omega), decodeBE_encodeBE 2 length fits,
          encodeBE_length]
        congr 2
        omega
  | long fits =>
      rw [if_neg (by omega), if_pos rfl]
      split
      · exact .inl rfl
      · right
        rw [extended 8 (encodeBE_length 8 length) (by omega), decodeBE_encodeBE 8 length fits,
          encodeBE_length]
        congr 2
        omega

namespace Wire

variable (w : Wire)

/-- Part of a frame is not decoded. -/
theorem decode_part (align : Fin 4) {part later : Bytes} (cut : part ++ later = w.bytes)
    (missing : later ≠ []) : decodeHybi align part = .ok none := by
  obtain ⟨header, encoded⟩ := w.header_ok
  have bytes := w.bytes_eq encoded
  obtain ⟨b1, b2, ext, rfl, head⟩ := encodeHybiHeader_ok encoded
  rw [bytes] at cut
  match part, cut with
  | [], _ => rfl
  | [_], _ => rfl
  | c1 :: c2 :: part, cut =>
      simp only [List.cons_append, List.cons.injEq, List.append_assoc] at cut
      obtain ⟨first, second, tail⟩ := cut
      subst first second
      have short : part.length < ext.length + (w.fragment.mask.length + w.fragment.payload.length) := by
        have total := congrArg List.length tail
        have positive := List.length_pos_iff.mpr missing
        simp only [List.length_append, w.fragment.body_length] at total
        omega
      unfold decodeHybi
      simp only [head.mask]
      rcases hybiLengths_prefix head.length c1 c2 w.fragment.hasMask tail with none | some
      · simp only [none]
      · simp only [some]
        rw [w.fragment.mask_length] at short
        rw [if_pos (by simp only [List.length_cons]; omega)]

theorem bytes_ne : w.bytes ≠ [] := by
  obtain ⟨header, encoded⟩ := w.header_ok
  rw [w.bytes_eq encoded]
  obtain ⟨b1, b2, ext, rfl, _⟩ := encodeHybiHeader_ok encoded
  exact List.cons_ne_nil _ _

theorem head_code {b : UInt8} {rest : Bytes} (head : w.bytes = b :: rest) :
    b.toNat &&& 0x0f = w.opcode := by
  obtain ⟨header, encoded⟩ := w.header_ok
  rw [w.bytes_eq encoded] at head
  obtain ⟨b1, b2, ext, rfl, bytes⟩ := encodeHybiHeader_ok encoded
  rw [← (List.cons.inj head).1]
  exact bytes.code

/-- No frame begins like a newline. -/
theorem head_ne {rest : Bytes} : w.bytes ≠ 13 :: rest := by
  intro newline
  have known := w.known
  rw [← w.head_code newline] at known
  exact absurd known (by decide)

end Wire

/-! ### The stream, cut anywhere -/

def wires (frames : List Wire) : Bytes := frames.flatMap Wire.bytes

@[simp] theorem wires_nil : wires [] = [] := rfl

@[simp] theorem wires_cons (w : Wire) (frames : List Wire) :
    wires (w :: frames) = w.bytes ++ wires frames := List.flatMap_cons

@[simp] theorem wires_append (frames frames' : List Wire) :
    wires (frames ++ frames') = wires frames ++ wires frames' := List.flatMap_append

def runFrame (st : WsState) (w : Wire) : Except Exn (WsState × List Event) := do
  let frame ← w.opened
  processFrame st frame

/-- The frames processed one after the other, while the connection is there. -/
def runFrames : WsState → List Wire → List Event × Except Exn WsState
  | st, [] => ([], .ok st)
  | st, w :: frames =>
      if st.closed then ([], .ok st)
      else
        match runFrame st w with
        | .error e => ([], .error e)
        | .ok (st, events) =>
            let (later, result) := runFrames st frames
            (events ++ later, result)

theorem runFrames_closed {st : WsState} (closed : st.closed = true) (frames : List Wire) :
    runFrames st frames = ([], .ok st) := by
  cases frames with
  | nil => rfl
  | cons w frames => rw [runFrames, if_pos closed]

section Runs

variable {st st' : WsState} {w : Wire} {events : List Event} {frames : List Wire}

theorem runFrames_error (active : st.closed = false) {e : Exn} (one : runFrame st w = .error e) :
    runFrames st (w :: frames) = ([], .error e) := by
  rw [runFrames, active, if_neg Bool.false_ne_true, one]

theorem runFrames_ok (active : st.closed = false) (one : runFrame st w = .ok (st', events)) :
    runFrames st (w :: frames) = (events ++ (runFrames st' frames).1, (runFrames st' frames).2) := by
  rw [runFrames, active, if_neg Bool.false_ne_true, one]

theorem runFrames_append_error {e : Exn} (before : runFrames st frames = (events, .error e))
    (frames' : List Wire) : runFrames st (frames ++ frames') = (events, .error e) := by
  induction frames generalizing st events with
  | nil => cases before
  | cons w frames ih =>
      cases active : st.closed with
      | true =>
          rw [runFrames_closed active] at before
          cases before
      | false =>
          cases one : runFrame st w with
          | error e' =>
              rw [runFrames_error active one] at before
              cases before
              exact runFrames_error active one
          | ok r =>
              obtain ⟨next, first⟩ := r
              rw [runFrames_ok active one, Prod.mk.injEq] at before
              rw [List.cons_append, runFrames_ok active one, ih (Prod.ext rfl before.2), before.1]

theorem runFrames_append_ok (before : runFrames st frames = (events, .ok st')) (frames' : List Wire) :
    runFrames st (frames ++ frames') =
      (events ++ (runFrames st' frames').1, (runFrames st' frames').2) := by
  induction frames generalizing st events with
  | nil =>
      cases before
      rfl
  | cons w frames ih =>
      cases active : st.closed with
      | true =>
          rw [runFrames_closed active] at before
          cases before
          rw [runFrames_closed active, runFrames_closed active]
          rfl
      | false =>
          cases one : runFrame st w with
          | error e =>
              rw [runFrames_error active one] at before
              cases before
          | ok r =>
              obtain ⟨next, first⟩ := r
              rw [runFrames_ok active one, Prod.mk.injEq] at before
              rw [List.cons_append, runFrames_ok active one, ih (Prod.ext rfl before.2), ← before.1,
                List.append_assoc]

end Runs

/-- Ready for the next frame. -/
structure Ready (st : WsState) : Prop where
  active : st.closed = false
  wsData : st.wsData = []
  opcode : st.wsPayloadOpcode = 0 ∨ st.wsPayloadOpcode = OPCODE_TEXT ∨ st.wsPayloadOpcode = OPCODE_BINARY

theorem processPayload_cases {st : WsState} (ready : Ready st) (opcode : Nat) (payload : Bytes) :
    Ready (processPayload st opcode payload).1 ∨
      ((processPayload st opcode payload).1.closed = true ∧
        (processPayload st opcode payload).1.wsData = []) := by
  unfold processPayload
  split
  · split <;> exact .inl ready
  split
  · exact .inr ⟨rfl, rfl⟩
  split <;> exact .inl ready

theorem runFrame_cases {st st' : WsState} {w : Wire} {events : List Event} (ready : Ready st)
    (done : runFrame st w = .ok (st', events)) : Ready st' ∨ (st'.closed = true ∧ st'.wsData = []) := by
  obtain ⟨frame, -, done⟩ := ok_of_bind done
  unfold processFrame at done
  split at done
  · split at done
    · cases done
    dsimp only at done
    split at done
    · cases done
      exact .inl ⟨ready.active, ready.wsData, ready.opcode⟩
    · have kept : Ready { st with wsPayload := [], wsPayloadOpcode := 0 } :=
        ⟨ready.active, ready.wsData, .inl rfl⟩
      have cases := processPayload_cases kept st.wsPayloadOpcode (st.wsPayload ++ [frame.payload]).flatten
      rwa [Except.ok.inj done] at cases
  · split at done
    · cases done
    split at done
    · split at done
      · cases done
      · rename_i data
        cases done
        refine .inl ⟨ready.active, ready.wsData, .inr ?_⟩
        by_cases text : frame.opcode = OPCODE_TEXT
        · exact .inl text
        · exact .inr (not_not.mp fun other => data ⟨other, text⟩)
    · have cases := processPayload_cases ready frame.opcode frame.payload
      rwa [Except.ok.inj done] at cases

/-- What is kept is less than the next frame. -/
def Short (held : Bytes) (left : List Wire) : Prop :=
  held = [] ∨ ∃ w rest, left = w :: rest ∧ held.length < w.bytes.length

/-- What reading comes to when some of the frames are taken: one of them raised, or closed the
connection, or part of the next one is kept. -/
inductive Parsed (st : WsState) (taken left : List Wire) (held : Bytes) :
    Option (List Event × Except Exn WsState) → Prop
  | raised {events : List Event} {e : Exn} (runs : runFrames st taken = (events, .error e)) :
      Parsed st taken left held (some (events, .error e))
  | closed {events : List Event} {st' : WsState} (runs : runFrames st taken = (events, .ok st'))
      (closed : st'.closed = true) (wsData : st'.wsData = []) :
      Parsed st taken left held (some (events, .ok st'))
  | kept {events : List Event} {st' : WsState} (runs : runFrames st taken = (events, .ok st'))
      (ready : Ready st') (short : Short held left) :
      Parsed st taken left held (some (events, .ok { st' with wsData := held }))

/-- With a frame before. -/
theorem Parsed.later {st next : WsState} {w : Wire} {first : List Event} {taken left : List Wire}
    {held : Bytes} {result : Option (List Event × Except Exn WsState)}
    (parsed : Parsed next taken left held result) (active : st.closed = false)
    (one : runFrame st w = .ok (next, first)) :
    Parsed st (w :: taken) left held (result.map fun r => (first ++ r.1, r.2)) := by
  cases parsed with
  | raised runs => exact .raised (by rw [runFrames_ok active one, runs])
  | closed runs closed wsData => exact .closed (by rw [runFrames_ok active one, runs]) closed wsData
  | kept runs ready short => exact .kept (by rw [runFrames_ok active one, runs]) ready short

theorem parseFrames_nothing (align : Bytes → Fin 4) (fuel : Nat) (frames : List Wire) {st : WsState}
    (ready : Ready st) : Parsed st [] frames [] (parseFrames align (fuel + 1) st []) := by
  rw [parseFrames, if_pos (.inl rfl)]
  have same : st = { st with wsData := [] } := by rw [← ready.wsData]
  rw [same]
  exact .kept (by rw [← same]; rfl) ready (.inl rfl)

theorem parseFrames_stops (align : Bytes → Fin 4) (fuel : Nat) (data : Bytes) {st : WsState}
    (closed : st.closed = true) : parseFrames align (fuel + 1) st data = some ([], .ok st) := by
  rw [parseFrames, if_pos (.inr closed)]

/-- A turn with a whole frame. -/
theorem parseFrames_whole (align : Bytes → Fin 4) (fuel : Nat) {st : WsState} (active : st.closed = false)
    (w : Wire) (data : Bytes) :
    parseFrames align (fuel + 1) st (w.bytes ++ data) =
      match runFrame st w with
      | .error e => some ([], .error e)
      | .ok (next, first) => (parseFrames align fuel next data).map fun r => (first ++ r.1, r.2) := by
  have go : ¬(w.bytes ++ data = [] ∨ st.closed = true) := by
    rw [active]
    simp [w.bytes_ne]
  rw [parseFrames, if_neg go, w.decode, runFrame]
  cases opened : w.opened with
  | error e => rfl
  | ok frame =>
      have length : frame.length = w.bytes.length := by
        unfold Wire.opened at opened
        split at opened
        · cases opened
        · cases opened
          rfl
      simp only [Except.map, bind, Except.bind, length, List.drop_left']
      cases processFrame st frame with
      | error e => rfl
      | ok r =>
          obtain ⟨next, first⟩ := r
          dsimp only
          cases parseFrames align fuel next data <;> rfl

theorem parseFrames_wires (align : Bytes → Fin 4) (fuel : Nat) {frames : List Wire} {st : WsState}
    (ready : Ready st) {data later : Bytes} (cut : data ++ later = wires frames)
    (enough : data.length < fuel + 1) :
    ∃ taken left held, frames = taken ++ left ∧ data = wires taken ++ held ∧
      Parsed st taken left held (parseFrames align (fuel + 1) st data) := by
  induction frames generalizing st data fuel with
  | nil =>
      rw [(List.append_eq_nil_iff.mp cut).1]
      exact ⟨[], [], [], rfl, rfl, parseFrames_nothing align fuel [] ready⟩
  | cons w frames ih =>
      have positive := List.length_pos_iff.mpr w.bytes_ne
      rw [wires_cons] at cut
      by_cases none : data = []
      · rw [none]
        exact ⟨[], w :: frames, [], rfl, rfl, parseFrames_nothing align fuel _ ready⟩
      have active : ¬(data = [] ∨ st.closed = true) := by
        rw [ready.active]
        simp [none]
      by_cases complete : w.bytes.length ≤ data.length
      · obtain ⟨data', rfl⟩ : ∃ data', data = w.bytes ++ data' := by
          obtain ⟨data', same⟩ := List.prefix_of_prefix_length_le ⟨_, rfl⟩ ⟨later, cut⟩ complete
          exact ⟨data', same.symm⟩
        rw [List.append_assoc] at cut
        have cut' := List.append_cancel_left cut
        rw [List.length_append] at enough
        obtain ⟨fuel, rfl⟩ := Nat.exists_eq_succ_of_ne_zero (n := fuel) (by omega)
        rw [parseFrames_whole align _ ready.active]
        cases one : runFrame st w with
        | error e => exact ⟨[w], frames, data', rfl, by simp, .raised (runFrames_error ready.active one)⟩
        | ok r =>
            obtain ⟨next, first⟩ := r
            rcases runFrame_cases ready one with ready' | ⟨closed, wsData⟩
            · obtain ⟨taken, left, held, split, data, parsed⟩ := ih fuel ready' cut' (by omega)
              refine ⟨w :: taken, left, held, by rw [split, List.cons_append],
                by rw [data, wires_cons, List.append_assoc], ?_⟩
              exact parsed.later ready.active one
            · refine ⟨[w], frames, data', rfl, by simp, ?_⟩
              dsimp only
              rw [parseFrames_stops align fuel data' closed]
              exact .closed (runFrames_ok ready.active one) closed wsData
      · obtain ⟨part, same⟩ : ∃ part, data ++ part = w.bytes :=
          List.prefix_of_prefix_length_le ⟨later, cut⟩ ⟨_, rfl⟩ (by omega)
        have missing : part ≠ [] := by
          rintro rfl
          rw [List.append_nil] at same
          rw [same] at complete
          exact complete (Nat.le_refl _)
        refine ⟨[], w :: frames, data, rfl, rfl, ?_⟩
        rw [parseFrames, if_neg active, w.decode_part (align data) same missing]
        exact .kept rfl ready (.inr ⟨w, frames, rfl, by omega⟩)

theorem stripNewlines_wires (n : Nat) (data later : Bytes) (frames : List Wire)
    (cut : data ++ later = wires frames) : stripNewlines n data = data := by
  unfold stripNewlines
  split
  · rename_i rest
    cases frames with
    | nil => cases cut
    | cons w frames =>
        exfalso
        rw [wires_cons] at cut
        cases bytes : w.bytes with
        | nil => exact w.bytes_ne bytes
        | cons b bs =>
            rw [bytes] at cut
            have first := (List.cons.inj cut).1
            subst first
            exact w.head_ne bytes
  · rfl

theorem parseReads_closed {st : WsState} (closed : st.closed = true) (wsData : st.wsData = [])
    (reads : List Read) : parseReads st reads = some ([], .ok st) := by
  induction reads with
  | nil => rfl
  | cons read reads ih =>
      have same : { st with wsData := [] } = st := by rw [← wsData]
      have one : parseWsFrame st read = some ([], .ok st) := by
        rw [parseWsFrame, same]
        exact parseFrames_stops _ _ _ closed
      rw [parseReads, one]
      simp only [Option.bind_eq_bind, Option.bind_some, ih, List.nil_append]

/-- What is read is the stream, or ends within it. -/
theorem parseReads_wires (reads : List Read) (later : Bytes) {frames : List Wire} {st : WsState}
    (ready : Ready st) {held : Bytes} (short : Short held frames)
    (cut : held ++ (reads.map Read.buf).flatten ++ later = wires frames) :
    ∃ taken left rest, frames = taken ++ left ∧
      held ++ (reads.map Read.buf).flatten = wires taken ++ rest ∧
      Parsed st taken left rest (parseReads { st with wsData := held } reads) := by
  induction reads generalizing frames st held with
  | nil =>
      refine ⟨[], frames, held, rfl, ?_, .kept rfl ready short⟩
      simp
  | cons read reads ih =>
      rw [List.map_cons, List.flatten_cons, ← List.append_assoc] at cut ⊢
      have cutFirst : (held ++ read.buf) ++ ((reads.map Read.buf).flatten ++ later) = wires frames := by
        rw [← cut, List.append_assoc (held ++ read.buf)]
      obtain ⟨taken, left, held', split, data, parsed⟩ :=
        parseFrames_wires read.align _ ready cutFirst (Nat.lt_succ_self _)
      have one : parseWsFrame { st with wsData := held } read =
          parseFrames read.align ((held ++ read.buf).length + 1) st (held ++ read.buf) := by
        rw [parseWsFrame]
        simp only [stripNewlines_wires read.inputPacketcount _ _ _ cutFirst]
        congr 1
        rw [← ready.wsData]
      rw [parseReads, one]
      generalize parseFrames read.align _ st _ = result at parsed
      cases parsed with
      | raised runs =>
          refine ⟨taken, left, held' ++ (reads.map Read.buf).flatten, split, ?_, .raised runs⟩
          rw [data, List.append_assoc]
      | closed runs closed wsData =>
          refine ⟨taken, left, held' ++ (reads.map Read.buf).flatten, split, ?_, ?_⟩
          · rw [data, List.append_assoc]
          · simp only [Option.bind_eq_bind, Option.bind_some, parseReads_closed closed wsData,
              List.append_nil]
            exact .closed runs closed wsData
      | kept runs ready' short' =>
          rename_i events st'
          have cutRest : held' ++ (reads.map Read.buf).flatten ++ later = wires left := by
            have parts := cutFirst
            rw [data, split, wires_append, List.append_assoc] at parts
            rw [List.append_assoc]
            exact List.append_cancel_left parts
          obtain ⟨taken', left', rest, split', data', parsed'⟩ := ih ready' short' cutRest
          refine ⟨taken ++ taken', left', rest, ?_, ?_, ?_⟩
          · rw [split, split', List.append_assoc]
          · rw [data, List.append_assoc, data', wires_append, List.append_assoc]
          · have whole := runFrames_append_ok runs taken'
            simp only [Option.bind_eq_bind, Option.bind_some]
            generalize parseReads _ reads = result at parsed'
            cases parsed' with
            | raised runs' => exact .raised (by rw [whole, runs'])
            | closed runs' closed wsData => exact .closed (by rw [whole, runs']) closed wsData
            | kept runs' ready'' short'' => exact .kept (by rw [whole, runs']) ready'' short''

theorem initial_ready : Ready ⟨[], [], 0, false⟩ := ⟨rfl, rfl, .inl rfl⟩

/-- The whole stream comes to the same in whatever pieces it is read. -/
theorem parseReads_runFrames {frames : List Wire} {st : WsState} (ready : Ready st) (reads : List Read)
    (whole : (reads.map Read.buf).flatten = wires frames) :
    parseReads st reads = some (runFrames st frames) := by
  have same : { st with wsData := [] } = st := by rw [← ready.wsData]
  obtain ⟨taken, left, rest, split, data, parsed⟩ := parseReads_wires reads [] ready (.inl rfl)
    (show [] ++ (reads.map Read.buf).flatten ++ [] = wires frames by simpa using whole)
  rw [List.nil_append, whole, split, wires_append] at data
  have remains := List.append_cancel_left data
  rw [same] at parsed
  rw [split]
  generalize parseReads st reads = result at parsed
  cases parsed with
  | raised runs => rw [runFrames_append_error runs]
  | closed runs closed wsData => rw [runFrames_append_ok runs, runFrames_closed closed, List.append_nil]
  | kept runs ready' short =>
      rename_i events st'
      have none : left = [] ∧ rest = [] := by
        rcases short with rfl | ⟨w, frames, rfl, less⟩
        · cases left with
          | nil => exact ⟨rfl, rfl⟩
          | cons w frames =>
              rw [wires_cons] at remains
              exact absurd (List.append_eq_nil_iff.mp remains).1 w.bytes_ne
        · have lengths := congrArg List.length remains
          rw [wires_cons, List.length_append] at lengths
          omega
      obtain ⟨rfl, rfl⟩ := none
      rw [List.append_nil, runs]
      have emptied : { st' with wsData := [] } = st' := by rw [← ready'.wsData]
      rw [emptied]

end Catlink.WebSocket
