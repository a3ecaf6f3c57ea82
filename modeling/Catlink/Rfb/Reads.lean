import Catlink.Rfb.Protocol
import Catlink.Lib.Cuts

/-! What the stages of the RFB handshake do with the reads that come, however the stream is cut. -/

namespace Catlink.Rfb

open Auth Cuts

variable {o : Outside} {p q : RFBProtocol}

/-! ### The loop over the buffer -/

def RFBProtocol.holding (p : RFBProtocol) (buffer : Bytes) : RFBProtocol := { p with buffer := buffer }

@[simp] theorem holding_holding (p : RFBProtocol) (first second : Bytes) :
    (p.holding first).holding second = p.holding second := rfl

@[simp] theorem holding_buffer (p : RFBProtocol) (buffer : Bytes) :
    (p.holding buffer).buffer = buffer := rfl

theorem holding_same (p : RFBProtocol) : p.holding p.buffer = p := rfl

/-- A loop has turns enough when there is one for each byte of the buffer. -/
theorem turns_enough (o : Outside) {fuel fuel' : Nat} {p : RFBProtocol}
    (enough : p.buffer.length ≤ fuel) (enough' : p.buffer.length ≤ fuel') :
    p.turns o fuel = p.turns o fuel' := by
  induction fuel generalizing fuel' p with
  | zero =>
      have empty : p.buffer = [] := List.length_eq_zero_iff.mp (by omega)
      cases fuel' with
      | zero => rfl
      | succ fuel' => rw [RFBProtocol.turns, RFBProtocol.turns, if_pos empty]
  | succ fuel ih =>
      cases fuel' with
      | zero =>
          have empty : p.buffer = [] := List.length_eq_zero_iff.mp (by omega)
          rw [RFBProtocol.turns, RFBProtocol.turns, if_pos empty]
      | succ fuel' =>
          rw [RFBProtocol.turns, RFBProtocol.turns]
          split
          · rfl
          · split
            · rfl
            · split
              · next shorter => exact ih (by omega) (by omega)
              · rfl

/-- The loop, to its end. -/
def RFBProtocol.drain (o : Outside) (p : RFBProtocol) : RFBProtocol := p.turns o p.buffer.length

theorem drain_empty (empty : p.buffer = []) : p.drain o = p := by
  rw [RFBProtocol.drain, empty]
  rfl

theorem drain_filled (filled : p.buffer ≠ []) : ∃ fuel, p.buffer.length = fuel + 1 :=
  Nat.exists_eq_succ_of_ne_zero fun none => filled (List.length_eq_zero_iff.mp none)

theorem drain_stop (filled : p.buffer ≠ []) (turn : p.turn o = (q, false)) : p.drain o = q := by
  obtain ⟨fuel, size⟩ := drain_filled filled
  rw [RFBProtocol.drain, size, RFBProtocol.turns, if_neg filled, turn]

theorem drain_more (filled : p.buffer ≠ []) (turn : p.turn o = (q, true))
    (shorter : q.buffer.length < p.buffer.length) : p.drain o = q.drain o := by
  obtain ⟨fuel, size⟩ := drain_filled filled
  rw [RFBProtocol.drain, size, RFBProtocol.turns, if_neg filled, turn]
  dsimp only
  rw [if_pos shorter]
  exact turns_enough o (by omega) (Nat.le_refl _)

theorem read_active (active : p.Active) (buf : Bytes) :
    p.read o buf = (p.holding (p.buffer ++ buf)).drain o := by
  rw [RFBProtocol.read, if_pos active]
  rfl

theorem run_cons (buf : Bytes) (reads : List Bytes) :
    p.run o (buf :: reads) = (p.read o buf).run o reads := rfl

/-- Nothing is read any more. -/
theorem run_inactive (inactive : ¬ p.Active) (reads : List Bytes) : p.run o reads = p := by
  induction reads with
  | nil => rfl
  | cons buf reads ih => rw [run_cons, RFBProtocol.read, if_neg inactive, ih]

/-! ### One turn -/

/-- A parser that waits for more leaves the buffer. -/
theorem turn_waits (parse : p.parse o = (q, .ok 0)) : p.turn o = (q, false) := by
  rw [RFBProtocol.turn, parse]
  rfl

theorem turn_takes {n : Nat} (parse : p.parse o = (q, .ok n)) (some : 0 < n) :
    p.turn o = (q.holding (q.buffer.drop n), true) := by
  rw [RFBProtocol.turn, parse]
  dsimp only
  rw [if_neg (by omega)]
  have start : sliceFrom q.buffer n = q.buffer.drop n := by
    rw [sliceFrom, if_neg (by omega), Int.toNat_natCast]
  rw [start]
  rfl

/-- The first bytes of the buffer are taken, and the loop goes on with the others. -/
theorem drain_takes {n : Nat} (filled : p.buffer ≠ []) (parse : p.parse o = (q, .ok n)) (some : 0 < n)
    (same : q.buffer = p.buffer) : p.drain o = (q.holding (p.buffer.drop n)).drain o := by
  have turn := turn_takes parse some
  rw [same] at turn
  apply drain_more filled turn
  have size := List.length_pos_iff.mpr filled
  simp only [holding_buffer, List.length_drop]
  omega

/-- To go on with what is left of a read is to read it. -/
theorem drain_rest (active : q.Active) (empty : q.buffer = []) {buf : Bytes} {reads : List Bytes}
    (filled : ∀ buf ∈ reads, buf ≠ []) {n : Nat} (within : n ≤ buf.length) :
    ((q.holding (buf.drop n)).drain o).run o reads = q.run o (dropReads n (buf :: reads)) := by
  rw [dropReads]
  split
  · rw [run_cons, read_active active, empty, List.nil_append]
  · next all =>
      have whole : n = buf.length := by omega
      have same : q.holding [] = q := by rw [← empty, holding_same]
      rw [whole, List.drop_length, Nat.sub_self, same, drain_empty empty, dropReads_zero filled]

/-! ### The version -/

/-- `b"RFB 003.008\n"` -/
def versionMessage : Bytes := [82, 70, 66, 32, 48, 48, 51, 46, 48, 48, 56, 10]

theorem parse_version (more : Bytes) :
    parseProtocolHandshake p (versionMessage ++ more) = (handshakeComplete p, .ok 12) := by
  have enough : ¬ (versionMessage ++ more).length < 12 := by
    rw [List.length_append]
    exact Nat.not_lt.mpr (Nat.le_add_right 12 more.length)
  have start : (versionMessage ++ more).take 11 = versionMessage.take 11 :=
    List.take_append_of_le_length (by decide)
  have version : (splitPoints ((versionMessage.take 11).drop 4)).mapM Rencodeplus.pyInt =
      .ok [3, 8] := rfl
  rw [parseProtocolHandshake, if_neg enough, start, version]
  rfl

theorem handshakeComplete_holding (p : RFBProtocol) (buffer : Bytes) :
    handshakeComplete (p.holding buffer) = (handshakeComplete p).holding buffer := by
  unfold handshakeComplete RFBProtocol.send RFBProtocol.holding
  dsimp only
  split
  · rfl
  · rfl

theorem handshakeComplete_active (active : p.Active) : (handshakeComplete p).Active := by
  unfold handshakeComplete RFBProtocol.send
  dsimp only
  split
  · exact active
  · exact active

/-- With what the buffer holds, the version comes in the reads. -/
theorem handshake_run (active : p.Active) (here : p.packetParser = .protocolHandshake)
    (short : p.buffer.length < 12) {reads : List Bytes} (filled : ∀ buf ∈ reads, buf ≠ [])
    {rest : Bytes} (stream : p.buffer ++ reads.flatten = versionMessage ++ rest) :
    p.run o reads =
      ((handshakeComplete p).holding []).run o (dropReads (12 - p.buffer.length) reads) := by
  induction reads generalizing p with
  | nil =>
      have size := congrArg List.length stream
      simp only [List.flatten_nil, List.append_nil, List.length_append] at size
      have version : versionMessage.length = 12 := rfl
      omega
  | cons buf reads ih =>
      have size : (p.buffer ++ buf).length = p.buffer.length + buf.length := List.length_append
      have some := List.length_pos_iff.mpr (filled buf List.mem_cons_self)
      have later : ∀ buf ∈ reads, buf ≠ [] := fun buf inside => filled buf (List.mem_cons_of_mem _ inside)
      have held : (p.holding (p.buffer ++ buf)).buffer ≠ [] :=
        List.append_ne_nil_of_right_ne_nil _ (filled buf List.mem_cons_self)
      have parse : (p.holding (p.buffer ++ buf)).parse o =
          parseProtocolHandshake (p.holding (p.buffer ++ buf)) (p.buffer ++ buf) := by
        rw [RFBProtocol.parse, RFBProtocol.holding]
        simp only [here]
      rw [List.flatten_cons, ← List.append_assoc] at stream
      rw [run_cons, read_active active]
      by_cases still : (p.buffer ++ buf).length < 12
      · rw [parseProtocolHandshake, if_pos still] at parse
        have same : 12 - p.buffer.length - buf.length = 12 - (p.buffer ++ buf).length := by omega
        rw [drain_stop held (turn_waits parse), dropReads, if_neg (by omega), same]
        have rest := ih (p := p.holding (p.buffer ++ buf)) active here still later stream
        rwa [handshakeComplete_holding, holding_holding] at rest
      · have enough : 12 ≤ (p.buffer ++ buf).length := by omega
        have start : (p.buffer ++ buf).take 12 = versionMessage := by
          have both := congrArg (List.take 12) stream
          rwa [List.take_append_of_le_length enough] at both
        have left : (p.buffer ++ buf).drop 12 = buf.drop (12 - p.buffer.length) := by
          rw [List.drop_append, List.drop_of_length_le (by omega), List.nil_append]
        have split : p.buffer ++ buf = versionMessage ++ buf.drop (12 - p.buffer.length) := by
          rw [← left, ← start, List.take_append_drop]
        rw [split, parse_version, handshakeComplete_holding, ← split] at parse
        rw [drain_takes held parse (by decide) rfl, holding_holding, holding_buffer, left]
        exact drain_rest (q := (handshakeComplete p).holding []) (handshakeComplete_active active) rfl
          later (by omega)

/-! ### What becomes of a stream -/

/-- The outcome of the authentication, the sharing flag, and the packets for the callback. -/
structure Ending where
  accepted : Bool
  share : Bool
  packets : List Packet

/-- SecurityResult says that all is well. -/
def Event.opens : Event → Bool
  | .sent (.securityResult 0) => true
  | _ => false

/-- Every connection is lost in the end. -/
def Event.packet? : Event → Option Packet
  | .packet .connectionLost => none
  | .packet handed => some handed
  | _ => none

def Callback.packet? : Callback → Option Packet
  | .processPacket handed => some handed
  | _ => none

def RFBProtocol.ending (p : RFBProtocol) : Ending where
  accepted := p.events.any Event.opens
  share := p.share
  packets := p.events.filterMap Event.packet? ++ p.callbacks.filterMap Callback.packet?

theorem schedule_ending {callback : Callback} (plain : callback.packet? = none) :
    (p.schedule callback).ending = p.ending := by
  have same : (p.callbacks ++ [callback]).filterMap Callback.packet? =
      p.callbacks.filterMap Callback.packet? := by
    rw [List.filterMap_append, List.filterMap_cons_none plain, List.filterMap_nil, List.append_nil]
  simp only [RFBProtocol.ending, RFBProtocol.schedule, same]

theorem close_ending (p : RFBProtocol) : p.close.ending = p.ending := by
  unfold RFBProtocol.close
  split
  · rfl
  · have opens : (p.events ++ [Event.packet .connectionLost]).any Event.opens =
        p.events.any Event.opens := by
      rw [List.any_append]
      exact Bool.or_false _
    have packets : (p.events ++ [Event.packet .connectionLost]).filterMap Event.packet? =
        p.events.filterMap Event.packet? := by
      rw [List.filterMap_append]
      exact List.append_nil _
    simp only [RFBProtocol.ending, RFBProtocol.processPacket, RFBProtocol.note, opens, packets]

/-! ### The security type -/

/-- What the answer to a security type is. -/
inductive Selection
  | refused
  /-- an exception -/
  | fails
  | admitted
  /-- the challenge is sent -/
  | challenged (challenge : Bytes) (a : Authenticator)

def select (o : Outside) (a : Option Authenticator) (securityType : UInt8) : Selection :=
  if securityType = authVnc then
    match a with
    | none => .fails
    | some (m, s) =>
        match m.getChallenge o.answers.getSalt s ["des"] with
        | (s, .ok (challenge, "des")) => .challenged (challenge.take 16) (m, s)
        | _ => .fails
  else
    match a with
    | none => .admitted
    | some (m, _) => if m.requiresChallenge then .refused else .admitted

/-- The byte came with others. -/
theorem security_read (active : p.Active) (here : p.packetParser = .securityHandshake) {buf : Bytes}
    (long : 2 ≤ (p.buffer ++ buf).length) :
    p.read o buf = (p.holding (p.buffer ++ buf)).schedule .connectionLost := by
  have held : (p.holding (p.buffer ++ buf)).buffer ≠ [] := by
    intro empty
    rw [holding_buffer] at empty
    rw [empty] at long
    exact absurd long (by decide)
  have parse : (p.holding (p.buffer ++ buf)).parse o =
      ((p.holding (p.buffer ++ buf)).schedule .connectionLost, .ok 0) := by
    have opened : (p.holding (p.buffer ++ buf)).closed = false := active.2.1
    rw [RFBProtocol.parse]
    simp only [RFBProtocol.holding, here]
    unfold parseSecurityHandshake
    split
    · next one =>
        rw [one] at long
        exact absurd long (by simp)
    · rw [RFBProtocol.internalError, if_neg (by simpa [RFBProtocol.holding] using opened)]
  rw [read_active active, drain_stop held (turn_waits parse)]

theorem security_stuck (active : p.Active) (here : p.packetParser = .securityHandshake)
    (long : 2 ≤ p.buffer.length) (reads : List Bytes) : (p.run o reads).ending = p.ending := by
  induction reads generalizing p with
  | nil => rfl
  | cons buf reads ih =>
      have longer : 2 ≤ (p.buffer ++ buf).length := by
        rw [List.length_append]
        omega
      rw [run_cons, security_read active here longer]
      have later := ih (p := (p.holding (p.buffer ++ buf)).schedule .connectionLost) active here longer
      have plain : Callback.connectionLost.packet? = none := rfl
      exact later.trans (schedule_ending plain)

/-- Whatever comes is thrown away. -/
theorem invalid_run (active : p.Active) (here : p.packetParser = .invalid) (reads : List Bytes) :
    (p.run o reads).ending = p.ending := by
  induction reads generalizing p with
  | nil => rfl
  | cons buf reads ih =>
      rw [run_cons, read_active active]
      by_cases held : (p.holding (p.buffer ++ buf)).buffer = []
      · rw [drain_empty held]
        exact ih active here
      · have parse : (p.holding (p.buffer ++ buf)).parse o =
            (p.holding (p.buffer ++ buf), .ok (p.holding (p.buffer ++ buf)).buffer.length) := by
          rw [RFBProtocol.parse]
          simp only [RFBProtocol.holding, here]
        rw [drain_takes held parse (List.length_pos_iff.mpr held) rfl, List.drop_length,
          drain_empty rfl]
        exact ih active here

/-! ### The response to the challenge -/

def RFBProtocol.authenticated (p : RFBProtocol) (a : Authenticator) : RFBProtocol :=
  { p with authenticator := some a }

/-- Fewer than 16 bytes: more are waited for. -/
theorem challenge_waits (active : p.Active) (here : p.packetParser = .challenge) {buf : Bytes}
    (some : buf ≠ []) (few : (p.buffer ++ buf).length < 16) :
    p.read o buf = p.holding (p.buffer ++ buf) := by
  have held : (p.holding (p.buffer ++ buf)).buffer ≠ [] := List.append_ne_nil_of_right_ne_nil _ some
  have parse : (p.holding (p.buffer ++ buf)).parse o = (p.holding (p.buffer ++ buf), .ok 0) := by
    rw [RFBProtocol.parse]
    simp only [RFBProtocol.holding, here]
    rw [parseChallenge, if_pos few]
  rw [read_active active, drain_stop held (turn_waits parse)]

/-- The reads up to the first piece. -/
theorem challenge_first (active : p.Active) (here : p.packetParser = .challenge)
    {reads after : List Bytes} {piece : Bytes} (filled : ∀ buf ∈ reads, buf ≠ [])
    (first : First 16 p.buffer reads piece after) :
    p.run o reads = ((p.holding piece).drain o).run o after := by
  generalize held : p.buffer = buffer at first
  induction first generalizing p with
  | now reads enough => rw [run_cons, read_active active, held]
  | @wait buffer buf piece reads after few later ih =>
      have some := filled buf List.mem_cons_self
      rw [run_cons, challenge_waits active here some (by rwa [held]), held]
      exact ih active here (fun buf inside => filled buf (List.mem_cons_of_mem _ inside)) rfl

/-- There is no piece. -/
theorem challenge_none (active : p.Active) (here : p.packetParser = .challenge) {reads : List Bytes}
    (filled : ∀ buf ∈ reads, buf ≠ []) (few : p.buffer.length + reads.flatten.length < 16) :
    (p.run o reads).ending = p.ending := by
  induction reads generalizing p with
  | nil => rfl
  | cons buf reads ih =>
      rw [List.flatten_cons, List.length_append] at few
      have both : (p.buffer ++ buf).length = p.buffer.length + buf.length := List.length_append
      rw [run_cons, challenge_waits active here (filled buf List.mem_cons_self) (by omega)]
      have later := ih (p := p.holding (p.buffer ++ buf)) active here
        (fun buf inside => filled buf (List.mem_cons_of_mem _ inside))
        (by rw [holding_buffer]; omega)
      exact later

/-- What a response does. -/
def RFBProtocol.responded (p : RFBProtocol) (a : Authenticator) (r : Auth.Outcome Bool) : RFBProtocol :=
  { p with authenticator := some (a.1, r.state) }.note
    (r.guesses.map Event.guess ++ [Event.evaluated (accepts r)])

theorem responded_ending (p : RFBProtocol) (a : Authenticator) (r : Auth.Outcome Bool) :
    (p.responded a r).ending = p.ending := by
  have opens : (r.guesses.map Event.guess ++ [Event.evaluated (accepts r)]).any Event.opens = false := by
    rw [List.any_append, List.any_map]
    simp [Event.opens, Function.comp_def]
  have packets : (r.guesses.map Event.guess ++ [Event.evaluated (accepts r)]).filterMap Event.packet? =
      [] := by
    rw [List.filterMap_append, List.filterMap_map]
    simp [Event.packet?, Function.comp_def]
  simp only [RFBProtocol.ending, RFBProtocol.responded, RFBProtocol.note, List.any_append,
    List.filterMap_append, opens, packets, Bool.or_false, List.append_nil]

/-- A piece that is too long is no response. -/
theorem challenge_long (here : p.packetParser = .challenge) {a : Authenticator}
    (authenticator : p.authenticator = some a) {piece : Bytes} (long : 16 < piece.length) :
    (p.holding piece).drain o = (p.holding []).schedule .sendFailChallenge := by
  have held : (p.holding piece).buffer ≠ [] := by
    intro empty
    rw [holding_buffer] at empty
    rw [empty] at long
    exact absurd long (by decide)
  have parse : (p.holding piece).parse o =
      ((p.holding piece).schedule .sendFailChallenge, .ok (piece.length : Nat)) := by
    rw [RFBProtocol.parse]
    simp only [RFBProtocol.holding, here]
    rw [parseChallenge, if_neg (by omega)]
    simp only [authenticator]
    rw [if_pos (by omega)]
  rw [drain_takes held parse (by omega) rfl, holding_buffer, List.drop_length, drain_empty rfl]
  rfl

/-- A response is not accepted. -/
theorem challenge_rejected (here : p.packetParser = .challenge) {a : Authenticator}
    (authenticator : p.authenticator = some a) {response : Bytes} (size : response.length = 16)
    (rejected : accepts (a.authenticate o response) = false) :
    (p.holding response).drain o =
      ((p.holding []).responded a (a.authenticate o response)).schedule .sendFailChallenge := by
  have held : (p.holding response).buffer ≠ [] := by
    intro empty
    rw [holding_buffer] at empty
    rw [empty] at size
    cases size
  have parse : (p.holding response).parse o =
      (((p.holding response).responded a (a.authenticate o response)).schedule .sendFailChallenge,
        .ok (response.length : Nat)) := by
    rw [RFBProtocol.parse]
    simp only [RFBProtocol.holding, here]
    rw [parseChallenge, if_neg (by omega)]
    simp only [authenticator]
    rw [if_neg (by omega)]
    simp only [rejected, Bool.false_eq_true, if_false]
    rw [← rejected]
    rfl
  rw [drain_takes held parse (by omega) rfl, holding_buffer, List.drop_length, drain_empty rfl]
  rfl

/-- The client is let in: SecurityResult is sent. -/
def RFBProtocol.admitted (p : RFBProtocol) : RFBProtocol :=
  { p.note [.sent (.securityResult 0)] with packetParser := .securityResult }

theorem admitted_ending (p : RFBProtocol) :
    p.admitted.ending = { p.ending with accepted := true } := by
  have opens : (p.events ++ [Event.sent (.securityResult 0)]).any Event.opens = true := by
    rw [List.any_append]
    exact Bool.or_true _
  have packets : (p.events ++ [Event.sent (.securityResult 0)]).filterMap Event.packet? =
      p.events.filterMap Event.packet? := by
    rw [List.filterMap_append]
    exact List.append_nil _
  simp only [RFBProtocol.ending, RFBProtocol.admitted, RFBProtocol.note, opens, packets]

theorem challenge_accepted (active : p.Active) (here : p.packetParser = .challenge) {a : Authenticator}
    (authenticator : p.authenticator = some a) {response : Bytes} (size : response.length = 16)
    (accepted : accepts (a.authenticate o response) = true) :
    (p.holding response).drain o =
      ((p.holding []).responded a (a.authenticate o response)).admitted := by
  have held : (p.holding response).buffer ≠ [] := by
    intro empty
    rw [holding_buffer] at empty
    rw [empty] at size
    cases size
  have opened : p.closed = false := active.2.1
  have parse : (p.holding response).parse o =
      (((p.holding response).responded a (a.authenticate o response)).admitted,
        .ok (16 : Nat)) := by
    rw [RFBProtocol.parse]
    simp only [RFBProtocol.holding, here]
    rw [parseChallenge, if_neg (by omega)]
    simp only [authenticator]
    rw [if_neg (by omega), if_pos accepted, RFBProtocol.send, if_neg (by simp [RFBProtocol.note, opened])]
    rfl
  rw [drain_takes held parse (by omega) rfl, holding_buffer, List.drop_of_length_le (by omega),
    drain_empty rfl]
  rfl

/-- None of the pieces is a response that is accepted. -/
def rejects (o : Outside) : Authenticator → List Bytes → Prop
  | _, [] => True
  | a, piece :: pieces =>
      if piece.length = 16 then
        accepts (a.authenticate o piece) = false ∧
          rejects o (a.1, (a.authenticate o piece).state) pieces
      else rejects o a pieces

/-- A response was accepted, after some of the reads. -/
structure LetIn (o : Outside) (p : RFBProtocol) (reads : List Bytes) (q : RFBProtocol)
    (after : List Bytes) : Prop where
  run : p.run o reads = q.admitted.run o after
  active : q.Active
  empty : q.buffer = []
  ending : q.ending = p.ending
  sub : ∀ buf ∈ after, buf ∈ reads
  left : 16 + after.flatten.length ≤ p.buffer.length + reads.flatten.length

theorem LetIn.later {reads middle after : List Bytes} {p' : RFBProtocol} (letIn : LetIn o p' middle q after)
    (run : p.run o reads = p'.run o middle) (empty : p'.buffer = []) (ending : p'.ending = p.ending)
    (sub : ∀ buf ∈ middle, buf ∈ reads)
    (left : middle.flatten.length ≤ p.buffer.length + reads.flatten.length) :
    LetIn o p reads q after := by
  refine ⟨run.trans letIn.run, letIn.active, letIn.empty, letIn.ending.trans ending, ?_, ?_⟩
  · exact fun buf inside => sub buf (letIn.sub buf inside)
  · have fewer := letIn.left
    rw [empty, List.length_nil] at fewer
    omega

theorem challenge_run (active : p.Active) (here : p.packetParser = .challenge) {a : Authenticator}
    (authenticator : p.authenticator = some a) (short : p.buffer.length < 16) {reads : List Bytes}
    (filled : ∀ buf ∈ reads, buf ≠ []) :
    (rejects o a (gathered 16 p.buffer reads) ∧ (p.run o reads).ending = p.ending) ∨
      (¬ rejects o a (gathered 16 p.buffer reads) ∧ ∃ q after, LetIn o p reads q after) := by
  induction size : reads.length using Nat.strong_induction_on generalizing p a reads with
  | _ n ih =>
      subst size
      rcases Nat.lt_or_ge (p.buffer.length + reads.flatten.length) 16 with few | enough
      · rw [gathered_none few]
        exact .inl ⟨trivial, challenge_none active here filled few⟩
      · obtain ⟨piece, after, first⟩ := gathered_first enough short
        have run := challenge_first (o := o) active here filled first
        have later : ∀ buf ∈ after, buf ≠ [] := fun buf inside => filled buf (first.sub buf inside)
        have stream := congrArg List.length first.stream
        rw [List.length_append, List.length_append] at stream
        rw [first.pieces, rejects]
        split
        · next whole =>
            rcases accepted : accepts (a.authenticate o piece) with _ | _
            · rw [challenge_rejected here authenticator whole accepted] at run
              have ending : (((p.holding []).responded a (a.authenticate o piece)).schedule
                  .sendFailChallenge).ending = p.ending :=
                (schedule_ending rfl).trans (responded_ending (p.holding []) a _)
              have rest := ih after.length first.fewer (p := ((p.holding []).responded a
                (a.authenticate o piece)).schedule .sendFailChallenge) active here rfl (Nat.zero_lt_succ 15) later rfl
              rcases rest with ⟨rejected, same⟩ | ⟨other, q, last, letIn⟩
              · exact .inl ⟨⟨rfl, rejected⟩, by rw [run, same, ending]⟩
              · exact .inr ⟨fun both => other both.2, q, last,
                  letIn.later run rfl ending first.sub (by omega)⟩
            · rw [challenge_accepted active here authenticator whole accepted] at run
              refine .inr ⟨(fun both => by cases both.1), _, after, run, active, rfl, ?_, first.sub, ?_⟩
              · exact responded_ending (p.holding []) a _
              · omega
        · next other =>
            have long : 16 < piece.length := by
              have atLeast := first.enough
              omega
            rw [challenge_long here authenticator long] at run
            have ending : ((p.holding []).schedule .sendFailChallenge).ending = p.ending :=
              schedule_ending rfl
            have rest := ih after.length first.fewer (p := (p.holding []).schedule .sendFailChallenge)
              active here authenticator (Nat.zero_lt_succ 15) later rfl
            rcases rest with ⟨rejected, same⟩ | ⟨other, q, last, letIn⟩
            · exact .inl ⟨rejected, by rw [run, same, ending]⟩
            · exact .inr ⟨other, q, last, letIn.later run rfl ending first.sub (by omega)⟩

end Catlink.Rfb
