import Catlink.Rfb.Authentication
import Catlink.Rfb.Messages

/-! When the RFB parsers do not depend on how the stream of a client is cut into reads. -/

namespace Catlink.Rfb

open Auth Cuts

variable {o : Outside} {p q : RFBProtocol}

/-! ### A security type that comes alone -/

/-- The type is not the one that was offered. -/
def refusal (securityType : UInt8) : Packet :=
  .invalid ("invalid security handshake response, authentication is required" ++ ": '" ++
    hexstr ([securityType].take 8) ++ "'") [securityType]

def RFBProtocol.asked (p : RFBProtocol) (challenge : Bytes) (a : Authenticator) : RFBProtocol :=
  { p.note [.sent (.challenge challenge)] with
    packetParser := .challenge, authenticator := some a, challenge := some challenge }

theorem asked_ending (p : RFBProtocol) (challenge : Bytes) (a : Authenticator) :
    (p.asked challenge a).ending = p.ending := by
  have opens : (p.events ++ [Event.sent (.challenge challenge)]).any Event.opens =
      p.events.any Event.opens := by
    rw [List.any_append]
    exact Bool.or_false _
  have packets : (p.events ++ [Event.sent (.challenge challenge)]).filterMap Event.packet? =
      p.events.filterMap Event.packet? := by
    rw [List.filterMap_append]
    exact List.append_nil _
  simp only [RFBProtocol.ending, RFBProtocol.asked, RFBProtocol.note, opens, packets]

/-- What is parsed of a type is what the type selects. -/
inductive Answers (p : RFBProtocol) (securityType : UInt8) : Selection → Parsed → Prop
  | fails {q : RFBProtocol} {e : Exn} (ending : q.ending = p.ending) :
      Answers p securityType .fails (q, .error e)
  | refused : Answers p securityType .refused
      (p.invalid ("invalid security handshake response, authentication is required" ++ ": '" ++
        hexstr ([securityType].take 8) ++ "'") [securityType], .ok 0)
  | admitted : Answers p securityType .admitted (p.admitted, .ok (1 : Nat))
  | challenged (challenge : Bytes) (a : Authenticator) :
      Answers p securityType (.challenged challenge a) (p.asked challenge a, .ok (1 : Nat))

theorem security_answers (opened : p.closed = false) (securityType : UInt8) :
    Answers p securityType (select o p.authenticator securityType)
      (parseSecurityHandshake o p [securityType]) := by
  unfold parseSecurityHandshake select
  dsimp only
  split
  · cases known : p.authenticator with
    | none => exact .fails rfl
    | some a =>
        obtain ⟨m, s⟩ := a
        dsimp only
        rcases m.getChallenge o.answers.getSalt s ["des"] with ⟨s', e | ⟨sent, digest⟩⟩
        · exact .fails rfl
        · dsimp only
          by_cases des : digest = "des"
          · subst des
            rw [if_neg (by decide), RFBProtocol.send, if_neg (by simp [opened])]
            exact .challenged _ _
          · rw [if_pos des]
            split
            · next both =>
                cases both
                exact absurd rfl des
            · exact .fails rfl
  · rw [RFBProtocol.requiresChallenge]
    cases known : p.authenticator with
    | none =>
        dsimp only
        rw [if_neg Bool.false_ne_true, RFBProtocol.send, if_neg (by simp [opened]), ← known]
        exact .admitted
    | some a =>
        obtain ⟨m, s⟩ := a
        dsimp only
        split
        · exact .refused
        · rw [RFBProtocol.send, if_neg (by simp [opened]), ← known]
          exact .admitted

/-- The security type is waited for. -/
structure Ready (p : RFBProtocol) : Prop where
  active : p.Active
  here : p.packetParser = .securityHandshake
  empty : p.buffer = []

/-- The client has been asked for a response. -/
structure Asked (q : RFBProtocol) (a : Authenticator) : Prop where
  active : q.Active
  here : q.packetParser = .challenge
  authenticator : q.authenticator = some a
  empty : q.buffer = []

/-- What a type that comes alone does. -/
def Selected (o : Outside) (p q : RFBProtocol) (securityType : UInt8) : Prop :=
  match select o p.authenticator securityType with
  | .fails => ¬ q.Active ∧ q.ending = p.ending
  | .refused => q.Active ∧ q.packetParser = .invalid ∧
      q.ending = { p.ending with packets := p.ending.packets ++ [refusal securityType] }
  | .admitted => q = p.admitted
  | .challenged _ a => Asked q a ∧ q.ending = p.ending

theorem security_alone (ready : Ready p) (securityType : UInt8) :
    Selected o p (p.read o [securityType]) securityType := by
  have parse : (p.holding [securityType]).parse o =
      parseSecurityHandshake o (p.holding [securityType]) [securityType] := by
    rw [RFBProtocol.parse]
    simp only [RFBProtocol.holding, ready.here]
  have answers := security_answers (o := o) (p := p.holding [securityType]) ready.active.2.1 securityType
  have filled : (p.holding [securityType]).buffer ≠ [] := List.cons_ne_nil _ _
  have same : (p.holding [securityType]).authenticator = p.authenticator := rfl
  have read : p.read o [securityType] = (p.holding [securityType]).drain o := by
    rw [read_active ready.active, ready.empty, List.nil_append]
  rw [← parse, same] at answers
  rw [Selected, read]
  generalize select o p.authenticator securityType = selection at answers
  generalize parsed : (p.holding [securityType]).parse o = result at answers
  cases answers with
  | @fails q e ending =>
      have turn : (p.holding [securityType]).turn o = ({ q with reading := false }.close, false) := by
        rw [RFBProtocol.turn, parsed]
      rw [drain_stop filled turn]
      constructor
      · rintro ⟨reading, -⟩
        unfold RFBProtocol.close at reading
        split at reading
        · cases reading
        · cases reading
      · exact (close_ending _).trans ending
  | refused =>
      rw [drain_stop filled (turn_waits parsed)]
      refine ⟨ready.active, rfl, ?_⟩
      simp only [RFBProtocol.ending, RFBProtocol.invalid, RFBProtocol.schedule, RFBProtocol.holding,
        List.filterMap_append, List.append_assoc]
      rfl
  | admitted =>
      rw [drain_takes filled parsed Nat.one_pos rfl, drain_empty rfl]
      change p.admitted.holding [] = p.admitted
      rw [← ready.empty]
      rfl
  | challenged challenge a =>
      rw [drain_takes filled parsed Nat.one_pos rfl, drain_empty rfl]
      exact ⟨⟨ready.active, rfl, rfl, rfl⟩, asked_ending p challenge a⟩

/-- A type that comes with more is no type. -/
theorem security_first (ready : Ready p) {reads : List Bytes} (filled : ∀ buf ∈ reads, buf ≠ [])
    {securityType : UInt8} {rest : Bytes} (stream : reads.flatten = securityType :: rest) :
    (¬ EndsAt reads 1 ∧ (p.run o reads).ending = p.ending) ∨
      ∃ others, reads = [securityType] :: others ∧ others.flatten = rest ∧ EndsAt reads 1 := by
  cases reads with
  | nil => cases stream
  | cons buf others =>
      obtain ⟨first, more, begins⟩ := List.exists_cons_of_ne_nil (filled buf List.mem_cons_self)
      have within : 1 ≤ buf.length := List.length_pos_iff.mpr (filled buf List.mem_cons_self)
      rw [List.flatten_cons, begins, List.cons_append] at stream
      obtain ⟨rfl, later⟩ := List.cons.inj stream
      rw [endsAt_first Nat.one_pos within]
      cases more with
      | nil => exact .inr ⟨others, by rw [begins], later, by rw [begins]; rfl⟩
      | cons second more =>
          have long : 2 ≤ (p.buffer ++ buf).length := by
            rw [List.length_append, begins, List.length_cons, List.length_cons]
            omega
          refine .inl ⟨by rw [begins, List.length_cons, List.length_cons]; omega, ?_⟩
          rw [run_cons, security_read ready.active ready.here long]
          have stuck := security_stuck (o := o)
            (p := (p.holding (p.buffer ++ buf)).schedule .connectionLost) ready.active ready.here long
            others
          have same : ((p.holding (p.buffer ++ buf)).schedule .connectionLost).ending = p.ending :=
            schedule_ending rfl
          exact stuck.trans same

/-! ### A response -/

variable {a : Authenticator} {response : Bytes} {shared : UInt8} {messages : List Message}

/-- What a client that is let in gets. -/
def allowed (shared : UInt8) (messages : List Message) : Ending :=
  ⟨true, decide (shared ≠ 0), .authenticated :: messages.map Message.packet⟩

def denied : Ending := ⟨false, false, []⟩

/-- Nothing is accepted unless a piece is. -/
theorem rejected_ends (asked : Asked p a) (clean : p.ending = denied) {reads : List Bytes}
    (filled : ∀ buf ∈ reads, buf ≠ []) :
    (p.run o reads).ending = denied ↔ rejects o a (gathered 16 [] reads) := by
  have run := challenge_run (o := o) asked.active asked.here asked.authenticator
    (by rw [asked.empty]; exact Nat.zero_lt_succ 15) filled
  rw [asked.empty] at run
  rcases run with ⟨rejected, same⟩ | ⟨accepted, q, after, letIn⟩
  · exact ⟨fun _ => rejected, fun _ => same.trans clean⟩
  · refine ⟨fun same => ?_, fun rejected => absurd rejected accepted⟩
    rw [letIn.run] at same
    have open' := admitted_accepted (o := o) q after
    rw [same] at open'
    cases open'

/-- A response that would be accepted is, when the reads end before it and after it. -/
theorem accepted_ends (asked : Asked p a) (clean : p.ending = denied) {reads : List Bytes}
    (filled : ∀ buf ∈ reads, buf ≠ []) (size : response.length = 16)
    (stream : reads.flatten = response ++ shared :: messages.flatMap Message.bytes)
    (accepted : accepts (a.authenticate o response) = true) :
    (p.run o reads).ending = allowed shared messages ↔
      EndsAt reads 16 ∧ (shared ≠ 0 ∨ EndsAt reads 17) := by
  have total := congrArg List.length stream
  rw [List.length_append, List.length_cons, size] at total
  have short : ([] : Bytes).length < 16 := Nat.zero_lt_succ 15
  obtain ⟨piece, after, first⟩ : ∃ piece after, First 16 ([] : Bytes) reads piece after :=
    gathered_first (by rw [List.length_nil]; omega) short
  have run := challenge_first (o := o) asked.active asked.here filled (by rw [asked.empty]; exact first)
  have later : ∀ buf ∈ after, buf ≠ [] := fun buf inside => filled buf (first.sub buf inside)
  have ends := first.ends short
  have split := first.stream
  rw [List.nil_append] at split
  rw [split] at stream
  rw [List.length_nil, Nat.sub_zero] at ends
  by_cases whole : piece.length = 16
  · have begins : piece = response := List.append_inj_left stream (whole.trans size.symm)
    subst begins
    have rest : after.flatten = shared :: messages.flatMap Message.bytes :=
      List.append_cancel_left stream
    have drops : dropReads 16 reads = after := first.drops whole later
    have next' : EndsAt reads 17 ↔ EndsAt after 1 := by
      rw [endsAt_dropReads 16 Nat.one_pos, drops]
    rw [ends, next', run, challenge_accepted asked.active asked.here asked.authenticator whole accepted]
    have same : ((p.holding []).responded a (a.authenticate o piece)).ending = denied :=
      (responded_ending (p.holding []) a _).trans clean
    have admitted := admitted_ends (o := o) (p := (p.holding []).responded a (a.authenticate o piece))
      asked.active rfl (by rw [same]; rfl) later rest
    rw [allowed, admitted]
    simp only [whole, true_and]
  · have long : 16 < piece.length := by
      have atLeast := first.enough
      omega
    refine ⟨fun all => ?_, fun both => absurd (ends.mp both.1) whole⟩
    rw [run, challenge_long asked.here asked.authenticator long] at all
    have same : ((p.holding []).schedule .sendFailChallenge).ending = denied :=
      (schedule_ending rfl).trans clean
    have rest := challenge_run (o := o) (p := (p.holding []).schedule .sendFailChallenge) asked.active
      asked.here asked.authenticator short later
    rcases rest with ⟨-, ending⟩ | ⟨-, q, last, letIn⟩
    · rw [ending, same] at all
      cases all
    · rw [letIn.run] at all
      have bytes := congrArg List.length split
      rw [List.length_append] at bytes
      have left := letIn.left
      have none : ((p.holding []).schedule .sendFailChallenge).buffer.length = 0 := rfl
      have fewer : last.flatten.length < (messages.flatMap Message.bytes).length := by omega
      have clean' : q.ending.packets = [] := by rw [letIn.ending, same]; rfl
      exact absurd (congrArg Ending.packets all) (admitted_short (o := o) letIn.empty clean' fewer)

/-! ### A whole stream -/

def ClientStream.CutInto (c : ClientStream) (reads : List Bytes) : Prop :=
  (∀ buf ∈ reads, buf ≠ []) ∧ reads.flatten = c.bytes

/-- What a stream says, apart from how it is cut. -/
def ClientStream.outcome (o : Outside) (authenticator : Option Authenticator) (c : ClientStream) :
    Ending :=
  match select o authenticator c.securityType with
  | .refused => { denied with packets := [refusal c.securityType] }
  | .fails => denied
  | .admitted => allowed c.shared c.messages
  | .challenged _ a =>
      if accepts (a.authenticate o c.response) then allowed c.shared c.messages else denied

/-- The reads end where the handshake needs it: after the security type, after the response, and
after a ClientInit of zero. A response that is wrong is not made right by other bytes. -/
def ClientStream.Separated (o : Outside) (authenticator : Option Authenticator) (c : ClientStream)
    (reads : List Bytes) : Prop :=
  match select o authenticator c.securityType with
  | .refused => EndsAt reads 13
  | .fails => True
  | .admitted => EndsAt reads 13 ∧ (c.shared ≠ 0 ∨ EndsAt reads 14)
  | .challenged _ a =>
      if accepts (a.authenticate o c.response)
      then EndsAt reads 13 ∧ EndsAt reads 29 ∧ (c.shared ≠ 0 ∨ EndsAt reads 30)
      else EndsAt reads 13 → rejects o a (gathered 16 [] (dropReads 13 reads))

theorem select_admitted {authenticator : Option Authenticator} {securityType : UInt8}
    (selected : select o authenticator securityType = .admitted) : securityType ≠ authVnc := by
  intro vnc
  unfold select at selected
  rw [if_pos vnc] at selected
  split at selected
  · cases selected
  · split at selected
    · cases selected
    · cases selected

theorem select_challenged {authenticator : Option Authenticator} {securityType : UInt8}
    {challenge : Bytes} {a : Authenticator}
    (selected : select o authenticator securityType = .challenged challenge a) :
    securityType = authVnc := by
  by_contra other
  unfold select at selected
  rw [if_neg other] at selected
  split at selected
  · cases selected
  · split at selected
    · cases selected
    · cases selected

theorem handshakeComplete_ending (p : RFBProtocol) : (handshakeComplete p).ending = p.ending := by
  unfold handshakeComplete RFBProtocol.send
  dsimp only
  split
  · rfl
  · next opened =>
      have opens : (p.events ++ [Event.sent (.securityTypes
          (if p.requiresChallenge = true then [authVnc] else [authNone]))]).any Event.opens =
            p.events.any Event.opens := by
        rw [List.any_append]
        exact Bool.or_false _
      have packets : (p.events ++ [Event.sent (.securityTypes
          (if p.requiresChallenge = true then [authVnc] else [authNone]))]).filterMap Event.packet? =
            p.events.filterMap Event.packet? := by
        rw [List.filterMap_append]
        exact List.append_nil _
      simp only [RFBProtocol.ending, RFBProtocol.note, opens, packets]

theorem handshakeComplete_same (p : RFBProtocol) :
    (handshakeComplete p).packetParser = .securityHandshake ∧
      (handshakeComplete p).authenticator = p.authenticator := by
  unfold handshakeComplete RFBProtocol.send
  dsimp only
  split
  · exact ⟨rfl, rfl⟩
  · exact ⟨rfl, rfl⟩

/-- From the security type on. -/
theorem selected_ends (ready : Ready p) (clean : p.ending = denied) (c : ClientStream)
    {others : List Bytes} (filled : ∀ buf ∈ others, buf ≠ [])
    (stream : others.flatten = c.response ++ c.shared :: c.messages.flatMap Message.bytes) :
    ((p.read o [c.securityType]).run o others).ending = c.outcome o p.authenticator ↔
      match select o p.authenticator c.securityType with
      | .refused | .fails => True
      | .admitted => c.shared ≠ 0 ∨ EndsAt others 1
      | .challenged _ a =>
          if accepts (a.authenticate o c.response)
          then EndsAt others 16 ∧ (c.shared ≠ 0 ∨ EndsAt others 17)
          else rejects o a (gathered 16 [] others) := by
  have selected := security_alone (o := o) ready c.securityType
  rw [Selected] at selected
  rw [ClientStream.outcome]
  generalize p.read o [c.securityType] = q at selected
  cases selection : select o p.authenticator c.securityType with
  | refused =>
      rw [selection] at selected
      obtain ⟨active, here, ending⟩ := selected
      rw [invalid_run active here, ending, clean]
      exact ⟨fun _ => trivial, fun _ => rfl⟩
  | fails =>
      rw [selection] at selected
      obtain ⟨inactive, ending⟩ := selected
      rw [run_inactive inactive, ending, clean]
      exact ⟨fun _ => trivial, fun _ => rfl⟩
  | admitted =>
      rw [selection] at selected
      have none : c.response = [] := by
        have size := c.responds
        rw [if_neg (select_admitted selection)] at size
        exact List.length_eq_zero_iff.mp size
      have same : q = p.admitted := selected
      rw [none, List.nil_append] at stream
      rw [same]
      exact admitted_ends ready.active ready.empty (by rw [clean]; rfl) filled stream
  | challenged challenge a =>
      rw [selection] at selected
      obtain ⟨asked, ending⟩ := selected
      have size := c.responds
      rw [if_pos (select_challenged selection)] at size
      dsimp only
      cases accepted : accepts (a.authenticate o c.response) with
      | false =>
          rw [if_neg Bool.false_ne_true, if_neg Bool.false_ne_true]
          exact rejected_ends asked (ending.trans clean) filled
      | true =>
          rw [if_pos rfl, if_pos rfl]
          exact accepted_ends asked (ending.trans clean) filled size stream accepted

/-- A stream of which the type does not come alone says nothing. -/
theorem denied_ends (c : ClientStream) (authenticator : Option Authenticator) :
    denied = c.outcome o authenticator ↔
      match select o authenticator c.securityType with
      | .refused | .admitted => False
      | .fails => True
      | .challenged _ a => accepts (a.authenticate o c.response) = false := by
  rw [ClientStream.outcome]
  cases select o authenticator c.securityType with
  | refused => exact ⟨fun same => (nomatch congrArg Ending.packets same), False.elim⟩
  | fails => exact ⟨fun _ => trivial, fun _ => rfl⟩
  | admitted => exact ⟨fun same => (nomatch congrArg Ending.accepted same), False.elim⟩
  | challenged challenge a =>
      dsimp only
      cases accepts (a.authenticate o c.response) with
      | false => exact ⟨fun _ => rfl, fun _ => rfl⟩
      | true => exact ⟨fun same => (nomatch congrArg Ending.accepted same), fun same => nomatch same⟩

/-- A stream is cut well when its reads end where they must. -/
theorem stream_ends (authenticator : Option Module) (sessionName : Bytes) (c : ClientStream)
    {reads : List Bytes} (cut : c.CutInto reads) :
    ((newProtocol authenticator sessionName []).run o reads).ending =
        c.outcome o (newProtocol authenticator sessionName []).authenticator ↔
      c.Separated o (newProtocol authenticator sessionName []).authenticator reads := by
  obtain ⟨filled, stream⟩ := cut
  have start : (newProtocol authenticator sessionName []).ending = denied := rfl
  generalize new : newProtocol authenticator sessionName [] = p at start
  have active : p.Active := by rw [← new]; exact ⟨rfl, rfl, rfl⟩
  have here : p.packetParser = .protocolHandshake := by rw [← new]; rfl
  have empty : p.buffer = [] := by rw [← new]; rfl
  have whole : p.buffer ++ reads.flatten = versionMessage ++
      c.securityType :: (c.response ++ c.shared :: c.messages.flatMap Message.bytes) := by
    rw [empty, List.nil_append, stream]
    rfl
  have version := handshake_run (o := o) active here (by rw [empty]; exact Nat.zero_lt_succ 11) filled
    whole
  obtain ⟨parser, same⟩ := handshakeComplete_same p
  have ready : Ready ((handshakeComplete p).holding []) :=
    ⟨handshakeComplete_active active, parser, rfl⟩
  have clean : ((handshakeComplete p).holding []).ending = denied :=
    (handshakeComplete_ending p).trans start
  have known : ((handshakeComplete p).holding []).authenticator = p.authenticator := same
  have later := dropReads_filled filled 12
  have left : (dropReads 12 reads).flatten =
      c.securityType :: (c.response ++ c.shared :: c.messages.flatMap Message.bytes) := by
    rw [dropReads_flatten, stream]
    rfl
  rw [version, empty, ClientStream.Separated, endsAt_dropReads (k := 1) 12 Nat.one_pos,
    endsAt_dropReads (k := 2) 12 Nat.two_pos, endsAt_dropReads (k := 17) 12 (by decide),
    endsAt_dropReads (k := 18) 12 (by decide), dropReads_add 12 1, ← known]
  generalize (handshakeComplete p).holding [] = q at ready clean
  change (q.run o (dropReads 12 reads)).ending = _ ↔ _
  generalize dropReads 12 reads = reads' at later left
  rcases security_first (o := o) ready later left with ⟨joined, ending⟩ | ⟨others, rfl, rest, alone⟩
  · rw [ending, clean, denied_ends]
    cases select o q.authenticator c.securityType with
    | refused => exact ⟨False.elim, joined⟩
    | fails => exact Iff.rfl
    | admitted => exact ⟨False.elim, fun ends => joined ends.1⟩
    | challenged challenge a =>
        dsimp only
        cases accepts (a.authenticate o c.response) with
        | false => exact ⟨fun _ ends => absurd ends joined, fun _ => rfl⟩
        | true => exact ⟨fun other => (nomatch other), fun ends => absurd ends.1 joined⟩
  · have filled' : ∀ buf ∈ others, buf ≠ [] := fun buf inside => later buf (List.mem_cons_of_mem _ inside)
    have drops : dropReads 1 ([c.securityType] :: others) = others := by
      rw [dropReads, if_neg (by simp)]
      exact dropReads_zero filled'
    have one (k : Nat) (some : 0 < k) : EndsAt ([c.securityType] :: others) (1 + k) ↔ EndsAt others k := by
      rw [endsAt_dropReads 1 some, drops]
    rw [run_cons, selected_ends ready clean c filled' rest, one 1 Nat.one_pos, one 16 (by decide),
      one 17 (by decide), drops]
    cases select o q.authenticator c.securityType with
    | refused => exact ⟨fun _ => alone, fun _ => trivial⟩
    | fails => exact Iff.rfl
    | admitted => exact ⟨fun flag => ⟨alone, flag⟩, fun both => both.2⟩
    | challenged challenge a =>
        dsimp only
        cases accepts (a.authenticate o c.response) with
        | false => exact ⟨fun rejected _ => rejected, fun all => all alone⟩
        | true => exact ⟨fun ends => ⟨alone, ends⟩, fun both => both.2⟩

/-- The reads that there are when some of the steps may be empty. -/
def filledReads (steps : List Bytes) : List Bytes := steps.filter (· ≠ [])

theorem filledReads_filled (steps : List Bytes) : ∀ buf ∈ filledReads steps, buf ≠ [] := by
  intro buf inside
  simpa using (List.mem_filter.mp inside).2

theorem filledReads_flatten (steps : List Bytes) : (filledReads steps).flatten = steps.flatten :=
  List.flatten_filter_ne_nil

theorem filledReads_ends (before after : List Bytes) :
    EndsAt (filledReads (before ++ after)) before.flatten.length := by
  refine ⟨filledReads before, filledReads after, List.filter_append _ _, ?_⟩
  rw [filledReads_flatten]

/-- Each step in a read of its own. -/
def ClientStream.steps (c : ClientStream) : List Bytes :=
  filledReads ([versionMessage, [c.securityType], c.response, [c.shared]] ++
    [c.messages.flatMap Message.bytes])

/-- A response and all that follows it in one read. -/
def ClientStream.joined (c : ClientStream) : List Bytes :=
  [versionMessage, [c.securityType], c.response ++ c.shared :: c.messages.flatMap Message.bytes]

theorem steps_cut (c : ClientStream) : c.CutInto c.steps := by
  refine ⟨filledReads_filled _, ?_⟩
  rw [ClientStream.steps, filledReads_flatten, ClientStream.bytes]
  simp only [List.cons_append, List.nil_append, List.flatten_cons, List.flatten_nil, List.append_nil]

theorem joined_cut (c : ClientStream) : c.CutInto c.joined := by
  constructor
  · intro buf inside
    simp only [ClientStream.joined, List.mem_cons, List.not_mem_nil, or_false] at inside
    rcases inside with rfl | rfl | rfl
    · exact List.cons_ne_nil _ _
    · exact List.cons_ne_nil _ _
    · exact List.append_ne_nil_of_right_ne_nil _ (List.cons_ne_nil _ _)
  · simp only [ClientStream.joined, ClientStream.bytes, List.flatten_cons, List.flatten_nil,
      List.append_nil, List.cons_append, List.nil_append]

theorem steps_security (c : ClientStream) : EndsAt c.steps 13 :=
  filledReads_ends [versionMessage, [c.securityType]]
    [c.response, [c.shared], c.messages.flatMap Message.bytes]

theorem steps_response (c : ClientStream) : EndsAt c.steps (13 + c.response.length) := by
  have ends := filledReads_ends [versionMessage, [c.securityType], c.response]
    [[c.shared], c.messages.flatMap Message.bytes]
  have size : [versionMessage, [c.securityType], c.response].flatten.length =
      13 + c.response.length := by
    have version : versionMessage.length = 12 := rfl
    simp only [List.flatten_cons, List.flatten_nil, List.append_nil, List.length_append, version,
      List.length_cons, List.length_nil]
    omega
  rwa [size] at ends

theorem steps_init (c : ClientStream) : EndsAt c.steps (14 + c.response.length) := by
  have ends := filledReads_ends [versionMessage, [c.securityType], c.response, [c.shared]]
    [c.messages.flatMap Message.bytes]
  have size : [versionMessage, [c.securityType], c.response, [c.shared]].flatten.length =
      14 + c.response.length := by
    have version : versionMessage.length = 12 := rfl
    simp only [List.flatten_cons, List.flatten_nil, List.append_nil, List.length_append, version,
      List.length_cons, List.length_nil]
    omega
  rwa [size] at ends

/-- Every stream can be cut well. -/
theorem separated_cut (o : Outside) (authenticator : Option Authenticator) (c : ClientStream) :
    ∃ reads, c.CutInto reads ∧ c.Separated o authenticator reads := by
  have security := steps_security c
  have response := steps_response c
  have init := steps_init c
  unfold ClientStream.Separated
  cases selection : select o authenticator c.securityType with
  | refused => exact ⟨c.steps, steps_cut c, security⟩
  | fails => exact ⟨c.steps, steps_cut c, trivial⟩
  | admitted =>
      have none := c.responds
      rw [if_neg (select_admitted selection)] at none
      rw [none] at init
      exact ⟨c.steps, steps_cut c, security, .inr init⟩
  | challenged challenge a =>
      have size := c.responds
      rw [if_pos (select_challenged selection)] at size
      rw [size] at response init
      dsimp only
      cases accepts (a.authenticate o c.response) with
      | true => exact ⟨c.steps, steps_cut c, security, response, .inr init⟩
      | false =>
          refine ⟨c.joined, joined_cut c, fun _ => ?_⟩
          have long : 16 < (c.response ++ c.shared :: c.messages.flatMap Message.bytes).length := by
            rw [List.length_append, List.length_cons, size]
            omega
          have drops : dropReads 13 c.joined =
              [c.response ++ c.shared :: c.messages.flatMap Message.bytes] := by
            have version : versionMessage.length = 12 := rfl
            rw [ClientStream.joined, dropReads, if_neg (by rw [version]; decide), version, dropReads,
              if_neg (by simp), List.length_singleton]
            exact dropReads_zero (by simp)
          rw [drops, gathered, List.nil_append, if_neg (by omega), gathered, rejects,
            if_neg (by omega)]
          trivial

/-- Some reads give what the stream says, and all that are cut well give the same. -/
theorem segmentation_iff (o : Outside) (authenticator : Option Module) (sessionName : Bytes)
    (c : ClientStream) :
    (∃ reads, c.CutInto reads ∧ ((newProtocol authenticator sessionName []).run o reads).ending =
        c.outcome o (newProtocol authenticator sessionName []).authenticator) ∧
      ∀ reads, c.CutInto reads →
        (((newProtocol authenticator sessionName []).run o reads).ending =
            c.outcome o (newProtocol authenticator sessionName []).authenticator ↔
          c.Separated o (newProtocol authenticator sessionName []).authenticator reads) := by
  constructor
  · obtain ⟨reads, cut, separated⟩ :=
      separated_cut o (newProtocol authenticator sessionName []).authenticator c
    exact ⟨reads, cut, (stream_ends authenticator sessionName c cut).mpr separated⟩
  · intro reads cut
    exact stream_ends authenticator sessionName c cut

/-- A client that needs no authentication and does not share. -/
def plainStream : ClientStream where
  securityType := authNone
  response := []
  responds := rfl
  shared := 0
  messages := []

/-- The security type and ClientInit come together. -/
theorem not_segmentation :
    ¬ ∀ (o : Outside) (authenticator : Option Module) (sessionName : Bytes) (c : ClientStream)
      (reads reads' : List Bytes), c.CutInto reads → c.CutInto reads' →
        ((newProtocol authenticator sessionName []).run o reads).ending =
          ((newProtocol authenticator sessionName []).run o reads').ending := by
  intro all
  have same := congrArg Ending.accepted
    (all bareOutside none [] plainStream [plainStream.bytes] [versionMessage, [1], [0]]
      ⟨by decide, by decide⟩ ⟨by decide, by decide⟩)
  exact absurd same (by decide)

end Catlink.Rfb
