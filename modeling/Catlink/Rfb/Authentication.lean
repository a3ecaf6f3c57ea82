import Catlink.Rfb.Reads
import Catlink.Lib.Runs
import Catlink.Lib.Trace

/-! What a client of the RFB server can do before a response of it is accepted. -/

namespace Catlink.Rfb

open Auth Runs Trace

/-! ### Runs -/

/-- A module for the digest of this protocol; one that looks at the salt itself has another. -/
structure DesModule extends Module where
  ownDigest : checkMethod = .own → ∀ salt s digests s' challenge,
    toModule.getChallenge salt s digests ≠ (s', .ok (challenge, "des"))

structure Connection where
  protocol : RFBProtocol
  /-- the read thread is in the loop over its buffer -/
  parsing : Bool := false

/-- The main loop and other connections go on between the turns of the read thread. -/
inductive Action
  | receive (buf : Bytes)
  | turn (o : Outside)
  | eof
  /-- a callback of the protocol raises -/
  | fails
  | call (callback : Callback)
  | close

def step (c : Connection) (a : Action) (c' : Connection) : Prop :=
  let p := c.protocol
  match a with
  | .receive buf =>
      c.parsing = false ∧ p.reading = true ∧ p.closed = false ∧ buf ≠ [] ∧ c' = ⟨p.receive buf, true⟩
  | .turn o =>
      c.parsing = true ∧
        c' = if p.buffer = [] then ⟨p, false⟩ else ⟨(p.turn o).1, (p.turn o).2⟩
  | .eof => c.parsing = false ∧ p.reading = true ∧ p.closed = false ∧ c' = ⟨p.eof, false⟩
  | .fails => c.parsing = true ∧ c' = ⟨{ p with reading := false }.close, false⟩
  | .call callback =>
      ∃ before after, p.callbacks = before ++ callback :: after ∧
        c' = { c with protocol := callback.call { p with callbacks := before ++ after } }
  | .close => c' = { c with protocol := p.close }

def starts (m : Module) (sessionName data : Bytes) (c : Connection) : Prop :=
  c = ⟨newProtocol (some m) sessionName data, false⟩

/-! ### What is to be shown of the events -/

/-- What is only for a client that is authenticated. -/
def Event.Admitted : Event → Prop
  | .sent (.serverInit _ _) => True
  | .packet .authenticated => True
  | .packet (.message _ _ _) => True
  | _ => False

def Allowed (past : List Event) (e : Event) : Prop := e.Admitted → .evaluated true ∈ past

/-- A response is compared, also when the salt is gone and an empty value is checked in its place. -/
def Event.compares : Event → Bool
  | .guess _ => true
  | _ => false

def compared (events : List Event) : Nat := events.countP Event.compares

/-- How often `authenticate_hmac` may still compare a response. -/
def salted (s : State) : Nat := if s.salt.isSome then 1 else 0

theorem salted_le (s : State) : salted s ≤ 1 := by
  unfold salted
  split
  · exact Nat.le_refl 1
  · exact Nat.zero_le 1

theorem compared_append (one two : List Event) :
    compared (one ++ two) = compared one + compared two := List.countP_append

/-- A check looks at no more than one response; `authenticate_hmac` takes the salt away for it. -/
theorem authenticateCheck_compared (h : Hashes) (m : CheckMethod) (o : Answers) (s : State)
    (c : Hello) : compared ((authenticateCheck h m o s c).guesses.map .guess) ≤ 1 ∧
      (m = .hmac → compared ((authenticateCheck h m o s c).guesses.map .guess) +
        salted (authenticateCheck h m o s c).state ≤ salted s) := by
  have guesses := authenticateCheck_guesses h m o s c
  have state := authenticateCheck_state h m o s c
  generalize authenticateCheck h m o s c = r at guesses state ⊢
  rcases guesses with none | ⟨one, used⟩
  · rw [none]
    refine ⟨Nat.zero_le 1, fun _ => ?_⟩
    rcases state with same | same
    · rw [same]
      exact Nat.le_of_eq (Nat.zero_add _)
    · rw [same]
      exact Nat.zero_le _
  · rw [one]
    refine ⟨Nat.le_refl 1, fun hmac => ?_⟩
    obtain ⟨here, cleared⟩ := used hmac
    have left : salted r.state = 0 := by
      unfold salted
      rw [cleared]
      rfl
    have before : salted s = 1 := by
      unfold salted
      rw [if_pos (Option.isSome_iff_ne_none.mpr here)]
    rw [left, before]
    exact Nat.le_refl 1

theorem authenticate_compared (h : Hashes) (m : CheckMethod) (o : Answers) (s : State) (c : Hello) :
    compared ((Auth.authenticate h m o s c).guesses.map .guess) ≤ 1 ∧
      (m = .hmac → compared ((Auth.authenticate h m o s c).guesses.map .guess) +
        salted (Auth.authenticate h m o s c).state ≤ salted s) ∧
      (m = .allow → (Auth.authenticate h m o s c).guesses = []) := by
  have does : compared ((doAuthenticate h m o s c).guesses.map .guess) ≤ 1 ∧
      (m = .hmac → compared ((doAuthenticate h m o s c).guesses.map .guess) +
        salted (doAuthenticate h m o s c).state ≤ salted s) := by
    unfold doAuthenticate
    split
    · exact authenticateCheck_compared h m o s c
    · exact ⟨Nat.zero_le 1, fun _ => Nat.le_of_eq (Nat.zero_add _)⟩
  have passes (r : Outcome Bool) :
      salted { r.state with passed := true } = salted r.state := rfl
  cases m with
  | allow => exact ⟨Nat.zero_le 1, (fun impossible => by cases impossible), fun _ => rfl⟩
  | default | hmac | own =>
      refine ⟨?_, ?_, fun impossible => by cases impossible⟩
      · unfold Auth.authenticate
        dsimp only
        split
        · exact does.1
        · exact does.1
      · intro hmac
        unfold Auth.authenticate
        dsimp only
        split
        · rw [passes]
          exact does.2 hmac
        · exact does.2 hmac

/-! ### The invariant -/

/-- What holds of a connection; of the comparisons it says something only when they are `limited`. -/
structure Guarded (limited : Prop) (m : DesModule) (p : RFBProtocol) : Prop where
  budget : ∃ s, p.authenticator = some (m.toModule, s) ∧ (limited → compared p.events ≤ 1 ∧
    (m.checkMethod = .hmac → compared p.events + salted s ≤ 1))
  respects : Respects Allowed [] p.events
  accepted : p.packetParser = .securityResult ∨ p.packetParser = .rfb → .evaluated true ∈ p.events
  early : p.packetParser = .protocolHandshake ∨ p.packetParser = .securityHandshake →
    compared p.events = 0
  own : m.checkMethod = .own → p.packetParser = .challenge → p.reading = false
  callbacks : ∀ packet, .processPacket packet ∈ p.callbacks → ¬ (Event.packet packet).Admitted

variable {limited : Prop} {m : DesModule} {p : RFBProtocol}

theorem respects_of {past events : List Event}
    (allowed : ∀ e ∈ events, e.Admitted → .evaluated true ∈ past) : Respects Allowed past events := by
  induction events generalizing past with
  | nil => trivial
  | cons e events ih =>
      refine ⟨allowed e List.mem_cons_self, ih ?_⟩
      intro e inside admitted
      exact List.mem_append_left _ (allowed e (List.mem_cons_of_mem _ inside) admitted)

/-- Events that are no comparisons. -/
theorem Guarded.note (guarded : Guarded limited m p) {events : List Event}
    (plain : ∀ e ∈ events, e.compares = false ∧ (e.Admitted → .evaluated true ∈ p.events)) :
    Guarded limited m (p.note events) := by
  have none : compared events = 0 := List.countP_eq_zero.mpr fun e inside => by simp [(plain e inside).1]
  have same : compared (p.note events).events = compared p.events := by
    rw [RFBProtocol.note, compared_append, none, Nat.add_zero]
  constructor
  · obtain ⟨s, here, within⟩ := guarded.budget
    refine ⟨s, here, ?_⟩
    rw [same]
    exact within
  · refine guarded.respects.append ?_
    exact respects_of fun e inside => (plain e inside).2
  · intro late
    exact List.mem_append_left _ (guarded.accepted late)
  · intro early
    rw [same]
    exact guarded.early early
  · exact guarded.own
  · exact guarded.callbacks

theorem Guarded.send (guarded : Guarded limited m p) (reply : Reply)
    (allowed : (Event.sent reply).Admitted → .evaluated true ∈ p.events) :
    Guarded limited m (p.send reply) := by
  unfold RFBProtocol.send
  split
  · exact guarded
  · apply guarded.note
    intro e inside
    rw [List.mem_singleton.mp inside]
    exact ⟨rfl, allowed⟩

theorem Guarded.processPacket (guarded : Guarded limited m p) (packet : Packet)
    (allowed : (Event.packet packet).Admitted → .evaluated true ∈ p.events) :
    Guarded limited m (p.processPacket packet) := by
  apply guarded.note
  intro e inside
  rw [List.mem_singleton.mp inside]
  exact ⟨rfl, allowed⟩

theorem Guarded.schedule (guarded : Guarded limited m p) (callback : Callback)
    (plain : ∀ packet, callback = .processPacket packet → ¬ (Event.packet packet).Admitted) :
    Guarded limited m (p.schedule callback) := by
  refine ⟨guarded.budget, guarded.respects, guarded.accepted, guarded.early, guarded.own, ?_⟩
  intro packet inside
  rcases List.mem_append.mp inside with old | new
  · exact guarded.callbacks packet old
  · exact plain packet (List.mem_singleton.mp new).symm

theorem Guarded.close (guarded : Guarded limited m p) : Guarded limited m p.close := by
  unfold RFBProtocol.close
  split
  · exact guarded
  · have closed : Guarded limited m { p with closed := true } :=
      ⟨guarded.budget, guarded.respects, guarded.accepted, guarded.early, guarded.own,
        guarded.callbacks⟩
    exact closed.processPacket .connectionLost False.elim

theorem Guarded.stop (guarded : Guarded limited m p) : Guarded limited m { p with reading := false } :=
  ⟨guarded.budget, guarded.respects, guarded.accepted, guarded.early, fun _ _ => rfl,
    guarded.callbacks⟩

/-- Nothing is parsed any more. -/
theorem Guarded.invalid (guarded : Guarded limited m p) (msg : String) (data : Bytes) :
    Guarded limited m (p.invalid msg data) := by
  have parser : Guarded limited m { p with packetParser := .invalid } :=
    ⟨guarded.budget, guarded.respects, by simp, by simp, by simp, guarded.callbacks⟩
  refine (parser.schedule (.processPacket (.invalid msg data)) ?_).schedule .connectionLost ?_
  · intro packet same
    cases same
    exact id
  · intro packet same
    cases same

theorem Guarded.invalidHeader (guarded : Guarded limited m p) (data : Bytes) (msg : String) :
    Guarded limited m (p.invalidHeader data msg) := guarded.invalid _ data

theorem Guarded.internalError (guarded : Guarded limited m p) : Guarded limited m p.internalError := by
  unfold RFBProtocol.internalError
  split
  · exact guarded
  · exact guarded.schedule .connectionLost fun packet same => by cases same

/-! ### One parser -/

/-- What a parser leaves; after an exception the thread does not go on. -/
def Keeps (limited : Prop) (m : DesModule) : Parsed → Prop
  | (p, .ok _) => Guarded limited m p
  | (p, .error _) => Guarded limited m { p with reading := false }

theorem parseProtocolHandshake_keeps (guarded : Guarded limited m p)
    (here : p.packetParser = .protocolHandshake) (rfbdata : Bytes) :
    Keeps limited m (parseProtocolHandshake p rfbdata) := by
  unfold parseProtocolHandshake
  split
  · exact guarded
  split
  · exact guarded.invalidHeader rfbdata _
  split
  · exact guarded.stop
  split
  · exact (guarded.send (.unsupported unsupportedMsg) False.elim).invalid _ rfbdata
  · have parser : Guarded limited m { p with packetParser := .securityHandshake } :=
      ⟨guarded.budget, guarded.respects, by simp, fun _ => guarded.early (.inl here), by simp,
        guarded.callbacks⟩
    exact parser.send _ False.elim

theorem parseSecurityHandshake_keeps (o : Outside) (challenged : m.requiresChallenge = true)
    (guarded : Guarded limited m p) (here : p.packetParser = .securityHandshake) (rfbdata : Bytes) :
    Keeps limited m (parseSecurityHandshake o p rfbdata) := by
  obtain ⟨s, authenticator, within⟩ := guarded.budget
  have none : compared p.events = 0 := guarded.early (.inr here)
  -- with any state of the module
  have asks (s : State) (challenge : Option Bytes) (reading : Bool)
      (known : m.checkMethod = .own → reading = false) :
      Guarded limited m { p with
        packetParser := .challenge, authenticator := some (m.toModule, s), challenge := challenge
        reading := reading } := by
    refine ⟨⟨s, rfl, ?_⟩, guarded.respects, by simp, by simp, fun own _ => known own,
      guarded.callbacks⟩
    have bound := salted_le s
    change limited → compared p.events ≤ 1 ∧ (_ → compared p.events + salted s ≤ 1)
    intro _
    omega
  unfold parseSecurityHandshake
  split
  · next auth =>
      split
      · simp only [authenticator]
        split
        · exact asks _ _ false fun _ => rfl
        · next given =>
            split
            · exact asks _ _ false fun _ => rfl
            · next des =>
                have digest := Decidable.not_not.mp des
                subst digest
                have known : m.checkMethod = .own → p.reading = false :=
                  fun own => absurd given (m.ownDigest own _ _ _ _ _)
                exact (asks _ _ p.reading known).send _ False.elim
      · have required : p.requiresChallenge = true := by
          simp only [RFBProtocol.requiresChallenge, authenticator, challenged]
        simp only [required, if_true]
        exact guarded.invalidHeader _ _
  · exact guarded.internalError

/-- `authenticate` is called. -/
theorem authenticated_keeps (o : Outside) (challenged : m.requiresChallenge = true)
    (guarded : Guarded limited m p) (here : p.packetParser = .challenge) (known : m.checkMethod ≠ .own)
    (single : limited → m.checkMethod = .default → compared p.events = 0)
    {s : State} (authenticator : p.authenticator = some (m.toModule, s)) (response : Bytes) :
    let r := Authenticator.authenticate o (m.toModule, s) response
    let p' := { p with authenticator := some (m.toModule, r.state) }.note
      (r.guesses.map Event.guess ++ [Event.evaluated (accepts r)])
    Guarded limited m p' ∧ (accepts r = true → .evaluated true ∈ p'.events) := by
  intro r p'
  obtain ⟨s', same, within⟩ := guarded.budget
  rw [authenticator] at same
  cases same
  have spent := authenticate_compared o.hashes m.checkMethod o.answers s
    { challengeResponse := (hexstr response).toUTF8.toList }
  have called : r = Auth.authenticate o.hashes m.checkMethod o.answers s
      { challengeResponse := (hexstr response).toUTF8.toList } := by
    simp only [r, Authenticator.authenticate, challenged, if_true]
  rw [← called] at spent
  obtain ⟨one, hmac, allow⟩ := spent
  have plain : ∀ e ∈ r.guesses.map Event.guess ++ [Event.evaluated (accepts r)], ¬ e.Admitted := by
    intro e inside
    rcases List.mem_append.mp inside with guess | evaluated
    · obtain ⟨salt, -, rfl⟩ := List.mem_map.mp guess
      exact id
    · rw [List.mem_singleton.mp evaluated]
      exact id
  have last : compared (r.guesses.map Event.guess ++ [Event.evaluated (accepts r)]) =
      compared (r.guesses.map .guess) := by
    rw [compared_append]
    exact Nat.add_zero _
  refine ⟨⟨⟨r.state, rfl, ?_⟩, ?_, ?_, ?_, ?_, guarded.callbacks⟩, ?_⟩
  · intro limits
    rw [show p'.events = p.events ++ _ from rfl, compared_append, last]
    obtain ⟨before, budget⟩ := within limits
    cases method : m.checkMethod with
    | default =>
        rw [single limits method, Nat.zero_add]
        exact ⟨one, fun impossible => by cases impossible⟩
    | hmac =>
        have left := budget method
        have taken := hmac method
        exact ⟨by omega, fun _ => by omega⟩
    | own => exact absurd method known
    | allow =>
        rw [allow method]
        exact ⟨before, fun impossible => by cases impossible⟩
  · refine guarded.respects.append (respects_of ?_)
    intro e inside admitted
    exact absurd admitted (plain e inside)
  · intro late
    change p.packetParser = _ ∨ p.packetParser = _ at late
    simp [here] at late
  · intro early
    change p.packetParser = _ ∨ p.packetParser = _ at early
    simp [here] at early
  · exact fun own => absurd own known
  · intro yes
    change Event.evaluated true ∈ p.events ++ (_ ++ [Event.evaluated (accepts r)])
    rw [yes]
    simp

theorem parseChallenge_keeps (o : Outside) (challenged : m.requiresChallenge = true)
    (guarded : Guarded limited m p) (here : p.packetParser = .challenge) (reading : p.reading = true)
    (response : Bytes) (single : limited → response.length = 16 → m.checkMethod = .default →
      compared p.events = 0) : Keeps limited m (parseChallenge o p response) := by
  obtain ⟨s, authenticator, within⟩ := guarded.budget
  have known : m.checkMethod ≠ .own := by
    intro own
    have stopped := guarded.own own here
    rw [reading] at stopped
    cases stopped
  unfold parseChallenge
  split
  · exact guarded
  simp only [authenticator]
  split
  · exact guarded.schedule .sendFailChallenge fun packet same => by cases same
  · next sized =>
    have evaluated := authenticated_keeps o challenged guarded here known
      (fun limits => single limits (Decidable.not_not.mp sized)) authenticator response
    dsimp only at evaluated
    generalize Authenticator.authenticate o (m.toModule, s) response = r at evaluated ⊢
    generalize accepts r = answer at evaluated ⊢
    generalize RFBProtocol.note _ _ = p' at evaluated ⊢
    split
    · next yes =>
        obtain ⟨guarded', accepts⟩ := evaluated
        have sent := guarded'.send (.securityResult 0) False.elim
        have here : .evaluated true ∈ (p'.send (.securityResult 0)).events := by
          unfold RFBProtocol.send
          split
          · exact accepts yes
          · exact List.mem_append_left _ (accepts yes)
        exact ⟨sent.budget, sent.respects, fun _ => here, by simp, by simp, sent.callbacks⟩
    · exact evaluated.1.schedule .sendFailChallenge fun packet same => by cases same

theorem parseSecurityResult_keeps (o : Outside) (guarded : Guarded limited m p)
    (here : p.packetParser = .securityResult) (rfbdata : Bytes) :
    Keeps limited m (parseSecurityResult o p rfbdata) := by
  have accepted := guarded.accepted (.inl here)
  have parser : Guarded limited m { p with share := decide (rfbdata ≠ [0]), packetParser := .rfb } :=
    ⟨guarded.budget, guarded.respects, fun _ => accepted, by simp, by simp, guarded.callbacks⟩
  have sent := parser.send (.serverInit o.getRfbPixelformat p.sessionName) fun _ => accepted
  have later : .evaluated true ∈
      (RFBProtocol.send { p with share := decide (rfbdata ≠ [0]), packetParser := .rfb }
        (.serverInit o.getRfbPixelformat p.sessionName)).events := by
    unfold RFBProtocol.send
    split
    · exact accepted
    · exact List.mem_append_left _ accepted
  exact sent.processPacket .authenticated fun _ => later

theorem parseRfb_keeps (guarded : Guarded limited m p) (here : p.packetParser = .rfb) (rfbdata : Bytes) :
    Keeps limited m (parseRfb p rfbdata) := by
  have accepted := guarded.accepted (.inr here)
  unfold parseRfb
  split
  · exact guarded.stop
  dsimp only
  split
  · exact guarded.invalid _ _
  split
  · exact guarded.invalid _ _
  split
  · exact guarded
  split
  · exact guarded
  · exact guarded.processPacket _ fun _ => accepted

/-- No response is checked with `default_authenticate_check` after another one. -/
def Single (m : Module) (p : RFBProtocol) : Prop :=
  p.packetParser = .challenge → p.buffer.length = 16 → m.checkMethod = .default →
    compared p.events = 0

theorem parse_keeps (o : Outside) (challenged : m.requiresChallenge = true) (guarded : Guarded limited m p)
    (reading : p.reading = true) (single : limited → Single m.toModule p) :
    Keeps limited m (p.parse o) := by
  unfold RFBProtocol.parse
  split
  · next here => exact parseProtocolHandshake_keeps guarded here p.buffer
  · next here => exact parseSecurityHandshake_keeps o challenged guarded here p.buffer
  · next here =>
      exact parseChallenge_keeps o challenged guarded here reading p.buffer
        fun limits => single limits here
  · next here => exact parseSecurityResult_keeps o guarded here p.buffer
  · next here => exact parseRfb_keeps guarded here p.buffer
  · exact guarded

/-! ### Every run -/

theorem turn_keeps (o : Outside) (challenged : m.requiresChallenge = true) (guarded : Guarded limited m p)
    (reading : p.reading = true) (single : limited → Single m.toModule p) :
    Guarded limited m (p.turn o).1 := by
  have keeps := parse_keeps o challenged guarded reading single
  unfold RFBProtocol.turn
  split
  · next same =>
      rw [same] at keeps
      exact Guarded.close keeps
  · next parsed consumed same =>
      rw [same] at keeps
      have left : Guarded limited m parsed := keeps
      split
      · exact left
      · exact ⟨left.budget, left.respects, left.accepted, left.early, left.own, left.callbacks⟩

theorem Guarded.eof (guarded : Guarded limited m p) : Guarded limited m p.eof :=
  guarded.stop.schedule .close fun packet same => by cases same

theorem Guarded.call {before after : List Callback} {callback : Callback} (guarded : Guarded limited m p)
    (here : p.callbacks = before ++ callback :: after) :
    Guarded limited m (callback.call { p with callbacks := before ++ after }) := by
  have left : Guarded limited m { p with callbacks := before ++ after } := by
    refine ⟨guarded.budget, guarded.respects, guarded.accepted, guarded.early, guarded.own, ?_⟩
    intro packet inside
    apply guarded.callbacks packet
    rw [here]
    rcases List.mem_append.mp inside with first | last
    · exact List.mem_append_left _ first
    · exact List.mem_append_right _ (List.mem_cons_of_mem _ last)
  cases callback with
  | processPacket packet =>
      have plain := guarded.callbacks packet (by rw [here]; simp)
      exact left.processPacket packet fun admitted => absurd admitted plain
  | connectionLost => exact left.close
  | close => exact left.close
  | sendFailChallenge => exact (left.send (.securityResult 1) False.elim).close

/-- The thread is in its loop as long as it is there. -/
structure Safe (limited : Prop) (m : DesModule) (c : Connection) : Prop where
  guarded : Guarded limited m c.protocol
  reading : c.parsing = true → c.protocol.reading = true

theorem close_reading (p : RFBProtocol) : p.close.reading = p.reading := by
  unfold RFBProtocol.close
  split
  · rfl
  · rfl

theorem send_reading (p : RFBProtocol) (reply : Reply) : (p.send reply).reading = p.reading := by
  unfold RFBProtocol.send
  split
  · rfl
  · rfl

theorem call_reading (p : RFBProtocol) (callback : Callback) :
    (callback.call p).reading = p.reading := by
  cases callback with
  | processPacket packet => rfl
  | connectionLost => exact close_reading p
  | close => exact close_reading p
  | sendFailChallenge => exact (close_reading _).trans (send_reading p _)

/-- No parser ends the thread itself. -/
theorem parse_reading (o : Outside) (p : RFBProtocol) : (p.parse o).1.reading = p.reading := by
  unfold RFBProtocol.parse
  split
  · unfold parseProtocolHandshake
    split
    · rfl
    split
    · rfl
    split
    · rfl
    split
    · exact send_reading p _
    · exact send_reading _ _
  · unfold parseSecurityHandshake
    split
    · split
      · dsimp only
        split
        · rfl
        split
        · rfl
        split
        · rfl
        · exact send_reading _ _
      split
      · rfl
      · exact send_reading _ _
    · unfold RFBProtocol.internalError
      split
      · rfl
      · rfl
  · unfold parseChallenge
    split
    · rfl
    split
    · rfl
    split
    · rfl
    dsimp only
    split
    · exact send_reading _ _
    · rfl
  · exact send_reading _ _
  · unfold parseRfb
    split
    · rfl
    dsimp only
    split
    · rfl
    split
    · rfl
    split
    · rfl
    split
    · rfl
    · rfl
  · rfl

theorem turn_reading (o : Outside) (reading : p.reading = true) (more : (p.turn o).2 = true) :
    (p.turn o).1.reading = true := by
  have same := parse_reading o p
  unfold RFBProtocol.turn at more ⊢
  split at more
  · cases more
  · next parsed consumed parse =>
      rw [parse] at same
      split
      · exact same.trans reading
      · exact same.trans reading

/-- A response comes to `_parse_challenge` when none was checked before, or its module looks at the
salt. -/
def Fresh (m : Module) (c : Connection) : Action → Prop
  | .turn _ => Single m c.protocol
  | _ => True

theorem step_safe {c c' : Connection} {a : Action} (challenged : m.requiresChallenge = true)
    (fresh : limited → Fresh m.toModule c a) (safe : Safe limited m c) (taken : step c a c') : Safe limited m c' := by
  have guarded := safe.guarded
  cases a with
  | receive buf =>
      obtain ⟨-, reading, -, -, rfl⟩ := taken
      refine ⟨?_, fun _ => reading⟩
      exact ⟨guarded.budget, guarded.respects, guarded.accepted, guarded.early, guarded.own,
        guarded.callbacks⟩
  | turn o =>
      obtain ⟨parsing, rfl⟩ := taken
      have reading := safe.reading parsing
      split
      · exact ⟨guarded, fun _ => reading⟩
      · exact ⟨turn_keeps o challenged guarded reading fresh, turn_reading o reading⟩
  | eof =>
      obtain ⟨-, -, -, rfl⟩ := taken
      exact ⟨guarded.eof, fun impossible => by cases impossible⟩
  | fails =>
      obtain ⟨-, rfl⟩ := taken
      exact ⟨guarded.stop.close, fun impossible => by cases impossible⟩
  | call callback =>
      obtain ⟨before, after, here, rfl⟩ := taken
      refine ⟨guarded.call here, ?_⟩
      intro parsing
      exact (call_reading _ callback).trans (safe.reading parsing)
  | close =>
      subst taken
      refine ⟨guarded.close, ?_⟩
      intro parsing
      exact (close_reading _).trans (safe.reading parsing)

theorem starts_safe {sessionName data : Bytes} {c : Connection}
    (first : starts m.toModule sessionName data c) : Safe limited m c := by
  rw [first]
  refine ⟨⟨⟨m.start, rfl, ?_⟩, trivial, ?_, fun _ => rfl, ?_, ?_⟩, ?_⟩
  · exact fun _ => ⟨Nat.zero_le 1, fun _ => (Nat.zero_add _).trans_le (salted_le _)⟩
  · rintro (late | late)
    · cases late
    · cases late
  · intro _ late
    cases late
  · intro packet inside
    cases inside
  · intro impossible
    cases impossible

/-- In every run, ServerInit is sent, the connection is reported and a message is passed on only
after a response was accepted. In every run in which no response comes to a module that would check an
empty value in its place, at most one is compared with the passwords. -/
theorem rfb_authenticated (challenged : m.requiresChallenge = true) (sessionName data : Bytes)
    (c : Connection) :
    (Reachable (starts m.toModule sessionName data) step c →
      ∀ before e after, c.protocol.events = before ++ e :: after → e.Admitted →
        .evaluated true ∈ before) ∧
    (Reachable (starts m.toModule sessionName data)
      (fun c a c' => Fresh m.toModule c a ∧ step c a c') c → compared c.protocol.events ≤ 1) := by
  constructor
  · intro run before e after split
    have safe : Safe False m c := by
      refine run.invariant ?_ ?_
      · intro c first
        exact starts_safe first
      · intro c a c' safe taken
        exact step_safe challenged False.elim safe taken
    exact safe.guarded.respects.allows before split
  · intro run
    have safe : Safe True m c := by
      refine run.invariant ?_ ?_
      · intro c first
        exact starts_safe first
      · intro c a c' safe taken
        exact step_safe challenged (fun _ => taken.1) safe taken.2
    obtain ⟨s, -, within⟩ := safe.guarded.budget
    exact (within trivial).1

theorem receive_reachable {initial : Connection → Prop}
    (run : Reachable initial step ⟨p, false⟩) (reading : p.reading = true) (opened : p.closed = false)
    {buf : Bytes} (some : buf ≠ []) : Reachable initial step ⟨p.receive buf, true⟩ := by
  have taken : step ⟨p, false⟩ (.receive buf) ⟨p.receive buf, true⟩ :=
    ⟨rfl, reading, opened, some, rfl⟩
  exact run.next taken

theorem turn_reachable {initial : Connection → Prop} (o : Outside)
    (run : Reachable initial step ⟨p, true⟩) (filled : p.buffer ≠ []) :
    Reachable initial step ⟨(p.turn o).1, (p.turn o).2⟩ := by
  have taken : step ⟨p, true⟩ (.turn o) ⟨(p.turn o).1, (p.turn o).2⟩ := ⟨rfl, (if_neg filled).symm⟩
  exact run.next taken

theorem emptied_reachable {initial : Connection → Prop} (run : Reachable initial step ⟨p, true⟩)
    (o : Outside) (empty : p.buffer = []) : Reachable initial step ⟨p, false⟩ := by
  have taken : step ⟨p, true⟩ (.turn o) ⟨p, false⟩ := ⟨rfl, (if_pos empty).symm⟩
  exact run.next taken

/-- A module that takes all but its check from the base class, and checks with that one's methods. -/
def desModule (name prompt : String) (checkMethod : CheckMethod) (known : checkMethod ≠ .own) :
    DesModule where
  toModule := baseModule name prompt checkMethod
  ownDigest own := absurd own known

def allowModule : DesModule := desModule "allow" "password" .allow (by decide)

def bareFormat : PixelFormat := ⟨640, 480, 32, 24, false, true, 255, 255, 255, 16, 8, 0⟩

def bareOutside : Outside where
  hashes := ⟨fun _ _ _ => none, fun _ _ => .ok []⟩
  answers := ⟨List.replicate 64 7, .ok true, fun _ => .ok false, [], fun _ => .ok false, fun _ => false⟩
  getRfbPixelformat := bareFormat

/-- One message, which is taken as a whole: one turn for it, and one that finds the buffer empty. -/
theorem message_reachable {initial : Connection → Prop} (o : Outside)
    (run : Reachable initial step ⟨p, false⟩) (buf : Bytes)
    (there : p.reading = true ∧ p.closed = false ∧ buf ≠ [] ∧ (p.receive buf).buffer ≠ [] ∧
      ((p.receive buf).turn o).2 = true ∧ ((p.receive buf).turn o).1.buffer = []) :
    Reachable initial step ⟨((p.receive buf).turn o).1, false⟩ := by
  obtain ⟨reading, opened, some, filled, more, empty⟩ := there
  have turned := turn_reachable o (receive_reachable run reading opened some) filled
  rw [more] at turned
  exact emptied_reachable turned o empty

/-- The client is admitted. -/
theorem rfb_authenticated_allow :
    ∃ c : Connection, c.protocol.packetParser = .rfb ∧
      (∀ before e after, c.protocol.events = before ++ e :: after → e.Admitted →
        .evaluated true ∈ before) ∧ compared c.protocol.events ≤ 1 := by
  have first : Reachable (starts allowModule.toModule [] []) step ⟨_, false⟩ := .start rfl
  have version := message_reachable bareOutside first versionMessage
    ⟨rfl, rfl, by decide, by decide, rfl, rfl⟩
  have security := message_reachable bareOutside version [2] ⟨rfl, rfl, by decide, by decide, rfl, rfl⟩
  have response := message_reachable bareOutside security (List.replicate 16 0)
    ⟨rfl, rfl, by decide, by decide, rfl, rfl⟩
  have admitted := message_reachable bareOutside response [1]
    ⟨rfl, rfl, by decide, by decide, rfl, rfl⟩
  have fresh (c : Connection) (a : Action) : Fresh allowModule.toModule c a := by
    cases a with
    | turn o => exact fun _ _ default => absurd default (by decide)
    | _ => trivial
  exact ⟨_, rfl, (rfb_authenticated (m := allowModule) rfl [] [] _).1 admitted,
    (rfb_authenticated (m := allowModule) rfl [] [] _).2
      (admitted.mono fun c a _ taken => ⟨fresh c a, taken⟩)⟩

/-- A module that takes everything from the base class. -/
def sysModule : DesModule := desModule "sys" "password" .default (by decide)

/-- The first response takes the salt away; the next two are both checked all the same. -/
theorem not_rfb_authenticated :
    ¬ ∀ (m : DesModule) (sessionName data : Bytes) (c : Connection), m.requiresChallenge = true →
      Reachable (starts m.toModule sessionName data) step c → compared c.protocol.events ≤ 1 := by
  intro all
  have first : Reachable (starts sysModule.toModule [] []) step ⟨_, false⟩ := .start rfl
  have version := message_reachable bareOutside first versionMessage
    ⟨rfl, rfl, by decide, by decide, rfl, rfl⟩
  have security := message_reachable bareOutside version [2] ⟨rfl, rfl, by decide, by decide, rfl, rfl⟩
  have one := message_reachable bareOutside security (List.replicate 16 0)
    (by decide +kernel)
  have two := message_reachable bareOutside one (List.replicate 16 0)
    (by decide +kernel)
  have three := message_reachable bareOutside two (List.replicate 16 0)
    (by decide +kernel)
  exact absurd (all sysModule [] [] _ rfl three) (by decide +kernel)

end Catlink.Rfb
