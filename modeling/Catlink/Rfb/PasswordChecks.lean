import Catlink.Rfb.Authentication
import Mathlib.Tactic

/-! The RFB server has no salt of the client, and without one no password is ever accepted. -/

namespace Catlink.Rfb

open Auth Runs Trace

/-! ### One response -/

/-- The empty password is refused, where the module's `check` is asked. -/
def RefusesEmpty (m : CheckMethod) (o : Answers) : Prop := m = .default → o.check [] ≠ .ok true

/-- The salts cannot be combined. -/
theorem getResponseSalt_empty (h : Hashes) (usedSalt : Bytes → Bool) (s : State) :
    getResponseSalt h usedSalt s [] = ({ s with salt := none }, .error (.assertionError "")) := by
  unfold getResponseSalt gendigest
  dsimp only
  rw [if_pos (.inl rfl)]

theorem authenticateCheck_refuses (h : Hashes) {m : CheckMethod} (o : Answers) (s : State) {c : Hello}
    (unsalted : c.challengeClientSalt = []) (passwords : m = .default ∨ m = .hmac)
    (refuses : RefusesEmpty m o) : (authenticateCheck h m o s c).result ≠ .ok true := by
  intro accepted
  rcases passwords with rfl | rfl
  · simp only [authenticateCheck, defaultAuthenticateCheck, unxorResponse, unsalted,
      getResponseSalt_empty] at accepted
    by_cases known : s.salt = none
    · rw [if_pos known] at accepted
      dsimp only at accepted
      split at accepted
      · cases accepted
      · rename_i ret answers
        cases accepted
        exact refuses rfl answers
    · rw [if_neg known] at accepted
      cases accepted
  · simp only [authenticateCheck, authenticateHmac, unsalted, getResponseSalt_empty] at accepted
    split at accepted
    · cases accepted
    · cases accepted

theorem accepts_refused (o : Outside) (m : Module) (challenged : m.requiresChallenge = true) (s : State)
    (passwords : m.checkMethod = .default ∨ m.checkMethod = .hmac)
    (refuses : RefusesEmpty m.checkMethod o.answers) (response : Bytes) :
    accepts (Authenticator.authenticate o (m, s) response) = false := by
  have refused : (doAuthenticate o.hashes m.checkMethod o.answers s
      { challengeResponse := (hexstr response).toUTF8.toList }).result ≠ .ok true := by
    unfold doAuthenticate
    split
    · exact authenticateCheck_refuses o.hashes o.answers s rfl passwords refuses
    · intro impossible
      cases impossible
  have same : Authenticator.authenticate o (m, s) response = doAuthenticate o.hashes m.checkMethod o.answers s
      { challengeResponse := (hexstr response).toUTF8.toList } := by
    unfold Authenticator.authenticate Auth.authenticate
    dsimp only
    rw [if_pos challenged]
    rcases passwords with default | hmac
    · rw [default] at refused ⊢
      dsimp only
      split
      · rename_i accepted
        exact absurd accepted refused
      · rfl
    · rw [hmac] at refused ⊢
      dsimp only
      split
      · rename_i accepted
        exact absurd accepted refused
      · rfl
  rw [same]
  unfold accepts
  split
  · rename_i answer result
    cases answer with
    | true => exact absurd result refused
    | false => rfl
  · rfl

/-! ### Every run -/

/-- No response was accepted. -/
def Refused (p : RFBProtocol) : Prop := .evaluated true ∉ p.events

variable {m : DesModule} {p : RFBProtocol}

theorem Refused.note (refused : Refused p) {events : List Event} (plain : .evaluated true ∉ events) :
    Refused (p.note events) := by
  intro inside
  rcases List.mem_append.mp inside with old | new
  · exact refused old
  · exact plain new

theorem Refused.send (refused : Refused p) (reply : Reply) : Refused (p.send reply) := by
  unfold RFBProtocol.send
  split
  · exact refused
  · exact refused.note (by simp)

theorem Refused.processPacket (refused : Refused p) (packet : Packet) : Refused (p.processPacket packet) :=
  refused.note (by simp)

theorem Refused.close (refused : Refused p) : Refused p.close := by
  unfold RFBProtocol.close
  split
  · exact refused
  · have closed : Refused { p with closed := true } := refused
    exact closed.processPacket .connectionLost

theorem Refused.internalError (refused : Refused p) : Refused p.internalError := by
  unfold RFBProtocol.internalError
  split
  · exact refused
  · exact refused

theorem parseSecurityHandshake_refused (o : Outside) (refused : Refused p) (rfbdata : Bytes) :
    Refused (parseSecurityHandshake o p rfbdata).1 := by
  unfold parseSecurityHandshake
  split
  · split
    · dsimp only
      split
      · exact refused
      split
      · exact refused
      split
      · exact refused
      · refine Refused.send ?_ _
        exact refused
    · split
      · exact refused
      · refine Refused.send ?_ _
        exact refused
  · exact refused.internalError

theorem parseChallenge_refused (o : Outside) (challenged : m.requiresChallenge = true)
    (passwords : m.checkMethod = .default ∨ m.checkMethod = .hmac)
    (refuses : RefusesEmpty m.checkMethod o.answers) (guarded : Guarded False m p) (refused : Refused p)
    (response : Bytes) : Refused (parseChallenge o p response).1 := by
  obtain ⟨s, authenticator, -⟩ := guarded.budget
  have answer := accepts_refused o m.toModule challenged s passwords refuses response
  unfold parseChallenge
  split
  · exact refused
  simp only [authenticator]
  split
  · exact refused
  generalize Authenticator.authenticate o (m.toModule, s) response = r at answer ⊢
  rw [answer]
  simp only [Bool.false_eq_true, if_false]
  have kept : Refused { p with authenticator := some (m.toModule, r.state) } := refused
  exact kept.note (by simp)

theorem parse_refused (o : Outside) (challenged : m.requiresChallenge = true)
    (passwords : m.checkMethod = .default ∨ m.checkMethod = .hmac)
    (refuses : RefusesEmpty m.checkMethod o.answers) (guarded : Guarded False m p) (refused : Refused p) :
    Refused (p.parse o).1 := by
  unfold RFBProtocol.parse
  split
  · unfold parseProtocolHandshake
    split
    · exact refused
    split
    · exact refused
    split
    · exact refused
    split
    · exact refused.send _
    · refine Refused.send ?_ _
      exact refused
  · exact parseSecurityHandshake_refused o refused _
  · exact parseChallenge_refused o challenged passwords refuses guarded refused _
  · have parser : Refused { p with share := decide (p.buffer ≠ [0]), packetParser := .rfb } := refused
    exact (parser.send _).processPacket _
  · unfold parseRfb
    split
    · exact refused
    dsimp only
    split
    · exact refused
    split
    · exact refused
    split
    · exact refused
    split
    · exact refused
    · exact refused.processPacket _
  · exact refused

theorem turn_refused (o : Outside) (challenged : m.requiresChallenge = true)
    (passwords : m.checkMethod = .default ∨ m.checkMethod = .hmac)
    (refuses : RefusesEmpty m.checkMethod o.answers) (guarded : Guarded False m p) (refused : Refused p) :
    Refused (p.turn o).1 := by
  have parsed := parse_refused o challenged passwords refuses guarded refused
  unfold RFBProtocol.turn
  split
  · rename_i after e same
    rw [same] at parsed
    have stopped : Refused { after with reading := false } := parsed
    exact stopped.close
  · rename_i after consumed same
    rw [same] at parsed
    split
    · exact parsed
    · exact parsed

/-- A response that is refused is noted, and all of it consumed. -/
theorem turn_refusing (o : Outside) {a : Authenticator} (here : p.packetParser = .challenge)
    (authenticator : p.authenticator = some a) (sized : p.buffer.length = 16)
    (refused : accepts (a.authenticate o p.buffer) = false) :
    .evaluated false ∈ (p.turn o).1.events ∧ (p.turn o).2 = true ∧ (p.turn o).1.buffer = [] := by
  have enough : ¬ p.buffer.length < 16 := by omega
  have parsed : p.parse o = (({ p with authenticator := some (a.1, (a.authenticate o p.buffer).state) }.note
      ((a.authenticate o p.buffer).guesses.map Event.guess ++ [Event.evaluated false])).schedule
        .sendFailChallenge, .ok 16) := by
    have challenge : p.parse o = parseChallenge o p p.buffer := by
      unfold RFBProtocol.parse
      rw [here]
    rw [challenge]
    unfold parseChallenge
    rw [if_neg enough, authenticator]
    dsimp only
    rw [refused, if_neg (not_not.mpr sized), if_neg Bool.false_ne_true, sized]
    rfl
  unfold RFBProtocol.turn
  rw [parsed]
  refine ⟨?_, rfl, ?_⟩
  · exact List.mem_append_right _ (List.mem_append_right _ (List.mem_singleton.mpr rfl))
  · change p.buffer.drop 16 = []
    rw [← sized, List.drop_length]

/-- A module's `check` does not take an empty password. -/
def Prudent (m : Module) : Action → Prop
  | .turn o => RefusesEmpty m.checkMethod o.answers
  | _ => True

theorem step_refused {c c' : Connection} {a : Action} (challenged : m.requiresChallenge = true)
    (passwords : m.checkMethod = .default ∨ m.checkMethod = .hmac) (prudent : Prudent m.toModule a)
    (safe : Safe False m c) (refused : Refused c.protocol) (taken : step c a c') : Refused c'.protocol := by
  cases a with
  | receive buf =>
      obtain ⟨-, -, -, -, rfl⟩ := taken
      exact refused
  | turn o =>
      obtain ⟨-, rfl⟩ := taken
      split
      · exact refused
      · exact turn_refused o challenged passwords prudent safe.guarded refused
  | eof =>
      obtain ⟨-, -, -, rfl⟩ := taken
      exact refused
  | fails =>
      obtain ⟨-, rfl⟩ := taken
      have stopped : Refused { c.protocol with reading := false } := refused
      exact stopped.close
  | call callback =>
      obtain ⟨before, after, -, rfl⟩ := taken
      have left : Refused { c.protocol with callbacks := before ++ after } := refused
      cases callback with
      | processPacket packet => exact left.processPacket packet
      | connectionLost => exact left.close
      | close => exact left.close
      | sendFailChallenge => exact (left.send _).close
  | close =>
      subst taken
      exact refused.close

/-- Whatever a client sends, a module that compares passwords never admits it: its response has no
salt of the client. -/
theorem rfb_passwords_refused (challenged : m.requiresChallenge = true)
    (passwords : m.checkMethod = .default ∨ m.checkMethod = .hmac) {sessionName data : Bytes}
    {c : Connection} (run : Reachable (starts m.toModule sessionName data)
      (fun c a c' => Prudent m.toModule a ∧ step c a c') c) :
    .evaluated true ∉ c.protocol.events ∧ ∀ e ∈ c.protocol.events, ¬ e.Admitted := by
  have first (c : Connection) (first : starts m.toModule sessionName data c) :
      Safe False m c ∧ Refused c.protocol := by
    refine ⟨starts_safe first, ?_⟩
    rw [first]
    exact List.not_mem_nil
  have safe : Safe False m c ∧ Refused c.protocol := by
    refine run.invariant first fun c a c' kept taken => ?_
    obtain ⟨prudent, taken⟩ := taken
    exact ⟨step_safe challenged False.elim kept.1 taken, step_refused challenged passwords prudent kept.1 kept.2 taken⟩
  refine ⟨safe.2, fun e member admitted => ?_⟩
  obtain ⟨before, after, split⟩ := List.append_of_mem member
  have accepted := safe.1.guarded.respects.allows before split admitted
  apply safe.2
  rw [split]
  exact List.mem_append_left _ accepted

/-- A module that has the password itself. -/
def envModule : DesModule := desModule "env" "password" .hmac (by decide)

theorem envModule_prudent (a : Action) : Prudent envModule.toModule a := by
  cases a with
  | turn o => exact fun default => absurd default (by decide)
  | _ => trivial

/-- The challenge is answered, and the answer refused. -/
theorem rfb_passwords_refused_env : ∃ c : Connection, .evaluated false ∈ c.protocol.events ∧
    .evaluated true ∉ c.protocol.events ∧ ∀ e ∈ c.protocol.events, ¬ e.Admitted := by
  have first : Reachable (starts envModule.toModule [] [])
      (fun c a c' => Prudent envModule.toModule a ∧ step c a c') ⟨_, false⟩ := .start rfl
  have receives {p : RFBProtocol} (run : Reachable (starts envModule.toModule [] [])
      (fun c a c' => Prudent envModule.toModule a ∧ step c a c') ⟨p, false⟩) (buf : Bytes)
      (there : p.reading = true ∧ p.closed = false ∧ buf ≠ [] ∧ (p.receive buf).buffer ≠ []) :
      Reachable (starts envModule.toModule [] [])
        (fun c a c' => Prudent envModule.toModule a ∧ step c a c')
        ⟨((p.receive buf).turn bareOutside).1, ((p.receive buf).turn bareOutside).2⟩ := by
    obtain ⟨reading, opened, some, filled⟩ := there
    have received := run.next (a := Action.receive buf) ⟨trivial, rfl, reading, opened, some, rfl⟩
    exact received.next (a := Action.turn bareOutside)
      ⟨envModule_prudent _, rfl, (if_neg filled).symm⟩
  have empties {p : RFBProtocol} {more : Bool} (run : Reachable (starts envModule.toModule [] [])
      (fun c a c' => Prudent envModule.toModule a ∧ step c a c') ⟨p, more⟩) (again : more = true)
      (empty : p.buffer = []) : Reachable (starts envModule.toModule [] [])
        (fun c a c' => Prudent envModule.toModule a ∧ step c a c') ⟨p, false⟩ := by
    subst again
    exact run.next (a := Action.turn bareOutside) ⟨envModule_prudent _, rfl, (if_pos empty).symm⟩
  have version := empties (receives first versionMessage ⟨rfl, rfl, by decide, by decide⟩) rfl rfl
  have security := empties (receives version [2] ⟨rfl, rfl, by decide, by decide⟩) rfl rfl
  have answered := receives security (List.replicate 16 0) ⟨rfl, rfl, by decide, by decide⟩
  have refused := rfb_passwords_refused (m := envModule) rfl (.inr rfl) answered
  refine ⟨_, ?_, refused⟩
  refine (turn_refusing bareOutside rfl rfl rfl ?_).1
  exact accepts_refused bareOutside envModule.toModule rfl _ (.inr rfl) (fun default => absurd default (by decide)) _

end Catlink.Rfb
