import Catlink.Auth.SysAuthBase
import Catlink.Lib.Runs
import Catlink.Lib.Trace

/-! The authentication of a connection, one hello packet after the other. -/

namespace Catlink.Server

open Auth

abbrev AuthCaps := List (String × PyVal)

/-- What one call of `verify_auth` does, in order. -/
inductive Event
  /-- `send_challenge` for an authenticator -/
  | challenge (i : Nat) (salt : Bytes) (authCaps : AuthCaps) (digest saltDigest prompt : String)
  | fakeChallenge (salt : Bytes) (authCaps : AuthCaps) (digest saltDigest : String)
  /-- `authenticate` is called -/
  | evaluated (i : Nat)
  /-- a response is checked, with this salt -/
  | guess (i : Nat) (salt : Option Bytes)
  /-- `authenticate` returned true -/
  | passed (i : Nat)
  /-- `auth_failed`: the connection is closed a second later -/
  | failed (authenticator : Option Nat) (msg : String)
  /-- an exception that ends the call -/
  | raised (e : Exn)
  /-- `auth_verified` -/
  | verified (commandRequest : List String)

/-- What the rest of the server answers while one hello is processed. -/
structure Outside where
  /-- the connection is there and not closed -/
  connected : Bool
  /-- `make_authenticators` raises -/
  construct : Option Exn
  setupEncryption : Except Exn (Option AuthCaps)
  answers : Nat → Answers
  /-- `get_salt()` for a fake challenge -/
  fakeSalt : Bytes

/-- The authenticators of the connection, none before the first hello. -/
abbrev Authenticators := List (Module × State)

/-- `conn.options` and `auth_classes` decide which modules there are. -/
def makeAuthenticators (config : List Module) : Authenticators := config.map fun m => (m, m.start)

/-- `if not csent`: up to the `return`. -/
def offerChallenge (o : Answers) (c : Hello) (authCaps : AuthCaps) (i : Nat) (m : Module)
    (s : State) : State × List Event :=
  match m.getChallenge o.getSalt s c.digest with
  | (s, .error (.valueError _)) => (s, [.failed (some i) "authentication challenge processing error"])
  | (s, .error e) => (s, [.raised e])
  | (s, .ok (salt, digest)) =>
      if salt = [] ∧ digest = "" then
        (s, [.failed (some i) "invalid state, unexpected challenge response"])
      else
        -- `digest.split(":", 1)[0]`
        let actualDigest := String.ofList (digest.toList.takeWhile (· ≠ ':'))
        if actualDigest ∉ c.digest then
          (s, [.failed (some i) s!"cannot proceed without '{actualDigest}' digest support"])
        else
          match chooseSaltDigest s c.saltDigest with
          | (s, .error e) => (s, [.raised e])
          | (s, .ok saltDigest) =>
              if saltDigest ∈ ["xor", "des"] then
                (s, [.failed (some i) s!"insecure salt digest '{saltDigest}' rejected"])
              else (s, [.challenge i salt authCaps digest saltDigest m.prompt])

/-- `authenticator.authenticate(c)`, and whether to go on with the next authenticator. -/
def takeResponse (h : Hashes) (o : Answers) (c : Hello) (i : Nat) (m : Module) (s : State) :
    State × List Event × Bool :=
  let r := authenticate h m.checkMethod o s c
  let tried := Event.evaluated i :: r.guesses.map (.guess i)
  match r.result with
  | .error e => (r.state, tried ++ [.raised e], false)
  | .ok false => (r.state, tried ++ [.failed (some i) "authentication failed"], false)
  | .ok true => (r.state, tried ++ [.passed i], true)

/-- One turn of the loop over the authenticators, for one that has not passed. -/
def visit (h : Hashes) (o : Answers) (c : Hello) (authCaps : AuthCaps) (i : Nat) (m : Module)
    (s : State) : State × List Event × Bool :=
  if m.requiresChallenge then
    if s.challengeSent then takeResponse h o c i m s
    else
      let (s, events) := offerChallenge o c authCaps i m s
      (s, events, false)
  else
    match o.authenticates with
    | .error e => (s, [.evaluated i, .raised e], false)
    | .ok false => (s, [.evaluated i, .failed (some i) "authentication failed"], false)
    | .ok true => ({ s with passed := true }, [.evaluated i, .passed i], true)

/-- The loop, from authenticator `i` on; true if it comes to its end. -/
def visitAll (h : Hashes) (o : Outside) (c : Hello) (authCaps : AuthCaps) :
    Nat → Authenticators → Authenticators × List Event × Bool
  | _, [] => ([], [], true)
  | i, (m, s) :: rest =>
      if s.passed then
        let (rest, events, finished) := visitAll h o c authCaps (i + 1) rest
        ((m, s) :: rest, events, finished)
      else
        match visit h (o.answers i) c authCaps i m s with
        | (s, events, false) => ((m, s) :: rest, events, false)
        | (s, events, true) =>
            let (rest, later, finished) := visitAll h o c authCaps (i + 1) rest
            ((m, s) :: rest, events ++ later, finished)

/-- `send_fake_challenge` -/
def sendFakeChallenge (o : Outside) (c : Hello) (authCaps : AuthCaps) : List Event :=
  match chooseDigest c.digest, chooseDigest c.saltDigest with
  | .error e, _ => [.raised e]
  | .ok _, .error e => [.raised e]
  | .ok digest, .ok saltDigest => [.fakeChallenge o.fakeSalt authCaps digest saltDigest]

/-- After the loop. -/
def concludeAuth (o : Outside) (c : Hello) (authCaps : AuthCaps) : List Event :=
  if c.challenge ≠ "" then sendFakeChallenge o c authCaps else [.verified c.commandRequest]

/-- `verify_auth` once the authenticators are there. -/
def processAuth (h : Hashes) (o : Outside) (c : Hello) (auths : Authenticators) :
    Authenticators × List Event :=
  match o.setupEncryption with
  | .error e => (auths, [.raised e])
  | .ok none => (auths, [])
  | .ok (some authCaps) =>
      match visitAll h o c authCaps 0 auths with
      | (auths, events, false) => (auths, events)
      | (auths, events, true) => (auths, events ++ concludeAuth o c authCaps)

def verifyAuth (h : Hashes) (config : List Module) (o : Outside) (c : Hello)
    (auths : Authenticators) : Authenticators × List Event :=
  if o.connected then
    match auths, o.construct with
    | [], some e => ([], [.failed none e.text])
    | [], none => processAuth h o c (makeAuthenticators config)
    | auth :: auths, _ => processAuth h o c (auth :: auths)
  else (auths, [])

/-! ### Runs -/

structure Connection where
  authenticators : Authenticators
  /-- everything that happened so far -/
  log : List Event

def initial (s : Connection) : Prop := s = ⟨[], []⟩

/-- A hello packet arrives. -/
def hello (h : Hashes) (config : List Module) (s : Connection) (a : Hello × Outside)
    (s' : Connection) : Prop :=
  let (authenticators, events) := verifyAuth h config a.2 a.1 s.authenticators
  s' = ⟨authenticators, s.log ++ events⟩

/-- What must have happened before an event, or must not have. -/
def Allowed (config : List Module) (past : List Event) : Event → Prop
  | .challenge i _ _ _ _ _ => ∀ j < i, .passed j ∈ past
  | .evaluated i => .passed i ∉ past
  | .guess i _ => ∀ salt, .guess i salt ∉ past
  | .verified _ => ∀ j < config.length, .passed j ∈ past
  | _ => True

end Catlink.Server
