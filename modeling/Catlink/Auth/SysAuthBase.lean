import Catlink.Python

/-! The base class of the authentication modules: its challenge, and the checks of a response. -/

namespace Catlink.Auth

/-! ### Digests -/

/-- The hash functions of the digests that are not computed here. -/
structure Hashes where
  /-- the hexadecimal `hmac` of a password and a salt; `none` for an unknown digest -/
  hmac : String → Bytes → Bytes → Option Bytes
  /-- `generate_response` of `d3des`, in hexadecimal -/
  des : Bytes → Bytes → Except Exn Bytes

/-- `data.ljust(size, b"\x00")[:size]` -/
def padTo (size : Nat) (data : Bytes) : Bytes :=
  (data ++ List.replicate (size - data.length) 0).take size

def gendigest (h : Hashes) (digest : String) (passwordIn saltIn : Bytes) : Except Exn Bytes :=
  if passwordIn = [] ∨ saltIn = [] then .error (.assertionError "")
  else if digest = "des" then h.des (padTo 8 passwordIn) (padTo 16 saltIn)
  else if digest ∈ ["xor", "kerberos", "gss", "keycloak"] then
    .ok (List.zipWith (fun a b => a ^^^ b) passwordIn (padTo passwordIn.length saltIn))
  else .ok ((h.hmac digest passwordIn saltIn).getD [])

def verifyDigest (h : Hashes) (digest : String) (password salt challengeResponse : Bytes) :
    Except Exn Bool :=
  if digest = "" ∨ password = [] ∨ salt = [] ∨ challengeResponse = [] then .ok false
  else do
    let verify ← gendigest h digest password salt
    .ok (verify == challengeResponse)

def csv (items : List String) : String := String.intercalate ", " items

/-- Stronger hashes first. -/
def chooseDigest (options : List String) : Except Exn String :=
  if options = [] then .error (.assertionError "no digest options")
  else if "hmac+sha512" ∈ options then .ok "hmac+sha512"
  else if "hmac+sha384" ∈ options then .ok "hmac+sha384"
  else if "hmac+sha256" ∈ options then .ok "hmac+sha256"
  else if "hmac+sha224" ∈ options then .ok "hmac+sha224"
  else if "xor" ∈ options then .ok "xor"
  else if "des" ∈ options then .ok "des"
  else .error (.valueError s!"no known digest options found in '{csv options}'")

/-! ### Authenticators -/

/-- The fields of an authenticator that change. -/
structure State where
  salt : Option Bytes
  digest : Option String := none
  saltDigest : Option String := none
  challengeSent : Bool := false
  passed : Bool := false

/-- What a hello packet says, as the getters of `typedict` return it. -/
structure Hello where
  /-- there are capabilities -/
  present : Bool := true
  digest : List String := ["hmac"]
  saltDigest : List String := ["xor"]
  challengeResponse : Bytes := []
  challengeClientSalt : Bytes := []
  /-- the client expects a challenge -/
  challenge : String := ""
  commandRequest : List String := []

/-- What the world outside answers while one hello is processed. -/
structure Answers where
  /-- `get_salt()` -/
  getSalt : Bytes
  /-- `authenticate(..)` of a module that needs no challenge -/
  authenticates : Except Exn Bool
  /-- `check(..)`, which may raise -/
  check : Bytes → Except Exn Bool
  /-- `get_passwords()` -/
  getPasswords : List Bytes
  /-- the check of a module that looks at the salt itself -/
  ownCheck : Option Bytes → Except Exn Bool
  /-- the computed salts that were used before, by any authenticator -/
  usedSalt : Bytes → Bool

/-- `do_get_challenge`: a challenge, or an exception once the salt is there. -/
def doGetChallenge (salt : Bytes) (s : State) (digests : List String) :
    State × Except Exn (Bytes × String) :=
  match chooseDigest digests with
  | .error e => ({ s with salt := some salt }, .error e)
  | .ok digest =>
      ({ s with salt := some salt, digest := some digest, challengeSent := true }, .ok (salt, digest))

def getChallenge (salt : Bytes) (s : State) (digests : List String) :
    State × Except Exn (Bytes × String) :=
  -- authentication challenge already sent!
  if s.salt ≠ none then (s, .ok ([], ""))
  else doGetChallenge salt s digests

/-- How a module checks a response. -/
inductive CheckMethod
  /-- `default_authenticate_check` -/
  | default
  /-- `authenticate_hmac` -/
  | hmac
  /-- the method of the module, which does not use `get_response_salt` (`u2f_check`) -/
  | own
  /-- `authenticate` itself is replaced, it returns true (`allow`) -/
  | allow
  deriving DecidableEq

/-- An authentication module. Its `get_challenge` is that of the base class, or one of its own that
records a challenge it returns and leaves `passed` alone. -/
structure Module where
  name : String
  prompt : String
  requiresChallenge : Bool
  checkMethod : CheckMethod
  /-- `keycloak` starts with a salt -/
  initialSalt : Option Bytes := none
  getChallenge : Bytes → State → List String → State × Except Exn (Bytes × String) := Auth.getChallenge
  records : ∀ salt s digests s' challenge, getChallenge salt s digests = (s', .ok challenge) →
    challenge = ([], "") ∨ s'.challengeSent = true
  keepsPassed : ∀ salt s digests, (getChallenge salt s digests).1.passed = s.passed

def Module.start (m : Module) : State := { salt := m.initialSalt }

/-! ### Responses -/

/-- What a call does to the authenticator, the salts that its responses were checked with, and what
it returns. -/
structure Outcome (α : Type) where
  state : State
  /-- one entry for each response that is checked: the salt, if there was one -/
  guesses : List (Option Bytes)
  result : Except Exn α

def validateCaps (s : State) (c : Hello) : Bool :=
  !s.passed && c.present && s.challengeSent && c.challengeResponse ≠ []

def getResponseSalt (h : Hashes) (usedSalt : Bytes → Bool) (s : State) (clientSalt : Bytes) :
    State × Except Exn Bytes :=
  -- make sure it does not get re-used
  let cleared := { s with salt := none }
  match gendigest h (s.saltDigest.getD "") clientSalt (s.salt.getD []) with
  | .error e => (cleared, .error e)
  | .ok salt =>
      if usedSalt salt then
        (cleared, .error (.runtimeError
          "danger: an attempt was made to re-use the same computed salt"))
      else (cleared, .ok salt)

def unxorResponse (h : Hashes) (usedSalt : Bytes → Bool) (s : State) (c : Hello) :
    State × Except Exn Bytes :=
  -- illegal challenge response received - salt cleared or unset
  if s.salt = none then (s, .ok [])
  else
    match getResponseSalt h usedSalt s c.challengeClientSalt with
    | (s, .error e) => (s, .error e)
    | (s, .ok salt) => (s, gendigest h "xor" c.challengeResponse salt)

def defaultAuthenticateCheck (h : Hashes) (o : Answers) (s : State) (c : Hello) : Outcome Bool :=
  match unxorResponse h o.usedSalt s c with
  | (s', .error e) => ⟨s', [], .error e⟩
  | (s', .ok value) =>
      match o.check value with
      | .error _ => ⟨s', [s.salt], .ok false⟩
      | .ok ret => ⟨s', [s.salt], .ok ret⟩

/-- `for x in passwords` -/
def verifyPasswords (h : Hashes) (digest : String) (salt challengeResponse : Bytes) :
    List Bytes → Except Exn Bool
  | [] => .ok false
  | x :: passwords => do
      let verified ← verifyDigest h digest x salt challengeResponse
      if verified then .ok true else verifyPasswords h digest salt challengeResponse passwords

def authenticateHmac (h : Hashes) (o : Answers) (s : State) (c : Hello) : Outcome Bool :=
  -- illegal challenge response received - salt cleared or unset
  if s.salt.getD [] = [] then ⟨s, [], .ok false⟩
  else
    match getResponseSalt h o.usedSalt s c.challengeClientSalt with
    | (s', .error e) => ⟨s', [], .error e⟩
    | (s', .ok salt) =>
        ⟨s', [s.salt],
          verifyPasswords h (s.digest.getD "") salt c.challengeResponse o.getPasswords⟩

/-- `authenticate_check` -/
def authenticateCheck (h : Hashes) (m : CheckMethod) (o : Answers) (s : State) (c : Hello) :
    Outcome Bool :=
  match m with
  | .default => defaultAuthenticateCheck h o s c
  | .hmac => authenticateHmac h o s c
  | .own => ⟨s, [s.salt], o.ownCheck s.salt⟩
  | .allow => ⟨s, [], .ok true⟩

def doAuthenticate (h : Hashes) (m : CheckMethod) (o : Answers) (s : State) (c : Hello) :
    Outcome Bool :=
  if validateCaps s c then authenticateCheck h m o s c else ⟨s, [], .ok false⟩

/-- `authenticate` of a module that needs a challenge. -/
def authenticate (h : Hashes) (m : CheckMethod) (o : Answers) (s : State) (c : Hello) :
    Outcome Bool :=
  match m with
  | .allow => ⟨s, [], .ok true⟩
  | _ =>
      let r := doAuthenticate h m o s c
      match r.result with
      | .ok true => { r with state := { r.state with passed := true } }
      | _ => r

/-- Also keeps the digest it returns. -/
def chooseSaltDigest (s : State) (digestModes : List String) : State × Except Exn String :=
  match chooseDigest digestModes with
  | .error e => (s, .error e)
  | .ok digest => ({ s with saltDigest := some digest }, .ok digest)

/-! ### What the methods change -/

theorem getChallenge_records (salt : Bytes) (s : State) (digests : List String) (s' : State)
    (challenge : Bytes × String) (returned : getChallenge salt s digests = (s', .ok challenge)) :
    challenge = ([], "") ∨ s'.challengeSent = true := by
  unfold getChallenge at returned
  split at returned
  · cases returned
    exact .inl rfl
  · unfold doGetChallenge at returned
    split at returned
    · cases returned
    · cases returned
      exact .inr rfl

theorem getChallenge_keepsPassed (salt : Bytes) (s : State) (digests : List String) :
    (getChallenge salt s digests).1.passed = s.passed := by
  unfold getChallenge doGetChallenge
  split
  · rfl
  · split <;> rfl

theorem getResponseSalt_clears (h : Hashes) (usedSalt : Bytes → Bool) (s : State)
    (clientSalt : Bytes) :
    (getResponseSalt h usedSalt s clientSalt).1 = { s with salt := none } := by
  simp only [getResponseSalt]
  split
  · rfl
  · split <;> rfl

theorem unxorResponse_state (h : Hashes) (usedSalt : Bytes → Bool) (s : State) (c : Hello) :
    (unxorResponse h usedSalt s c).1 = { s with salt := none } := by
  have cleared := getResponseSalt_clears h usedSalt s c.challengeClientSalt
  unfold unxorResponse
  split
  · next empty => rw [← empty]
  · split
    · next same => rwa [same] at cleared
    · next same => rwa [same] at cleared

/-- What a check changes: it takes the salt away, unless the module looks at it itself. -/
theorem authenticateCheck_state (h : Hashes) (m : CheckMethod) (o : Answers) (s : State)
    (c : Hello) : (authenticateCheck h m o s c).state = s ∨
      (authenticateCheck h m o s c).state = { s with salt := none } := by
  cases m with
  | default =>
      have state := unxorResponse_state h o.usedSalt s c
      simp only [authenticateCheck, defaultAuthenticateCheck]
      split
      · next same =>
          rw [same] at state
          exact .inr state
      · next same =>
          rw [same] at state
          split <;> exact .inr state
  | hmac =>
      have state := getResponseSalt_clears h o.usedSalt s c.challengeClientSalt
      simp only [authenticateCheck, authenticateHmac]
      split
      · exact .inl rfl
      · split
        · next same =>
            rw [same] at state
            exact .inr state
        · next same =>
            rw [same] at state
            exact .inr state
  | own => exact .inl rfl
  | allow => exact .inl rfl

/-- A check looks at no more than one response. With `authenticate_hmac` it needs a salt for that,
and leaves none. -/
theorem authenticateCheck_guesses (h : Hashes) (m : CheckMethod) (o : Answers) (s : State)
    (c : Hello) : (authenticateCheck h m o s c).guesses = [] ∨
      ((authenticateCheck h m o s c).guesses = [s.salt] ∧
        (m = .hmac → s.salt ≠ none ∧ (authenticateCheck h m o s c).state.salt = none)) := by
  cases m with
  | default =>
      simp only [authenticateCheck, defaultAuthenticateCheck]
      split
      · exact .inl rfl
      · split <;> exact .inr ⟨rfl, by simp⟩
  | hmac =>
      have state := getResponseSalt_clears h o.usedSalt s c.challengeClientSalt
      simp only [authenticateCheck, authenticateHmac]
      split
      · exact .inl rfl
      · next salted =>
          split
          · exact .inl rfl
          · next same =>
              rw [same] at state
              refine .inr ⟨rfl, fun _ => ⟨?_, ?_⟩⟩
              · intro empty
                simp [empty] at salted
              · exact congrArg State.salt state
  | own => exact .inr ⟨rfl, by simp⟩
  | allow => exact .inl rfl

/-- What `authenticate` does to an authenticator that has not passed. -/
structure Authenticates (m : CheckMethod) (s : State) (c : Hello) (r : Outcome Bool) : Prop where
  sent : r.state.challengeSent = s.challengeSent
  salt : r.state.salt = s.salt ∨ r.state.salt = none
  guesses : r.guesses = [] ∨ ∃ salt, r.guesses = [salt] ∧ validateCaps s c = true ∧ m ≠ .allow ∧
    (m = .hmac → s.salt ≠ none ∧ r.state.salt = none)
  passed : r.state.passed = true ↔ m ≠ .allow ∧ r.result = .ok true

theorem authenticate_spec (h : Hashes) (m : CheckMethod) (o : Answers) {s : State} (c : Hello)
    (failed : s.passed = false) : Authenticates m s c (authenticate h m o s c) := by
  by_cases replaced : m = .allow
  · subst replaced
    exact ⟨rfl, .inl rfl, .inl rfl, by simp [authenticate, failed]⟩
  · have base : authenticate h m o s c =
        match (doAuthenticate h m o s c).result with
        | .ok true => { doAuthenticate h m o s c with
            state := { (doAuthenticate h m o s c).state with passed := true } }
        | _ => doAuthenticate h m o s c := by
      cases m with
      | allow => exact absurd rfl replaced
      | _ => rfl
    have kept : (doAuthenticate h m o s c).state = s ∨
        (doAuthenticate h m o s c).state = { s with salt := none } := by
      unfold doAuthenticate
      split
      · exact authenticateCheck_state h m o s c
      · exact .inl rfl
    have guesses : (doAuthenticate h m o s c).guesses = [] ∨
        ∃ salt, (doAuthenticate h m o s c).guesses = [salt] ∧ validateCaps s c = true ∧ m ≠ .allow ∧
          (m = .hmac → s.salt ≠ none ∧ (doAuthenticate h m o s c).state.salt = none) := by
      unfold doAuthenticate
      split
      · next valid =>
          rcases authenticateCheck_guesses h m o s c with none | ⟨one, used⟩
          · exact .inl none
          · exact .inr ⟨_, one, valid, replaced, used⟩
      · exact .inl rfl
    have fields : (doAuthenticate h m o s c).state.challengeSent = s.challengeSent ∧
        ((doAuthenticate h m o s c).state.salt = s.salt ∨
          (doAuthenticate h m o s c).state.salt = none) ∧
        (doAuthenticate h m o s c).state.passed = false := by
      rcases kept with same | same
      · rw [same]
        exact ⟨rfl, .inl rfl, failed⟩
      · rw [same]
        exact ⟨rfl, .inr rfl, failed⟩
    rw [base]
    split
    · next right =>
        exact ⟨fields.1, fields.2.1, guesses, by simp [replaced, right]⟩
    · next wrong =>
        refine ⟨fields.1, fields.2.1, guesses, ?_⟩
        rw [fields.2.2]
        constructor
        · intro impossible
          cases impossible
        · intro both
          exact absurd both.2 wrong

/-- A module that takes everything but its check from the base class. -/
def baseModule (name prompt : String) (checkMethod : CheckMethod) : Module where
  name := name
  prompt := prompt
  requiresChallenge := true
  checkMethod := checkMethod
  records := getChallenge_records
  keepsPassed := getChallenge_keepsPassed

end Catlink.Auth
