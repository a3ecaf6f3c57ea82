import Catlink.Client.Responses
import Catlink.Server.AuthSoundness
import Mathlib.Tactic

/-! A client with the right passwords is let in. -/

namespace Catlink.Challenge

open Auth Server

variable {h : Hashes} {sd : String}

/-! ### The client and its world -/

/-- The strong digest that is chosen among these. -/
structure Chooses (sd : String) (hmacs : List String) : Prop where
  member : sd ∈ hmacs
  chosen : ∀ options : List String, (∀ x ∈ strongDigests, x ∈ options ↔ x ∈ hmacs) →
    chooseDigest options = .ok sd

/-- A client that can still answer with these passwords. -/
structure Ready (sd : String) (s : ChallengeClient) (passwords : List Bytes) : Prop where
  able : Able s.settings
  chooses : Chooses sd s.settings.hmacDigests
  known : Handlers s.challengeHandlers
  provides : Provides s.challengeHandlers passwords

theorem Ready.offers {s : ChallengeClient} {passwords : List Bytes} (hashed : Hashed h sd)
    (ready : Ready sd s passwords) (challengeResponse clientSalt : Bytes) :
    Offers sd (sendHello s challengeResponse clientSalt) where
  digest := ready.chooses.chosen s.digests fun _ known => mem_strong ready.known known
  strong := (mem_strong ready.known hashed.1).mpr ready.chooses.member
  xor := xor_mem_digests ready.known
  saltDigest := ready.chooses.chosen s.settings.hmacDigests fun _ _ => Iff.rfl

/-- The authenticators from `i` on can pass, with these passwords for those that ask for one. -/
inductive Fits (answers : Nat → Answers) : Nat → List Module → List Bytes → Prop
  | done (i : Nat) : Fits answers i [] []
  | free {i : Nat} {m : Module} {rest : List Module} {passwords : List Bytes}
      (free : m.requiresChallenge = false) (passes : (answers i).authenticates = .ok true)
      (later : Fits answers (i + 1) rest passwords) : Fits answers i (m :: rest) passwords
  | asks {i : Nat} {m : Module} {rest : List Module} {password : Bytes} {passwords : List Bytes}
      (module : PasswordModule m) (honest : Honest m (answers i) password)
      (later : Fits answers (i + 1) rest passwords) :
      Fits answers i (m :: rest) (password :: passwords)

/-- What happens outside while the server checks these passwords, from authenticator `i` on. -/
structure World (r : Round) (i : Nat) (modules : List Module) (passwords : List Bytes) : Prop where
  connected : r.outside.connected = true
  construct : r.outside.construct = none
  encryption : ∃ authCaps, r.outside.setupEncryption = .ok (some authCaps)
  fits : Fits r.outside.answers i modules passwords
  random : r.urandom 32 ≠ []

/-- These authenticators, from `i` on, pass without a challenge. -/
def Free (answers : Nat → Answers) (i : Nat) (modules : List Module) : Prop :=
  (∀ m ∈ modules, m.requiresChallenge = false) ∧
    ∀ k < modules.length, (answers (i + k)).authenticates = .ok true

theorem Free.cons {answers : Nat → Answers} {i : Nat} {m : Module} {modules : List Module}
    (free : m.requiresChallenge = false) (passes : (answers i).authenticates = .ok true)
    (rest : Free answers (i + 1) modules) : Free answers i (m :: modules) := by
  refine ⟨List.forall_mem_cons.mpr ⟨free, rest.1⟩, fun k inside => ?_⟩
  cases k with
  | zero => exact passes
  | succ k =>
      have later := rest.2 k (Nat.lt_of_succ_lt_succ inside)
      rwa [Nat.add_assoc, Nat.add_comm 1 k] at later

theorem Fits.free_of_nil {answers : Nat → Answers} {i : Nat} {modules : List Module}
    (fits : Fits answers i modules []) : Free answers i modules := by
  generalize none : ([] : List Bytes) = passwords at fits
  induction fits with
  | done i => exact ⟨by simp, by simp⟩
  | free free passes later ih => exact Free.cons free passes (ih none)
  | asks module honest later ih => cases none

/-- Where the first challenge comes from. -/
theorem Fits.split {answers : Nat → Answers} {i : Nat} {modules : List Module} {password : Bytes}
    {passwords : List Bytes} (fits : Fits answers i modules (password :: passwords)) :
    ∃ free m rest, modules = free ++ m :: rest ∧ (∀ x ∈ free, x.requiresChallenge = false) ∧
      PasswordModule m := by
  generalize some : password :: passwords = given at fits
  induction fits with
  | done i => cases some
  | @free i m rest given free passes others ih =>
      obtain ⟨before, first, after, rfl, frees, module⟩ := ih some
      exact ⟨m :: before, first, after, rfl, List.forall_mem_cons.mpr ⟨free, frees⟩, module⟩
  | @asks i m rest password passwords module honest others ih =>
      exact ⟨[], m, rest, rfl, by simp, module⟩

theorem Fits.asked {answers : Nat → Answers} {i : Nat} {m : Module} {rest : List Module}
    {password : Bytes} {passwords : List Bytes} (module : PasswordModule m)
    (fits : Fits answers i (m :: rest) (password :: passwords)) :
    Honest m (answers i) password ∧ Fits answers (i + 1) rest passwords := by
  cases fits with
  | free free passes later => exact absurd module.requires (by simp [free])
  | asks module honest later => exact ⟨honest, later⟩

theorem Fits.drop {answers : Nat → Answers} {m : Module} {rest : List Module} {password : Bytes}
    {passwords : List Bytes} {free : List Module} (frees : ∀ x ∈ free, x.requiresChallenge = false)
    {i : Nat} (fits : Fits answers i (free ++ m :: rest) (password :: passwords)) :
    Free answers i free ∧ Fits answers (i + free.length) (m :: rest) (password :: passwords) := by
  induction free generalizing i with
  | nil => exact ⟨⟨by simp, by simp⟩, fits⟩
  | cons x free ih =>
      obtain ⟨first, others⟩ := List.forall_mem_cons.mp frees
      cases fits with
      | free _ passes later =>
          obtain ⟨before, after⟩ := ih others later
          rw [Nat.add_assoc, Nat.add_comm 1] at after
          exact ⟨before.cons first passes, after⟩
      | asks module honest later => exact absurd module.requires (by simp [first])

/-- After the authenticators that are free. -/
theorem World.drop {r : Round} {i : Nat} {free rest : List Module} {m : Module} {password : Bytes}
    {passwords : List Bytes} (frees : ∀ x ∈ free, x.requiresChallenge = false)
    (world : World r i (free ++ m :: rest) (password :: passwords)) :
    World r (i + free.length) (m :: rest) (password :: passwords) :=
  { world with fits := (world.fits.drop frees).2 }

/-- After the authenticator that asks for a password. -/
theorem World.asked {r : Round} {i : Nat} {m : Module} {rest : List Module} {password : Bytes}
    {passwords : List Bytes} (module : PasswordModule m)
    (world : World r i (m :: rest) (password :: passwords)) : World r (i + 1) rest passwords :=
  { world with fits := (world.fits.asked module).2 }

/-! ### The loop over the authenticators -/

/-- Events of a connection that goes on. -/
def Progress : Event → Prop
  | .failed _ _ | .raised _ | .verified _ => False
  | _ => True

theorem visitAll_done {o : Outside} {c : Hello} {authCaps : AuthCaps} {done : Authenticators}
    (passed : ∀ a ∈ done, a.2.passed = true) (i : Nat) (auths : Authenticators) :
    visitAll h o c authCaps i (done ++ auths) =
      (done ++ (visitAll h o c authCaps (i + done.length) auths).1,
        (visitAll h o c authCaps (i + done.length) auths).2) := by
  induction done generalizing i with
  | nil => rfl
  | cons a done ih =>
      obtain ⟨first, others⟩ := List.forall_mem_cons.mp passed
      rw [List.cons_append, visitAll, if_pos first, ih others, List.length_cons,
        Nat.add_right_comm i 1 done.length]
      rfl

/-- The authenticators that pass without a challenge, which come before others. -/
theorem visitAll_free {o : Outside} {c : Hello} {free : List Module} {i : Nat}
    (frees : Free o.answers i free) (auths : Authenticators) (authCaps : AuthCaps) :
    ∃ done events, done.length = free.length ∧ (∀ a ∈ done, a.2.passed = true) ∧
      (∀ event ∈ events, Progress event) ∧
      visitAll h o c authCaps i (makeAuthenticators free ++ auths) =
        (done ++ (visitAll h o c authCaps (i + free.length) auths).1,
          events ++ (visitAll h o c authCaps (i + free.length) auths).2.1,
          (visitAll h o c authCaps (i + free.length) auths).2.2) := by
  induction free generalizing i with
  | nil => exact ⟨[], [], rfl, by simp, by simp, rfl⟩
  | cons m free ih =>
      obtain ⟨first, others⟩ := List.forall_mem_cons.mp frees.1
      have passes : (o.answers i).authenticates = .ok true := frees.2 0 (Nat.zero_lt_succ _)
      have later : Free o.answers (i + 1) free := by
        refine ⟨others, fun k inside => ?_⟩
        have passed := frees.2 (k + 1) (Nat.succ_lt_succ inside)
        rwa [Nat.add_assoc, Nat.add_comm 1 k]
      obtain ⟨done, events, same, passed, progress, visited⟩ := ih later
      refine ⟨(m, { m.start with passed := true }) :: done, .evaluated i :: .passed i :: events,
        by simp [same], List.forall_mem_cons.mpr ⟨rfl, passed⟩, ?_, ?_⟩
      · refine List.forall_mem_cons.mpr ⟨trivial, List.forall_mem_cons.mpr ⟨trivial, progress⟩⟩
      · have one : visit h (o.answers i) c authCaps i m m.start =
            ({ m.start with passed := true }, [.evaluated i, .passed i], true) := by
          rw [visit, if_neg (by simp [first])]
          simp only [passes]
        have left : m.start.passed = false := rfl
        rw [makeAuthenticators] at visited
        rw [makeAuthenticators, List.map_cons, List.cons_append, visitAll, left, one]
        simp only [visited, List.length_cons, Nat.add_assoc, Nat.add_comm 1]
        rfl

/-- The first authenticator that starts sends its challenge, which ends the loop. -/
theorem visitAll_starts (hashed : Hashed h sd) {o : Outside} {c : Hello}
    {i : Nat} {m : Module} {password : Bytes} (module : PasswordModule m) (offers : Offers sd c)
    (honest : Honest m (o.answers i) password) (rest : List Module) (authCaps : AuthCaps) :
    ∃ s' digest, Waiting sd m s' (o.answers i).getSalt digest ∧
      visitAll h o c authCaps i (makeAuthenticators (m :: rest)) =
        ((m, s') :: makeAuthenticators rest,
          [.challenge i (o.answers i).getSalt authCaps digest sd m.prompt], false) := by
  obtain ⟨s', digest, waiting, offered⟩ :=
    offerChallenge_offers hashed module offers honest authCaps i
  refine ⟨s', digest, waiting, ?_⟩
  have left : m.start.passed = false := rfl
  have fresh : m.start.challengeSent = false := rfl
  have visited : visit h (o.answers i) c authCaps i m m.start =
      (s', [.challenge i (o.answers i).getSalt authCaps digest sd m.prompt], false) := by
    rw [visit, if_pos module.requires, fresh, offered]
    rfl
  rw [makeAuthenticators, List.map_cons, visitAll, left, visited]
  rfl

/-- After those that are free. -/
theorem visitAll_challenges (hashed : Hashed h sd) {o : Outside} {c : Hello}
    {i : Nat} {free rest : List Module} {m : Module} {password : Bytes} {passwords : List Bytes}
    (frees : ∀ x ∈ free, x.requiresChallenge = false) (module : PasswordModule m)
    (offers : Offers sd c) (fits : Fits o.answers i (free ++ m :: rest) (password :: passwords))
    (authCaps : AuthCaps) :
    ∃ done events s' digest, done.length = free.length ∧ (∀ a ∈ done, a.2.passed = true) ∧
      (∀ event ∈ events, Progress event) ∧
      Waiting sd m s' (o.answers (i + free.length)).getSalt digest ∧
      visitAll h o c authCaps i (makeAuthenticators (free ++ m :: rest)) =
        (done ++ (m, s') :: makeAuthenticators rest,
          events ++ [.challenge (i + free.length) (o.answers (i + free.length)).getSalt authCaps digest
            sd m.prompt], false) := by
  obtain ⟨before, after⟩ := fits.drop frees
  obtain ⟨s', digest, waiting, starts⟩ := visitAll_starts hashed module offers
    (after.asked module).1 rest authCaps
  obtain ⟨done, events, same, passed, progress, visited⟩ :=
    visitAll_free (h := h) (c := c) before (makeAuthenticators (m :: rest)) authCaps
  refine ⟨done, events, s', digest, same, passed, progress, waiting, ?_⟩
  rw [starts] at visited
  rw [makeAuthenticators, List.map_append]
  exact visited

/-- If all are free, the loop comes to its end. -/
theorem visitAll_ends {o : Outside} {c : Hello} {i : Nat}
    {modules : List Module} (fits : Fits o.answers i modules []) (authCaps : AuthCaps) :
    ∃ done events, (∀ event ∈ events, Progress event) ∧
      visitAll h o c authCaps i (makeAuthenticators modules) = (done, events, true) := by
  obtain ⟨done, events, -, -, progress, visited⟩ :=
    visitAll_free (h := h) (c := c) fits.free_of_nil [] authCaps
  refine ⟨done, events, progress, ?_⟩
  rw [List.append_nil] at visited
  rw [visited]
  simp [visitAll]

/-- The authenticator that waits takes the response, and the loop goes on. -/
theorem visitAll_waiting (hashed : Hashed h sd) {o : Outside} {c : Hello}
    {i : Nat} {m : Module} {s : State} {salt password : Bytes} {digest : String}
    (module : PasswordModule m) (waiting : Waiting sd m s salt digest)
    (replies : Replies h sd salt digest password c) (honest : Honest m (o.answers i) password)
    (auths : Authenticators) (authCaps : AuthCaps) :
    ∃ s', s'.passed = true ∧ visitAll h o c authCaps i ((m, s) :: auths) =
      ((m, s') :: (visitAll h o c authCaps (i + 1) auths).1,
        [.evaluated i, .guess i (some salt), .passed i] ++
          (visitAll h o c authCaps (i + 1) auths).2.1,
        (visitAll h o c authCaps (i + 1) auths).2.2) := by
  obtain ⟨s', passed, taken⟩ := takeResponse_replies hashed i waiting replies honest
  refine ⟨s', passed, ?_⟩
  have visited : visit h (o.answers i) c authCaps i m s =
      (s', [.evaluated i, .guess i (some salt), .passed i], true) := by
    rw [visit, if_pos module.requires, if_pos waiting.sent, taken]
  rw [visitAll, waiting.left, visited]
  rfl

theorem processAuth_goes {o : Outside} {c : Hello} {auths : Authenticators} {authCaps : AuthCaps}
    (encryption : o.setupEncryption = .ok (some authCaps)) :
    processAuth h o c auths =
      ((visitAll h o c authCaps 0 auths).1, (visitAll h o c authCaps 0 auths).2.1 ++
        if (visitAll h o c authCaps 0 auths).2.2 then concludeAuth o c authCaps else []) := by
  unfold processAuth
  simp only [encryption]
  obtain ⟨auths, events, finished⟩ := visitAll h o c authCaps 0 auths
  cases finished with
  | false => simp
  | true => simp

theorem verifyAuth_started {config : List Module} {o : Outside} {c : Hello} {auths : Authenticators}
    (connected : o.connected = true) (started : auths ≠ []) :
    verifyAuth h config o c auths = processAuth h o c auths := by
  cases auths with
  | nil => exact absurd rfl started
  | cons a auths => rw [verifyAuth, if_pos connected]

/-! ### The exchange -/

/-- The client answers the challenge that ends what the server does. -/
theorem exchange_challenged (hashed : Hashed h sd) {config : List Module} {r : Round}
    {e : Exchange} {c : Hello} {auths : Authenticators} {events : List Event} {i : Nat}
    {salt : Bytes} {authCaps : AuthCaps} {digest prompt : String} {password : Bytes}
    {passwords : List Bytes} (random : r.urandom 32 ≠ [])
    (verified : verifyAuth h config r.outside c e.authenticators =
      (auths, events ++ [.challenge i salt authCaps digest sd prompt]))
    (salted : salt ≠ []) (usable : Usable sd digest)
    (ready : Ready sd e.client (password :: passwords)) (rounds : List Round) :
    ∃ client response clientSalt,
      Replied h sd ⟨salt, authCaps, digest, sd, prompt⟩ password passwords e.client client response
        clientSalt ∧
      exchange h config (r :: rounds) e c =
        exchange h config rounds
          ⟨auths, e.log ++ (events ++ [.challenge i salt authCaps digest sd prompt]), client⟩
          (sendHello client response clientSalt) := by
  obtain ⟨client, response, clientSalt, replied, processed⟩ :=
    processChallenge_provides hashed random
      (show Challenged sd ⟨salt, authCaps, digest, sd, prompt⟩ from ⟨salted, usable, rfl⟩)
      ready.provides ready.able ready.known
  refine ⟨client, response, clientSalt, replied, ?_⟩
  have asked : challengeOf (events ++ [.challenge i salt authCaps digest sd prompt]) =
      some ⟨salt, authCaps, digest, sd, prompt⟩ := by
    simp [challengeOf]
  rw [exchange]
  simp only [verified, asked, processed]

theorem Replied.ready {packet : ChallengePacket} {password response clientSalt : Bytes}
    {passwords : List Bytes} {s s' : ChallengeClient} (ready : Ready sd s (password :: passwords))
    (replied : Replied h sd packet password passwords s s' response clientSalt) :
    Ready sd s' passwords where
  able := by rw [replied.settings]; exact ready.able
  chooses := by rw [replied.settings]; exact ready.chooses
  known := replied.known
  provides := replied.provides

theorem Replied.replies {salt password response clientSalt : Bytes} {authCaps : AuthCaps}
    {digest prompt : String} {passwords : List Bytes} {s s' : ChallengeClient} (real : password ≠ [])
    (replied : Replied h sd ⟨salt, authCaps, digest, sd, prompt⟩ password passwords s s' response
      clientSalt) : Replies h sd salt digest password (sendHello s' response clientSalt) := by
  have given : (sendHello s' response clientSalt).challengeClientSalt = clientSalt := by
    simp [sendHello, replied.real]
  refine ⟨rfl, real, ?_, replied.real, ?_⟩
  · rw [given]
    exact replied.client
  · rw [given]
    exact replied.computed

/-- The passwords that a client can still give are real ones. -/
theorem Provides.real {handlers : List Handler} {passwords : List Bytes}
    (provides : Provides handlers passwords) : ∀ password ∈ passwords, password ≠ [] := by
  induction provides with
  | done handlers => simp
  | skip fails rest ih => exact ih
  | give real gives rest ih => exact List.forall_mem_cons.mpr ⟨real, ih⟩

/-- The exchange waits for the response to a challenge of `m`, which is on its way. -/
structure Awaits (h : Hashes) (sd : String) (done : Authenticators) (m : Module) (rest : List Module)
    (password : Bytes) (passwords : List Bytes) (e : Exchange) (c : Hello) : Prop where
  waiting : ∃ s salt digest, Waiting sd m s salt digest ∧ Replies h sd salt digest password c ∧
    e.authenticators = done ++ (m, s) :: makeAuthenticators rest
  done : ∀ a ∈ done, a.2.passed = true
  module : PasswordModule m
  ready : Ready sd e.client passwords
  sent : e.client.passwordSent = true
  hello : ∃ response clientSalt, response ≠ [] ∧ c = sendHello e.client response clientSalt
  progress : ∀ event ∈ e.log, Progress event

theorem Replied.awaits {done authenticators : Authenticators} {m : Module} {s : State}
    {salt password response clientSalt : Bytes} {authCaps : AuthCaps}
    {digest prompt : String} {passwords : List Bytes} {client client' : ChallengeClient}
    {log : List Event}
    (replied : Replied h sd ⟨salt, authCaps, digest, sd, prompt⟩ password passwords client client'
      response clientSalt)
    (ready : Ready sd client (password :: passwords)) (waiting : Waiting sd m s salt digest)
    (passed : ∀ a ∈ done, a.2.passed = true) (module : PasswordModule m)
    (progress : ∀ event ∈ log, Progress event) (rest : List Module)
    (auths : authenticators = done ++ (m, s) :: makeAuthenticators rest) :
    Awaits h sd done m rest password passwords ⟨authenticators, log, client'⟩
      (sendHello client' response clientSalt) where
  waiting :=
    ⟨s, salt, digest, waiting,
      replied.replies (ready.provides.real password List.mem_cons_self), auths⟩
  done := passed
  module := module
  ready := replied.ready ready
  sent := replied.sent
  hello := ⟨response, clientSalt, replied.real, rfl⟩
  progress := progress

/-- The server takes the response, and goes on. -/
theorem Awaits.verifies (hashed : Hashed h sd) {done : Authenticators} {m : Module}
    {rest : List Module} {password : Bytes} {passwords : List Bytes} {e : Exchange} {c : Hello}
    (awaits : Awaits h sd done m rest password passwords e c) {r : Round}
    (world : World r done.length (m :: rest) (password :: passwords)) (config : List Module)
    {authCaps : AuthCaps} (encryption : r.outside.setupEncryption = .ok (some authCaps)) :
    ∃ s' events, s'.passed = true ∧ (∀ event ∈ events, Progress event) ∧
      verifyAuth h config r.outside c e.authenticators =
        (done ++ (m, s') ::
            (visitAll h r.outside c authCaps (done.length + 1) (makeAuthenticators rest)).1,
          events ++
            (visitAll h r.outside c authCaps (done.length + 1) (makeAuthenticators rest)).2.1 ++
            if (visitAll h r.outside c authCaps (done.length + 1) (makeAuthenticators rest)).2.2
            then concludeAuth r.outside c authCaps else []) := by
  obtain ⟨s, salt, digest, waiting, replies, auths⟩ := awaits.waiting
  obtain ⟨s', passed, visited⟩ := visitAll_waiting hashed awaits.module waiting replies
    (world.fits.asked awaits.module).1 (makeAuthenticators rest) authCaps
  refine ⟨s', [.evaluated done.length, .guess done.length (some salt), .passed done.length], passed,
    ?_, ?_⟩
  · intro event member
    simp only [List.mem_cons, List.not_mem_nil, or_false] at member
    rcases member with rfl | rfl | rfl <;> trivial
  · rw [auths, verifyAuth_started world.connected (by simp), processAuth_goes encryption]
    rw [visitAll_done awaits.done, Nat.zero_add, visited]

/-- The events after which a connection is let in. -/
def LetIn (log : List Event) (commandRequest : List String) : Prop :=
  ∃ events, log = events ++ [.verified commandRequest] ∧ ∀ event ∈ events, Progress event

theorem exchange_verified {config : List Module} {r : Round} {rounds : List Round} {e : Exchange}
    {c : Hello} {auths : Authenticators} {events : List Event} {commandRequest : List String}
    (verified : verifyAuth h config r.outside c e.authenticators =
      (auths, events ++ [.verified commandRequest]))
    (past : ∀ event ∈ e.log, Progress event) (progress : ∀ event ∈ events, Progress event) :
    ∃ e', exchange h config (r :: rounds) e c = (e', .over) ∧ LetIn e'.log commandRequest ∧
      e'.client = e.client := by
  refine ⟨⟨auths, e.log ++ (events ++ [.verified commandRequest]), e.client⟩, ?_,
    ⟨e.log ++ events, (List.append_assoc _ _ _).symm, List.forall_mem_append.mpr ⟨past, progress⟩⟩,
    rfl⟩
  have silent : challengeOf (events ++ [.verified commandRequest]) = none := by simp [challengeOf]
  rw [exchange]
  simp only [verified, silent]

/-- From one challenge to the next, or to the end: one hello for each password that is left, and
one more. -/
theorem exchange_awaits (hashed : Hashed h sd) {config : List Module} {commandRequest : List String}
    {passwords : List Bytes} {rest : List Module} {m : Module} {done : Authenticators}
    {password : Bytes} {rounds : List Round} {e : Exchange} {c : Hello}
    (long : passwords.length < rounds.length)
    (worlds : ∀ r ∈ rounds, World r done.length (m :: rest) (password :: passwords))
    (awaits : Awaits h sd done m rest password passwords e c)
    (command : e.client.settings.commandRequest = commandRequest) :
    ∃ e', exchange h config rounds e c = (e', .over) ∧ LetIn e'.log commandRequest ∧
      e'.client.passwordSent = true := by
  induction passwords generalizing rest m done password rounds e c with
  | nil =>
      obtain ⟨r, rounds, rfl⟩ := List.exists_cons_of_length_pos long
      have world := worlds r List.mem_cons_self
      obtain ⟨authCaps, encryption⟩ := world.encryption
      obtain ⟨response, clientSalt, real, hello⟩ := awaits.hello
      obtain ⟨s', events, -, progress, verified⟩ := awaits.verifies hashed world config encryption
      obtain ⟨auths, later, more, ends⟩ := visitAll_ends (h := h) (c := c)
        (world.fits.asked awaits.module).2 authCaps
      have concluded : concludeAuth r.outside c authCaps = [.verified commandRequest] := by
        rw [concludeAuth, hello]
        simp [sendHello, real, command]
      simp only [ends, concluded, if_true] at verified
      obtain ⟨e', goes, letIn, same⟩ := exchange_verified verified awaits.progress
        (List.forall_mem_append.mpr ⟨progress, more⟩)
      exact ⟨e', goes, letIn, by rw [same]; exact awaits.sent⟩
  | cons next passwords ih =>
      obtain ⟨r, rounds, rfl⟩ := List.exists_cons_of_length_pos (Nat.zero_lt_of_lt long)
      have world := worlds r List.mem_cons_self
      obtain ⟨authCaps, encryption⟩ := world.encryption
      obtain ⟨response, clientSalt, real, hello⟩ := awaits.hello
      obtain ⟨s', events, passed, progress, verified⟩ :=
        awaits.verifies hashed world config encryption
      have fits := (world.fits.asked awaits.module).2
      obtain ⟨free, m', rest, rfl, frees, module⟩ := fits.split
      have offers : Offers sd c := by
        rw [hello]
        exact awaits.ready.offers hashed response clientSalt
      obtain ⟨frees', later, s'', digest, size, freed, more, waiting, visited⟩ :=
        visitAll_challenges hashed frees module offers fits authCaps
      simp only [visited, Bool.false_eq_true, if_false, List.append_nil, ← List.append_assoc] at verified
      obtain ⟨client, response', clientSalt', replied, goes⟩ :=
        exchange_challenged hashed world.random verified waiting.salted.2 waiting.usable
          awaits.ready rounds
      rw [goes]
      have events' : ∀ event ∈ e.log ++ (events ++ later ++ [.challenge (done.length + 1 + free.length)
          (r.outside.answers (done.length + 1 + free.length)).getSalt authCaps digest sd m'.prompt]),
          Progress event :=
        List.forall_mem_append.mpr ⟨awaits.progress, List.forall_mem_append.mpr
          ⟨List.forall_mem_append.mpr ⟨progress, more⟩, List.forall_mem_singleton.mpr trivial⟩⟩
      have passed' : ∀ a ∈ done ++ (m, s') :: frees', a.2.passed = true :=
        List.forall_mem_append.mpr ⟨awaits.done, List.forall_mem_cons.mpr ⟨passed, freed⟩⟩
      have command' : client.settings.commandRequest = commandRequest := by
        rw [replied.settings]
        exact command
      have place : (done ++ (m, s') :: frees').length = done.length + 1 + free.length := by
        rw [List.length_append, List.length_cons, size]
        omega
      refine ih (Nat.lt_of_succ_lt_succ long) (fun x member => ?_)
        (replied.awaits awaits.ready waiting passed' module events' rest (by simp)) command'
      rw [place]
      exact ((worlds x (List.mem_cons_of_mem _ member)).asked awaits.module).drop frees

/-- A client that has a password for every authenticator that asks for one is let in, with nothing
going wrong on the way, and stays. -/
theorem handshake_completes (hashing : ∀ x ∈ strongDigests, Hashed h x) {config : List Module}
    {passwords : List Bytes} {client : ChallengeClient} {rounds : List Round}
    (able : Able client.settings) (known : Handlers client.challengeHandlers)
    (provides : Provides client.challengeHandlers passwords)
    (needed : client.settings.hasPassword = true → passwords ≠ [])
    (worlds : ∀ r ∈ rounds, World r 0 config passwords) (long : passwords.length < rounds.length) :
    ∃ e, exchange h config rounds ⟨[], [], client⟩ (sendHello client [] []) = (e, .over) ∧
      LetIn e.log client.settings.commandRequest ∧ parseServerCapabilities e.client = true := by
  obtain ⟨sd, strong, member, chosen⟩ := chooseDigest_strong able.strong
  have hashed := hashing sd strong
  have ready : Ready sd client passwords := ⟨able, ⟨member, chosen⟩, known, provides⟩
  obtain ⟨r, rounds, rfl⟩ := List.exists_cons_of_length_pos (Nat.zero_lt_of_lt long)
  have world := worlds r List.mem_cons_self
  obtain ⟨authCaps, encryption⟩ := world.encryption
  have processed : verifyAuth h config r.outside (sendHello client [] []) [] =
      processAuth h r.outside (sendHello client [] []) (makeAuthenticators config) := by
    unfold verifyAuth
    rw [if_pos world.connected]
    simp only [world.construct]
  rw [processAuth_goes encryption] at processed
  cases passwords with
  | nil =>
      obtain ⟨auths, events, progress, ends⟩ := visitAll_ends (h := h)
        (c := sendHello client [] []) world.fits authCaps
      have none : client.settings.hasPassword = false := by
        rw [Bool.eq_false_iff]
        intro given
        exact needed given rfl
      have concluded : concludeAuth r.outside (sendHello client [] []) authCaps =
          [.verified client.settings.commandRequest] := by
        simp [concludeAuth, sendHello, none]
      simp only [ends, concluded, if_true] at processed
      obtain ⟨e, goes, letIn, same⟩ := exchange_verified (e := ⟨[], [], client⟩) processed (by simp)
        progress
      refine ⟨e, goes, letIn, ?_⟩
      simp [parseServerCapabilities, same, none]
  | cons password passwords =>
      obtain ⟨free, m, rest, rfl, frees, module⟩ := world.fits.split
      obtain ⟨done, events, s, digest, size, passed, progress, waiting, visited⟩ :=
        visitAll_challenges hashed frees module (ready.offers hashed [] []) world.fits authCaps
      simp only [visited, Bool.false_eq_true, if_false, List.append_nil] at processed
      obtain ⟨client', response, clientSalt, replied, goes⟩ :=
        exchange_challenged (e := ⟨[], [], client⟩) hashed world.random processed waiting.salted.2
          waiting.usable ready rounds
      rw [goes]
      have events' : ∀ event ∈ ([] : List Event) ++ (events ++ [.challenge (0 + free.length)
          (r.outside.answers (0 + free.length)).getSalt authCaps digest sd m.prompt]),
          Progress event := by
        rw [List.nil_append]
        exact List.forall_mem_append.mpr ⟨progress, List.forall_mem_singleton.mpr trivial⟩
      have awaits := replied.awaits ready waiting passed module events' rest
        (Eq.refl (done ++ (m, s) :: makeAuthenticators rest))
      obtain ⟨e, finishes, letIn, sent⟩ := exchange_awaits hashed (Nat.lt_of_succ_lt_succ long)
        (fun x member => by
          have after := (worlds x (List.mem_cons_of_mem _ member)).drop frees
          rwa [Nat.zero_add, ← size] at after)
        awaits (congrArg Settings.commandRequest replied.settings)
      refine ⟨e, finishes, letIn, ?_⟩
      simp [parseServerCapabilities, sent]

/-! ### Two passwords -/

/-- A module that needs no challenge. -/
def freeModule : Module where
  name := "none"
  prompt := ""
  requiresChallenge := false
  checkMethod := .default
  records := getChallenge_records
  keepsPassed := getChallenge_keepsPassed

/-- A module that has to see the password. -/
def pamModule : Module where
  name := "pam"
  prompt := "password"
  requiresChallenge := true
  checkMethod := .default
  getChallenge := getXorChallenge
  records := getXorChallenge_records
  keepsPassed := getXorChallenge_keepsPassed

/-- A client on the host of the server, with two passwords, one of them from the second file. -/
def twoPasswords : ChallengeClient where
  settings :=
    { hasPassword := true, hmacDigests := ["hmac+sha512"], des := false, sendingEncrypted := false,
      encryption := false, localDisplay := true, allowUnencryptedPasswords := false,
      allowLocalhostPasswords := true, setServerEncryption := fun _ => false,
      commandRequest := ["start"] }
  challengeHandlers :=
    [⟨"", fun _ _ _ => .value (.password [3])⟩, ⟨"", fun _ _ _ => .raised⟩,
      ⟨"", fun _ _ _ => .value (.password [5])⟩]
  passwordSent := false

def openRound : Round := ⟨openConnection true, fun length => List.replicate length 1⟩

theorem handshake_completes_two :
    ∃ e, exchange plainHashes [freeModule, passwordModule, pamModule]
        [openRound, openRound, openRound] ⟨[], [], twoPasswords⟩ (sendHello twoPasswords [] []) =
          (e, .over) ∧
      LetIn e.log ["start"] ∧ parseServerCapabilities e.client = true := by
  have hashing : ∀ x ∈ strongDigests, Hashed plainHashes x := by
    intro x known
    refine ⟨known, fun password salt given _ => ⟨password ++ salt, ?_, rfl⟩⟩
    simp [given]
  have fits : Fits openRound.outside.answers 0 [freeModule, passwordModule, pamModule] [[3], [5]] := by
    refine .free rfl rfl (.asks ⟨rfl, rfl, .inl ⟨rfl, rfl⟩⟩ ⟨by decide, ?_, ?_, fun _ => rfl⟩
      (.asks ⟨rfl, rfl, .inr ⟨rfl, .inr rfl⟩⟩ ⟨by decide, ?_, ?_, fun _ => rfl⟩ (.done 3)))
    · intro _
      exact List.mem_cons_self
    · intro _
      rfl
    · intro hmac
      cases hmac
    · intro _
      rfl
  have world : World openRound 0 [freeModule, passwordModule, pamModule] [[3], [5]] :=
    ⟨rfl, rfl, ⟨[], rfl⟩, fits, by decide⟩
  have provides : Provides twoPasswords.challengeHandlers [[3], [5]] :=
    .give (by decide) (fun _ _ _ => rfl)
      (.skip (fun _ _ _ => .inl rfl) (.give (by decide) (fun _ _ _ => rfl) (.done [])))
  refine handshake_completes hashing ⟨.inl rfl, ?_, ?_⟩ ?_ provides ?_ ?_ (by decide)
  · intro encrypted
    cases encrypted
  · exact ⟨"hmac+sha512", by decide, by decide⟩
  · intro handler member
    simp only [twoPasswords, List.mem_cons, List.not_mem_nil, or_false] at member
    rcases member with rfl | rfl | rfl <;> exact .inl rfl
  · intro _
    decide
  · intro r member
    simp only [List.mem_cons, List.not_mem_nil, or_false] at member
    rcases member with rfl | rfl | rfl <;> exact world

end Catlink.Challenge
