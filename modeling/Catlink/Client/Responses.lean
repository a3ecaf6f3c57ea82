import Catlink.Client.Challenge
import Mathlib.Tactic

/-! A challenge of the server, and the response of a client that has the password. -/

namespace Catlink.Challenge

open Auth Server

variable {h : Hashes} {hmacs : List String} {sd : String}

/-! ### Digests -/

def strongDigests : List String := ["hmac+sha512", "hmac+sha384", "hmac+sha256", "hmac+sha224"]

/-- The digests that say which handler they are for. -/
def tokenDigests : List String := ["kerberos", "gss", "u2f"]

/-- Only the strong digests of a list decide which one is chosen, if there is one. -/
theorem chooseDigest_strong (strong : ∃ x ∈ strongDigests, x ∈ hmacs) :
    ∃ sd ∈ strongDigests, sd ∈ hmacs ∧ ∀ options : List String,
      (∀ x ∈ strongDigests, x ∈ options ↔ x ∈ hmacs) → chooseDigest options = .ok sd := by
  have nonempty {options : List String} (same : ∀ x ∈ strongDigests, x ∈ options ↔ x ∈ hmacs) :
      options ≠ [] := by
    rintro rfl
    obtain ⟨x, known, member⟩ := strong
    exact List.not_mem_nil ((same x known).mpr member)
  by_cases one : "hmac+sha512" ∈ hmacs
  · refine ⟨"hmac+sha512", by decide, one, fun options same => ?_⟩
    rw [chooseDigest, if_neg (nonempty same), if_pos ((same _ (by decide)).mpr one)]
  by_cases two : "hmac+sha384" ∈ hmacs
  · refine ⟨"hmac+sha384", by decide, two, fun options same => ?_⟩
    rw [chooseDigest, if_neg (nonempty same), if_neg (one ∘ (same _ (by decide)).mp),
      if_pos ((same _ (by decide)).mpr two)]
  by_cases three : "hmac+sha256" ∈ hmacs
  · refine ⟨"hmac+sha256", by decide, three, fun options same => ?_⟩
    rw [chooseDigest, if_neg (nonempty same), if_neg (one ∘ (same _ (by decide)).mp),
      if_neg (two ∘ (same _ (by decide)).mp), if_pos ((same _ (by decide)).mpr three)]
  have four : "hmac+sha224" ∈ hmacs := by
    obtain ⟨x, known, member⟩ := strong
    simp only [strongDigests, List.mem_cons, List.not_mem_nil, or_false] at known
    rcases known with rfl | rfl | rfl | rfl
    · exact absurd member one
    · exact absurd member two
    · exact absurd member three
    · exact member
  refine ⟨"hmac+sha224", by decide, four, fun options same => ?_⟩
  rw [chooseDigest, if_neg (nonempty same), if_neg (one ∘ (same _ (by decide)).mp),
    if_neg (two ∘ (same _ (by decide)).mp), if_neg (three ∘ (same _ (by decide)).mp),
    if_pos ((same _ (by decide)).mpr four)]

/-- The handlers are for passwords, or for the digests of tokens. -/
def Handlers (handlers : List Handler) : Prop :=
  ∀ handler ∈ handlers, handler.digest = "" ∨ handler.digest ∈ tokenDigests

/-- The client's digests are those of its settings, and perhaps some of its handlers. -/
theorem mem_digests {s : ChallengeClient} (handlers : Handlers s.challengeHandlers) {x : String} :
    (x ∈ s.settings.digests → x ∈ s.digests) ∧
      (x ∈ s.digests → x ∈ s.settings.digests ∨ x ∈ tokenDigests) := by
  unfold ChallengeClient.digests
  unfold Handlers at handlers
  generalize s.settings.digests = digests
  generalize s.challengeHandlers = rest at handlers
  induction rest generalizing digests with
  | nil => exact ⟨id, .inl⟩
  | cons handler rest ih =>
      obtain ⟨first, others⟩ := List.forall_mem_cons.mp handlers
      rw [List.foldl_cons]
      split
      · exact ih digests others
      · next new =>
          rw [not_or] at new
          obtain ⟨keeps, only⟩ := ih (digests ++ [handler.digest]) others
          constructor
          · intro member
            exact keeps (List.mem_append_left _ member)
          · intro member
            rcases only member with old | token
            · rw [List.mem_append, List.mem_singleton] at old
              rcases old with old | rfl
              · exact .inl old
              · exact .inr (first.resolve_left new.1)
            · exact .inr token

/-- The strong digests are for passwords, and no others. -/
theorem strong_named : ∀ x ∈ strongDigests, digestType x = x ∧ x ≠ "xor" ∧ x ≠ "des" ∧ x ≠ "" ∧
    x ∉ tokenDigests ∧ x ∉ ["xor", "kerberos", "gss", "keycloak"] := by
  decide

theorem mem_strong {s : ChallengeClient} (handlers : Handlers s.challengeHandlers) {x : String}
    (known : x ∈ strongDigests) : x ∈ s.digests ↔ x ∈ s.settings.hmacDigests := by
  obtain ⟨keeps, only⟩ := mem_digests handlers (x := x)
  obtain ⟨-, notXor, notDes, -, notToken, -⟩ := strong_named x known
  have kept : x ∈ s.settings.digests ↔ x ∈ s.settings.hmacDigests := by
    unfold Settings.digests
    split
    · simp [notXor, notDes]
    · simp [notXor]
  rw [← kept]
  exact ⟨fun member => (only member).resolve_right notToken, keeps⟩

theorem xor_mem_digests {s : ChallengeClient} (handlers : Handlers s.challengeHandlers) :
    "xor" ∈ s.digests := by
  refine (mem_digests handlers).1 ?_
  unfold Settings.digests
  exact List.mem_cons_self

/-- The digests of a challenge to an honest client: the strong one, or "xor". -/
def Usable (sd digest : String) : Prop := digest = sd ∨ digest = "xor"

/-- The hashes are there for a digest. -/
def Hashed (h : Hashes) (sd : String) : Prop :=
  sd ∈ strongDigests ∧ ∀ password salt, password ≠ [] → salt ≠ [] →
    ∃ digest, digest ≠ [] ∧ h.hmac sd password salt = some digest

theorem Hashed.named (hashed : Hashed h sd) :
    digestType sd = sd ∧ sd ≠ "xor" ∧ sd ≠ "des" ∧ sd ≠ "" ∧ sd ∉ tokenDigests ∧
      sd ∉ ["xor", "kerberos", "gss", "keycloak"] :=
  strong_named sd hashed.1

theorem digestType_usable (hashed : Hashed h sd) {digest : String} (usable : Usable sd digest) :
    digestType digest = digest := by
  rcases usable with rfl | rfl
  · exact hashed.named.1
  · decide

theorem gendigest_hmac (hashed : Hashed h sd) {password salt : Bytes} (given : password ≠ [])
    (salted : salt ≠ []) : ∃ digest, digest ≠ [] ∧ gendigest h sd password salt = .ok digest := by
  obtain ⟨-, -, notDes, -, -, notXor⟩ := hashed.named
  obtain ⟨digest, real, computed⟩ := hashed.2 password salt given salted
  refine ⟨digest, real, ?_⟩
  rw [gendigest, if_neg (not_or.mpr ⟨given, salted⟩), if_neg notDes, if_neg notXor, computed]
  rfl

/-- The `xor` digest of some data -/
def xorWith (data salt : Bytes) : Bytes :=
  List.zipWith (fun a b => a ^^^ b) data (padTo data.length salt)

theorem padTo_length (size : Nat) (data : Bytes) : (padTo size data).length = size := by
  simp only [padTo, List.length_take, List.length_append, List.length_replicate]
  omega

theorem xorWith_length (data salt : Bytes) : (xorWith data salt).length = data.length := by
  simp [xorWith, padTo_length]

theorem xorWith_xorWith (data salt : Bytes) : xorWith (xorWith data salt) salt = data := by
  unfold xorWith
  rw [List.length_zipWith, padTo_length, Nat.min_self]
  have long : data.length ≤ (padTo data.length salt).length := le_of_eq (padTo_length _ _).symm
  generalize padTo data.length salt = mask at long
  induction data generalizing mask with
  | nil => simp
  | cons a data ih =>
      cases mask with
      | nil => simp at long
      | cons b mask =>
          rw [List.zipWith_cons_cons, List.zipWith_cons_cons,
            ih mask (Nat.le_of_succ_le_succ (by simpa using long)), UInt8.xor_assoc, UInt8.xor_self,
            UInt8.xor_zero]

theorem gendigest_xor {password salt : Bytes} (given : password ≠ []) (salted : salt ≠ []) :
    gendigest h "xor" password salt = .ok (xorWith password salt) := by
  rw [gendigest, if_neg (not_or.mpr ⟨given, salted⟩), if_neg (by decide), if_pos (by decide)]
  rfl

/-- Every usable digest of a password has a value. -/
theorem gendigest_usable (hashed : Hashed h sd) {digest : String} (usable : Usable sd digest)
    {password salt : Bytes} (given : password ≠ []) (salted : salt ≠ []) :
    ∃ value, value ≠ [] ∧ gendigest h digest password salt = .ok value := by
  rcases usable with rfl | rfl
  · exact gendigest_hmac hashed given salted
  · refine ⟨_, ?_, gendigest_xor given salted⟩
    intro empty
    have size := xorWith_length password salt
    rw [empty] at size
    exact given (List.length_eq_zero_iff.mp size.symm)

/-! ### The server -/

/-- `req_xor` and `do_get_challenge(["xor"])` -/
def getXorChallenge (salt : Bytes) (s : State) (digests : List String) :
    State × Except Exn (Bytes × String) :=
  if "xor" ∈ digests then doGetChallenge salt s ["xor"]
  else (s, .error (.valueError "authenticator requires the 'xor' digest"))

theorem getXorChallenge_records (salt : Bytes) (s : State) (digests : List String) (s' : State)
    (challenge : Bytes × String) (returned : getXorChallenge salt s digests = (s', .ok challenge)) :
    challenge = ([], "") ∨ s'.challengeSent = true := by
  unfold getXorChallenge at returned
  split at returned
  · cases returned
    exact .inr rfl
  · cases returned

theorem getXorChallenge_keepsPassed (salt : Bytes) (s : State) (digests : List String) :
    (getXorChallenge salt s digests).1.passed = s.passed := by
  unfold getXorChallenge
  split <;> rfl

/-- A module with passwords: it takes every digest, or it has to see the password itself. -/
structure PasswordModule (m : Module) : Prop where
  requires : m.requiresChallenge = true
  start : m.initialSalt = none
  challenge : m.getChallenge = getChallenge ∧ m.checkMethod = .hmac ∨
    m.getChallenge = getXorChallenge ∧ (m.checkMethod = .hmac ∨ m.checkMethod = .default)

/-- What the world answers to an authenticator with this password. -/
structure Honest (m : Module) (o : Answers) (password : Bytes) : Prop where
  salted : o.getSalt ≠ []
  known : m.checkMethod = .hmac → password ∈ o.getPasswords
  checked : m.checkMethod = .default → o.check password = .ok true
  fresh : ∀ salt, o.usedSalt salt = false

/-- An authenticator that has sent its challenge. -/
structure Waiting (sd : String) (m : Module) (s : State) (salt : Bytes) (digest : String) : Prop where
  sent : s.challengeSent = true
  left : s.passed = false
  salted : s.salt = some salt ∧ salt ≠ []
  chosen : s.digest = some digest
  saltDigest : s.saltDigest = some sd
  usable : Usable sd digest
  method : m.checkMethod = .hmac ∨ m.checkMethod = .default ∧ digest = "xor"

/-- The hello that answers the challenge with a password. -/
structure Replies (h : Hashes) (sd : String) (salt : Bytes) (digest : String) (password : Bytes)
    (c : Hello) : Prop where
  present : c.present = true
  real : password ≠ []
  client : c.challengeClientSalt ≠ []
  response : c.challengeResponse ≠ []
  computed : ∃ value, value ≠ [] ∧ gendigest h sd c.challengeClientSalt salt = .ok value ∧
    gendigest h digest password value = .ok c.challengeResponse

/-- The right password is found, whatever the others are. -/
theorem verifyPasswords_mem (hashed : Hashed h sd) {digest : String} (usable : Usable sd digest)
    {password salt response : Bytes} {passwords : List Bytes} (real : password ≠ [])
    (salted : salt ≠ []) (some : response ≠ [])
    (computed : gendigest h digest password salt = .ok response) (member : password ∈ passwords) :
    verifyPasswords h digest salt response passwords = .ok true := by
  have named : digest ≠ "" := by
    rcases usable with rfl | rfl
    · exact hashed.named.2.2.2.1
    · decide
  have verifies (x : Bytes) : ∃ verified, verifyDigest h digest x salt response = .ok verified := by
    by_cases empty : x = []
    · exact ⟨false, by rw [verifyDigest, if_pos (.inr (.inl empty))]⟩
    · obtain ⟨value, -, equal⟩ := gendigest_usable hashed usable empty salted
      refine ⟨value == response, ?_⟩
      rw [verifyDigest, if_neg (by simp [named, empty, salted, some]), equal]
      rfl
  have right : verifyDigest h digest password salt response = .ok true := by
    rw [verifyDigest, if_neg (by simp [named, real, salted, some]), computed]
    simp [bind, Except.bind]
  induction passwords with
  | nil => exact absurd member List.not_mem_nil
  | cons x passwords ih =>
      obtain ⟨verified, equal⟩ := verifies x
      rw [verifyPasswords, equal]
      cases verified with
      | true => rfl
      | false =>
          rcases List.mem_cons.mp member with rfl | later
          · rw [right] at equal
            cases equal
          · exact ih later

theorem takeResponse_replies (hashed : Hashed h sd) {m : Module} {s : State} {salt password : Bytes}
    {digest : String} {c : Hello} {o : Answers} (i : Nat) (waiting : Waiting sd m s salt digest)
    (replies : Replies h sd salt digest password c) (honest : Honest m o password) :
    ∃ s', s'.passed = true ∧
      takeResponse h o c i m s = (s', [.evaluated i, .guess i (some salt), .passed i], true) := by
  obtain ⟨value, used, salts, computed⟩ := replies.computed
  have valid : validateCaps s c = true := by
    simp [validateCaps, waiting.left, waiting.sent, replies.present, replies.response]
  have cleared : getResponseSalt h o.usedSalt s c.challengeClientSalt =
      ({ s with salt := none }, .ok value) := by
    simp [getResponseSalt, waiting.saltDigest, waiting.salted.1, salts, honest.fresh]
  have checks : authenticateCheck h m.checkMethod o s c =
      ⟨{ s with salt := none }, [some salt], .ok true⟩ := by
    rcases waiting.method with hmac | ⟨default, xor⟩
    · have found := verifyPasswords_mem hashed waiting.usable replies.real used replies.response
        computed (honest.known hmac)
      rw [hmac, authenticateCheck, authenticateHmac, if_neg (by simp [waiting.salted]), cleared]
      simp [waiting.chosen, waiting.salted.1, found]
    · subst xor
      rw [gendigest_xor replies.real used, Except.ok.injEq] at computed
      have back : gendigest h "xor" c.challengeResponse value = .ok password := by
        rw [gendigest_xor replies.response used, ← computed, xorWith_xorWith]
      have unxored : unxorResponse h o.usedSalt s c = ({ s with salt := none }, .ok password) := by
        rw [unxorResponse, if_neg (by simp [waiting.salted]), cleared]
        simp [back]
      rw [default, authenticateCheck, defaultAuthenticateCheck, unxored]
      simp [honest.checked default, waiting.salted.1]
  refine ⟨{ s with salt := none, passed := true }, rfl, ?_⟩
  have notAllow : m.checkMethod ≠ .allow := by
    rcases waiting.method with hmac | ⟨default, -⟩
    · rw [hmac]
      decide
    · rw [default]
      decide
  have passes : authenticate h m.checkMethod o s c =
      ⟨{ s with salt := none, passed := true }, [some salt], .ok true⟩ := by
    unfold authenticate
    split
    · next allow => exact absurd allow notAllow
    · simp [doAuthenticate, valid, checks]
  rw [takeResponse, passes]
  rfl

/-- A hello of a client that offers the strong digest, and "xor". -/
structure Offers (sd : String) (c : Hello) : Prop where
  digest : chooseDigest c.digest = .ok sd
  strong : sd ∈ c.digest
  xor : "xor" ∈ c.digest
  saltDigest : chooseDigest c.saltDigest = .ok sd

/-- A module that starts sends its challenge. -/
theorem offerChallenge_offers (hashed : Hashed h sd) {m : Module} {c : Hello} {o : Answers}
    {password : Bytes} (module : PasswordModule m) (offers : Offers sd c)
    (honest : Honest m o password) (authCaps : AuthCaps) (i : Nat) :
    ∃ s' digest, Waiting sd m s' o.getSalt digest ∧
      offerChallenge o c authCaps i m m.start =
        (s', [.challenge i o.getSalt authCaps digest sd m.prompt]) := by
  obtain ⟨-, notXor, notDes, -⟩ := hashed.named
  have unset : m.start.salt = none := module.start
  let waits (digest : String) : State :=
    { m.start with salt := some o.getSalt, digest := some digest, challengeSent := true,
                   saltDigest := some sd }
  have offered : ∃ digest, Usable sd digest ∧
      (m.checkMethod = .hmac ∨ m.checkMethod = .default ∧ digest = "xor") ∧
      m.getChallenge o.getSalt m.start c.digest =
        ({ m.start with salt := some o.getSalt, digest := some digest, challengeSent := true },
          .ok (o.getSalt, digest)) := by
    rcases module.challenge with ⟨base, hmac⟩ | ⟨own, method⟩
    · refine ⟨sd, .inl rfl, .inl hmac, ?_⟩
      rw [base, getChallenge, if_neg (by simp [unset]), doGetChallenge, offers.digest]
    · refine ⟨"xor", .inr rfl, method.imp_right (⟨·, rfl⟩), ?_⟩
      rw [own, getXorChallenge, if_pos offers.xor]
      rfl
  obtain ⟨digest, usable, method, returned⟩ := offered
  refine ⟨waits digest, digest, ⟨rfl, rfl, ⟨rfl, honest.salted⟩, rfl, rfl, usable, method⟩, ?_⟩
  have supported : digestType digest ∈ c.digest := by
    rw [digestType_usable hashed usable]
    rcases usable with rfl | rfl
    · exact offers.strong
    · exact offers.xor
  rw [digestType] at supported
  have secure : sd ∉ ["xor", "des"] := by simp [notXor, notDes]
  unfold offerChallenge
  rw [returned]
  simp only [honest.salted, false_and, if_false]
  rw [if_neg (not_not_intro supported)]
  simp only [chooseSaltDigest, offers.saltDigest]
  rw [if_neg secure]

/-! ### The client -/

/-- The handlers have these passwords, in this order. -/
inductive Provides : List Handler → List Bytes → Prop
  | done (handlers : List Handler) : Provides handlers []
  /-- The handler has none. -/
  | skip {handler : Handler} {handlers : List Handler} {passwords : List Bytes}
      (fails : ∀ salt digest prompt, handler.handle salt digest prompt = .raised ∨
        handler.handle salt digest prompt = .value (.password []))
      (rest : Provides handlers passwords) : Provides (handler :: handlers) passwords
  | give {handler : Handler} {handlers : List Handler} {password : Bytes} {passwords : List Bytes}
      (real : password ≠ [])
      (gives : ∀ salt digest prompt,
        handler.handle salt digest prompt = .value (.password password))
      (rest : Provides handlers passwords) : Provides (handler :: handlers) (password :: passwords)

/-- The settings of a client that may answer these challenges. -/
structure Able (s : Settings) : Prop where
  xor : (s.localDisplay && s.allowLocalhostPasswords) = true ∨ s.sendingEncrypted = true ∨
    s.encryption = true ∨ s.allowUnencryptedPasswords = true
  encrypts : s.encryption = true → ∀ authCaps, s.setServerEncryption authCaps = true
  strong : ∃ x ∈ strongDigests, x ∈ s.hmacDigests

/-- A challenge that an honest server sends. -/
structure Challenged (sd : String) (packet : ChallengePacket) : Prop where
  salted : packet.serverSalt ≠ []
  usable : Usable sd packet.digest
  saltDigest : packet.saltDigest = sd

theorem Usable.plain (hashed : Hashed h sd) {digest : String} (usable : Usable sd digest) :
    digest ≠ "des" ∧ digest ≠ "" ∧ digest ∉ tokenDigests := by
  obtain ⟨-, -, notDes, notEmpty, notToken, -⟩ := hashed.named
  rcases usable with rfl | rfl
  · exact ⟨notDes, notEmpty, notToken⟩
  · decide

theorem validateChallengePacket_able (hashed : Hashed h sd) {s : Settings} {packet : ChallengePacket}
    (able : Able s) (challenged : Challenged sd packet) : validateChallengePacket s packet = none := by
  obtain ⟨-, notXor, notDes, -⟩ := hashed.named
  have modern : ¬(packet.saltDigest = "xor" ∨ packet.saltDigest = "des") := by
    rw [challenged.saltDigest]
    exact not_or.mpr ⟨notXor, notDes⟩
  unfold validateChallengePacket
  simp only [if_neg modern]
  split
  · split
    · rfl
    · next remote =>
        rw [if_neg]
        rcases able.xor with near | near | near | near
        · exact absurd near remote
        all_goals simp [near]
  · rfl

theorem sendPassword_usable (hashed : Hashed h sd) {urandom : Nat → Bytes} {packet : ChallengePacket}
    {password : Bytes} (real : password ≠ []) (random : urandom 32 ≠ [])
    (challenged : Challenged sd packet) :
    ∃ value response, value ≠ [] ∧ response ≠ [] ∧
      gendigest h sd (urandom 32) packet.serverSalt = .ok value ∧
      gendigest h packet.digest password value = .ok response ∧
      sendPassword h urandom packet password = .ok (.reply response (urandom 32)) := by
  obtain ⟨-, notXor, -⟩ := hashed.named
  obtain ⟨value, used, salts⟩ := gendigest_hmac hashed random challenged.salted
  obtain ⟨response, some, computed⟩ := gendigest_usable hashed challenged.usable real used
  refine ⟨value, response, used, some, salts, computed, ?_⟩
  have notDes := (challenged.usable.plain hashed).1
  have modern : packet.saltDigest ≠ "xor" := by rwa [challenged.saltDigest]
  have salt : responseSalt h urandom packet = .ok (value, urandom 32) := by
    unfold responseSalt
    rw [digestType_usable hashed challenged.usable, if_neg notDes]
    simp only [modern, false_and, if_false]
    rw [challenged.saltDigest]
    change (gendigest h sd (urandom 32) packet.serverSalt >>= _) = _
    rw [salts]
    rfl
  unfold sendPassword
  rw [salt, digestType_usable hashed challenged.usable]
  change (gendigest h packet.digest password value >>= _) = _
  rw [computed]
  simp [bind, Except.bind, some]

theorem challengeHandlerIndex_usable (hashed : Hashed h sd) {digest : String}
    (usable : Usable sd digest) {handlers : List Handler} (known : Handlers handlers) :
    challengeHandlerIndex digest handlers = 0 := by
  obtain ⟨-, notEmpty, notToken⟩ := usable.plain hashed
  unfold challengeHandlerIndex
  rw [digestType_usable hashed usable, List.findIdx?_eq_none_iff.mpr]
  · rfl
  · intro handler member
    rw [beq_eq_false_iff_ne]
    rintro rfl
    rcases known handler member with empty | token
    · exact notEmpty empty
    · exact notToken token

/-- What the client still has after a challenge, and what it has sent. -/
structure Replied (h : Hashes) (sd : String) (packet : ChallengePacket) (password : Bytes)
    (passwords : List Bytes) (s s' : ChallengeClient) (response clientSalt : Bytes) : Prop where
  settings : s'.settings = s.settings
  known : Handlers s'.challengeHandlers
  provides : Provides s'.challengeHandlers passwords
  sent : s'.passwordSent = true
  client : clientSalt ≠ []
  real : response ≠ []
  computed : ∃ value, value ≠ [] ∧ gendigest h sd clientSalt packet.serverSalt = .ok value ∧
    gendigest h packet.digest password value = .ok response

theorem doProcessChallenge_provides (hashed : Hashed h sd) {urandom : Nat → Bytes}
    {packet : ChallengePacket} {password : Bytes} {passwords : List Bytes}
    (random : urandom 32 ≠ []) (challenged : Challenged sd packet) {handlers : List Handler}
    (provides : Provides handlers (password :: passwords)) (s : ChallengeClient)
    (own : s.challengeHandlers = handlers) (able : Able s.settings) (known : Handlers handlers) :
    ∃ s' response clientSalt, Replied h sd packet password passwords s s' response clientSalt ∧
      doProcessChallenge h urandom packet handlers.length s = (s', .reply response clientSalt) := by
  generalize all : password :: passwords = given at provides
  induction provides generalizing s with
  | done handlers => cases all
  | @skip handler handlers given fails rest ih =>
      subst all
      have first := challengeHandlerIndex_usable hashed challenged.usable known
      obtain ⟨s', response, clientSalt, replied, equal⟩ :=
        ih { s with challengeHandlers := handlers } rfl able
          (fun x member => known x (List.mem_cons_of_mem _ member)) rfl
      refine ⟨s', response, clientSalt, { replied with settings := replied.settings }, ?_⟩
      rw [List.length_cons, doProcessChallenge]
      simp only [own, first, List.getElem?_cons_zero, List.eraseIdx_cons_zero]
      rcases fails packet.serverSalt packet.digest (std packet.prompt) with raised | empty
      · rw [raised]
        exact equal
      · rw [empty]
        exact equal
  | @give handler handlers password' passwords' real gives rest ih =>
      cases all
      have first := challengeHandlerIndex_usable hashed challenged.usable known
      obtain ⟨value, response, used, some, salts, computed, sends⟩ :=
        sendPassword_usable hashed real random challenged
      refine ⟨{ s with challengeHandlers := handlers, passwordSent := true }, response, urandom 32,
        ⟨rfl, fun x member => known x (List.mem_cons_of_mem _ member), rest, rfl, random, some,
          value, used, salts, computed⟩, ?_⟩
      have truthy : (Value.password password).truthy = true := by
        simp [Value.truthy, real]
      have replies : sendChallengeReply h urandom s.settings packet (.password password) =
          .ok (.reply response (urandom 32)) := by
        rw [sendChallengeReply, if_neg, sends]
        rw [Bool.and_eq_true]
        rintro ⟨encryption, fails⟩
        simp [able.encrypts encryption packet.authCaps] at fails
      rw [List.length_cons, doProcessChallenge]
      simp only [own, first, List.getElem?_cons_zero, List.eraseIdx_cons_zero, gives, truthy, if_true,
        replies]

theorem processChallenge_provides (hashed : Hashed h sd) {urandom : Nat → Bytes}
    {packet : ChallengePacket} {password : Bytes} {passwords : List Bytes}
    (random : urandom 32 ≠ []) (challenged : Challenged sd packet) {s : ChallengeClient}
    (provides : Provides s.challengeHandlers (password :: passwords)) (able : Able s.settings)
    (known : Handlers s.challengeHandlers) :
    ∃ s' response clientSalt, Replied h sd packet password passwords s s' response clientSalt ∧
      processChallenge h urandom s packet = (s', .reply response clientSalt) := by
  obtain ⟨s', response, clientSalt, replied, equal⟩ :=
    doProcessChallenge_provides hashed random challenged provides s rfl able known
  refine ⟨s', response, clientSalt, replied, ?_⟩
  rw [processChallenge, validateChallengePacket_able hashed able challenged]
  exact equal

end Catlink.Challenge
