import Catlink.Server.Auth

/-! The client's side of the authentication: its handlers, and its answers to challenges. -/

namespace Catlink.Challenge

open Auth Server

/-- What a handler returns. -/
inductive Value
  /-- empty if the handler has none -/
  | password (password : Bytes)
  /-- a response that is ready, and its salt -/
  | response (challengeResponse clientSalt : Bytes)
deriving DecidableEq

/-- `bool(value)` -/
def Value.truthy : Value → Bool
  | .password given => !given.isEmpty
  | .response _ _ => true

/-- What `handler.handle(..)` does. -/
inductive Handled
  | value (value : Value)
  | initExit (status : Int) (message : String)
  | raised
deriving DecidableEq

/-- A handler, which is called with the challenge, the digest and the prompt. -/
structure Handler where
  digest : String
  handle : Bytes → String → String → Handled

/-- A `challenge` packet -/
structure ChallengePacket where
  serverSalt : Bytes
  authCaps : AuthCaps
  digest : String
  saltDigest : String
  prompt : String

inductive ExitCode
  | encryption
  | incompatibleVersion
  | unsupported
  | passwordRequired
  | status (code : Int)
deriving DecidableEq

/-- What comes of a challenge. -/
inductive Sent
  /-- `do_send_challenge_reply` -/
  | reply (challengeResponse clientSalt : Bytes)
  /-- `disconnect_and_quit` -/
  | quit (code : ExitCode) (message : String)
  /-- `set_server_encryption` has failed -/
  | silent
deriving DecidableEq

structure Settings where
  hasPassword : Bool
  /-- `_get_hmac_digests()` -/
  hmacDigests : List String
  /-- `d3des` can be imported -/
  des : Bool
  sendingEncrypted : Bool
  encryption : Bool
  /-- the display is a local one -/
  localDisplay : Bool
  allowUnencryptedPasswords : Bool
  allowLocalhostPasswords : Bool
  setServerEncryption : AuthCaps → Bool
  commandRequest : List String

structure ChallengeClient where
  settings : Settings
  challengeHandlers : List Handler
  passwordSent : Bool

/-- `get_digests` -/
def Settings.digests (s : Settings) : List String :=
  "xor" :: s.hmacDigests ++ if s.des then ["des"] else []

/-- The digests of `get_caps` -/
def ChallengeClient.digests (s : ChallengeClient) : List String :=
  s.challengeHandlers.foldl
    (fun digests handler =>
      if handler.digest = "" ∨ handler.digest ∈ digests then digests else digests ++ [handler.digest])
    s.settings.digests

/-- `send_hello`; without a response, a client that has a password asks for a challenge first. -/
def sendHello (s : ChallengeClient) (challengeResponse clientSalt : Bytes) : Hello :=
  let asks := s.settings.hasPassword && challengeResponse.isEmpty
  { digest := s.digests
    saltDigest := s.settings.hmacDigests
    challengeResponse := challengeResponse
    challengeClientSalt := if challengeResponse.isEmpty then [] else clientSalt
    challenge := if asks then "True" else ""
    commandRequest := if asks then [] else s.settings.commandRequest }

/-- `digest.split(":", 1)[0]` -/
def digestType (digest : String) : String := String.ofList (digest.toList.takeWhile (· ≠ ':'))

/-- How the client leaves, if the packet is not valid. -/
def validateChallengePacket (s : Settings) (packet : ChallengePacket) : Option Sent :=
  let legacy :=
    if packet.saltDigest = "xor" ∨ packet.saltDigest = "des" then
      some (.quit .incompatibleVersion "authentication failed")
    else none
  if digestType packet.digest = "xor" ∨ digestType packet.digest = "des" then
    if s.localDisplay && s.allowLocalhostPasswords then none
    -- don't send XORed password unencrypted
    else if !(s.sendingEncrypted || s.encryption) && !s.allowUnencryptedPasswords then
      some (.quit .encryption "invalid digest")
    else legacy
  else legacy

def getSalt (urandom : Nat → Bytes) (length : Nat) : Except Exn Bytes :=
  if length < 32 then .error (.valueError s!"salt is too short: only {length} bytes")
  else if 1024 ≤ length then .error (.valueError s!"salt is too long: {length} bytes")
  else .ok (urandom length)

/-- The salt of the response, and the client's own. -/
def responseSalt (h : Hashes) (urandom : Nat → Bytes) (packet : ChallengePacket) :
    Except Exn (Bytes × Bytes) :=
  if digestType packet.digest = "des" then .ok (packet.serverSalt, packet.serverSalt)
  else
    let length := packet.serverSalt.length
    -- with xor, we have to match the size
    if packet.saltDigest = "xor" ∧ length < 16 then
      .error (.valueError s!"server salt is too short: only {length} bytes, minimum is 16")
    else if packet.saltDigest = "xor" ∧ 256 < length then
      .error (.valueError s!"server salt is too long: {length} bytes, maximum is 256")
    else do
      let clientSalt ← getSalt urandom (if packet.saltDigest = "xor" then length else 32)
      let salt ← gendigest h packet.saltDigest clientSalt packet.serverSalt
      .ok (salt, clientSalt)

def sendPassword (h : Hashes) (urandom : Nat → Bytes) (packet : ChallengePacket) (password : Bytes) :
    Except Exn Sent := do
  let salts ← responseSalt h urandom packet
  let challengeResponse ← gendigest h (digestType packet.digest) password salts.1
  .ok (if challengeResponse.isEmpty then .quit .unsupported "invalid digest"
    else .reply challengeResponse salts.2)

/-- `send_challenge_reply` -/
def sendChallengeReply (h : Hashes) (urandom : Nat → Bytes) (s : Settings) (packet : ChallengePacket)
    (value : Value) : Except Exn Sent :=
  if s.encryption && !s.setServerEncryption packet.authCaps then .ok .silent
  else
    match value with
    | .password given => sendPassword h urandom packet given
    | .response challengeResponse clientSalt => .ok (.reply challengeResponse clientSalt)

/-- The place of the handler that `pop_challenge_handler` takes: one for this digest, or the first. -/
def challengeHandlerIndex (digest : String) (handlers : List Handler) : Nat :=
  (handlers.findIdx? fun handler => handler.digest == digestType digest).getD 0

/-- `std(prompt, extras="-,./: '")` -/
def std (prompt : String) : String :=
  String.ofList (prompt.toList.filter fun c => c.isAlphanum || "-,./: '".toList.contains c)

/-- `while self.challenge_handlers`: each turn takes one. -/
def doProcessChallenge (h : Hashes) (urandom : Nat → Bytes) (packet : ChallengePacket) :
    Nat → ChallengeClient → ChallengeClient × Sent
  | 0, s => (s, .quit .passwordRequired "authentication required")
  | turns + 1, s =>
      let index := challengeHandlerIndex packet.digest s.challengeHandlers
      match s.challengeHandlers[index]? with
      | none => (s, .quit .passwordRequired "authentication required")
      | some handler =>
          let s := { s with challengeHandlers := s.challengeHandlers.eraseIdx index }
          match handler.handle packet.serverSalt packet.digest (std packet.prompt) with
          | .initExit status message => (s, .quit (.status status) message)
          | .raised => doProcessChallenge h urandom packet turns s
          | .value value =>
              if value.truthy then
                match sendChallengeReply h urandom s.settings packet value with
                -- an exception of the reply is one of the handler
                | .error _ => doProcessChallenge h urandom packet turns s
                | .ok (.reply challengeResponse clientSalt) =>
                    ({ s with passwordSent := true }, .reply challengeResponse clientSalt)
                | .ok sent => (s, sent)
              else doProcessChallenge h urandom packet turns s

def processChallenge (h : Hashes) (urandom : Nat → Bytes) (s : ChallengeClient)
    (packet : ChallengePacket) : ChallengeClient × Sent :=
  match validateChallengePacket s.settings packet with
  | some sent => (s, sent)
  | none => doProcessChallenge h urandom packet s.challengeHandlers.length s

/-- The client stays, unless the server has not requested its password. -/
def parseServerCapabilities (s : ChallengeClient) : Bool :=
  s.passwordSent || !s.settings.hasPassword

/-! ### The client and the server -/

/-- What is outside while one hello is processed and answered. -/
structure Round where
  outside : Outside
  urandom : Nat → Bytes

structure Exchange where
  authenticators : Authenticators
  /-- what the server has done -/
  log : List Event
  client : ChallengeClient

inductive Ending
  /-- the hello is on its way -/
  | waits (hello : Hello)
  /-- the server has not sent a challenge -/
  | over
  | left (sent : Sent)

/-- The challenge that the server has sent, after which it waits. -/
def challengeOf (events : List Event) : Option ChallengePacket :=
  match events.getLast? with
  | some (.challenge _ salt authCaps digest saltDigest prompt) =>
      some ⟨salt, authCaps, digest, saltDigest, prompt⟩
  | some (.fakeChallenge salt authCaps digest saltDigest) =>
      some ⟨salt, authCaps, digest, saltDigest, "password"⟩
  | _ => none

/-- A hello packet, and the ones that answer the challenges. -/
def exchange (h : Hashes) (config : List Module) : List Round → Exchange → Hello → Exchange × Ending
  | [], e, c => (e, .waits c)
  | r :: rounds, e, c =>
      let verified := verifyAuth h config r.outside c e.authenticators
      let e := { e with authenticators := verified.1, log := e.log ++ verified.2 }
      match challengeOf verified.2 with
      | none => (e, .over)
      | some packet =>
          let processed := processChallenge h r.urandom e.client packet
          let e := { e with client := processed.1 }
          match processed.2 with
          | .reply challengeResponse clientSalt =>
              exchange h config rounds e (sendHello e.client challengeResponse clientSalt)
          | sent => (e, .left sent)

end Catlink.Challenge
