import Catlink.Clipboard.UriText
import Catlink.Lib.Dict
import Catlink.Lib.Runs
import Catlink.Rencodeplus.Encode

/-! The clipboard bridge of the client: offers of the remote end, requests for their contents, and
the answers of the broker. -/

namespace Catlink.Clipboard.CatlinkBridge

open UriText

structure Proxy where
  id : Nat
  /-- `getattr(proxy, "_selection", "")` -/
  selection : String
  /-- `hasattr(proxy, "clipboard")` -/
  native : Bool
  deriving DecidableEq

/-- Clipboard data, as far as the bridge looks at it. -/
inductive Data
  | none
  | bytes (data : Bytes)
  /-- a memoryview or a bytearray, with its `str` -/
  | buffer (data : Bytes) (shown : String)
  | str (text : String)
  /-- any other object: its `str`, its `bytes` if there are any, and its truth -/
  | other (shown : String) (raw : Option Bytes) (truth : Bool)
  deriving DecidableEq

namespace Data

def truthy : Data → Bool
  | .none => false
  | .bytes data | .buffer data _ => data ≠ []
  | .str text => text ≠ ""
  | .other _ _ truth => truth

/-- `data.decode("utf8", "replace") if isinstance(data, bytes) else str(data)` -/
def text : Data → String
  | .none => "None"
  | .bytes data => decodeReplace data
  | .buffer _ shown | .other shown _ _ => shown
  | .str text => text

/-- `data.decode("utf8", "replace") if isinstance(data, bytes) else str(data or "")` -/
def textOrEmpty (d : Data) : String := if d.truthy then d.text else ""

/-- `bytes(data)`, unless it raises -/
def toBytes : Data → Option Bytes
  | .none | .str _ => Option.none
  | .bytes data | .buffer data _ => some data
  | .other _ raw _ => raw

/-- `_as_bytes(data)`, unless it raises -/
def asBytes : Data → Option Bytes
  | .str text => some (Rencodeplus.utf8 text)
  | d => d.toBytes

/-- `bytes(data)` of a bytes-like object, `str(data or "")` of another -/
def content : Data → Bytes ⊕ String
  | .bytes data | .buffer data _ => .inl data
  | d => .inr d.textOrEmpty

end Data

/-- `(dtype, dformat, data)` -/
structure Value where
  dtype : String
  dformat : Int
  data : Data
  deriving DecidableEq

/-- What `_offer_file` returns. -/
structure File where
  handle : String
  name : String
  size : Nat
  url : String
  deriving DecidableEq

/-- The messages to the broker. -/
inductive Message
  | offer (generation : Nat) (targets : List String) (text : String)
  | reset (generation : Nat)
  | unavailable (generation : Nat) (target : String)
  | image (generation : Nat) (target : String) (data : Bytes)
  | html (generation : Nat) (target : String) (files : List File) (data : Bytes)
  | prepareFiles (generation : Nat) (files : List File)
  | startFiles (generation : Nat)
  | dataRequest (generation : Nat) (target : String)
  deriving DecidableEq

/-- A thread that was started and has something left to do. -/
inductive Worker
  | sendUriFiles (raw : String) (generation : Nat)
  /-- `_send_uri_files` between its test of the generation and that of the marks, with the lock -/
  | markFiles (paths : List String) (generation : Nat)
  /-- `_send_uri_files` after it has marked the generation -/
  | offerFiles (paths : List String) (generation : Nat)
  | sendHtml (data : Bytes) (generation : Nat) (target : String)
  deriving DecidableEq

abbrev Key := Nat × String

abbrev Fingerprint := List String × List (String × Bytes)

structure Bridge where
  enabled : Bool
  /-- `bool(self.sock)` -/
  connected : Bool
  generation : Nat := 0
  active : Bool := false
  targets : List String := []
  responses : List (Key × (String × Bytes)) := []
  inline : List (Key × Value) := []
  received : List (Key × (Bytes ⊕ String)) := []
  requested : List Key := []
  requestGenerations : List (Nat × Key) := []
  uriFileOffers : List Key := []
  unavailable : List Key := []
  proxy : Option Proxy := none
  selectionName : String := ""
  offerText : String := ""
  sourceOrigin : String := ""
  sourceOfferId : Int := 0
  offerFingerprint : Option Fingerprint := none
  lastTokenDuplicate : Bool := false
  claimedProxy : Option Proxy := none
  claimedTargets : List String := []
  claimedGeneration : Nat := 0
  /-- the counter `request_target` takes its ids from -/
  clipboardRequestCounter : Nat := 0
  sent : List Message := []
  threads : List Worker := []
  /-- a data-response that `_reader` has let through and not stored yet -/
  reading : Option (Key × Bytes) := none

/-- What the bridge finds around it. -/
structure Env where
  /-- `sys.platform == "darwin"` -/
  darwin : Bool
  /-- `RIM_SERVER` -/
  rimServer : String
  /-- the network locations for which `urlsplit` raises -/
  refused : List Char → Bool

/-- How a handler ends. -/
inductive Outcome
  | returned (value : Bool)
  | raised
  deriving DecidableEq

/-! ### Messages and threads -/

/-- `_send`: `raises` are the messages that are too large or that the socket refuses. The second
part tells whether the call returns. -/
def send (raises : Message → Bool) (s : Bridge) (message : Message) : Bridge × Bool :=
  if ¬ s.connected then (s, true)
  else if raises message then (s, false)
  else ({ s with sent := s.sent ++ [message] }, true)

def startThread (s : Bridge) (worker : Worker) : Bridge :=
  { s with threads := s.threads ++ [worker] }

def accepts (s : Bridge) (proxy : Proxy) : Bool :=
  s.enabled && s.connected && proxy.selection = "CLIPBOARD"

/-! ### Offers -/

/-- The arguments of a token. `None` for the target data is no data. -/
structure Token where
  proxy : Proxy
  selection : String
  targets : List String
  targetData : List (String × Value) := []
  sourceOfferId : Int := 0
  sourceOrigin : String := ""

def isNontext (target : String) : Bool := startsWith target "image/" || target = "text/uri-list"

def Token.managed (tok : Token) : List String :=
  tok.targets.filter isNontext ++ if tok.proxy.native then tok.targets.filter isHtmlTarget else []

def textTargets : List String :=
  ["UTF8_STRING", "TEXT", "STRING", "text/plain", "text/plain;charset=utf-8"]

def Token.text (tok : Token) : String :=
  match tok.targetData.find? fun item => item.1 ∈ textTargets with
  | some item => item.2.data.text
  | none => ""

def Token.fingerprint (tok : Token) : Fingerprint :=
  (tok.targets, tok.targetData.filterMap fun item => item.2.data.toBytes.map fun data => (item.1, data))

def sameSourceOffer (previousOrigin origin : String) : Bool := origin ≠ "" && origin = previousOrigin

def Token.merges (tok : Token) (s : Bridge) : Bool :=
  tok.sourceOfferId ≠ 0 && tok.sourceOfferId = s.sourceOfferId &&
    sameSourceOffer s.sourceOrigin tok.sourceOrigin

/-- A legacy offer, without an id and an origin, that is the current one. -/
def Token.duplicates (tok : Token) (s : Bridge) : Bool :=
  tok.sourceOrigin = "" && tok.sourceOfferId = 0 && some tok.fingerprint = s.offerFingerprint

def mergeOffer (s : Bridge) (tok : Token) : Bridge :=
  { s with
    targets := (s.targets ++ tok.targets).eraseDups
    offerText := if tok.text ≠ "" then tok.text else s.offerText
    proxy := some tok.proxy }

def newOffer (s : Bridge) (tok : Token) : Bridge :=
  { s with
    generation := s.generation + 1
    targets := tok.targets
    inline := []
    responses := []
    received := []
    requested := []
    unavailable := []
    uriFileOffers := []
    proxy := some tok.proxy
    offerText := tok.text
    sourceOrigin := tok.sourceOrigin
    sourceOfferId := tok.sourceOfferId
    offerFingerprint := some tok.fingerprint }

/-- `_receive_image`; the second part tells whether it returns. -/
def receiveImage (raises : Message → Bool) (s : Bridge) (target dtype : String) (data : Data) :
    Bridge × Bool :=
  let contentKey := (s.generation, target)
  let s := { s with requested := s.requested.insert contentKey }
  match data.toBytes with
  | none => (s, false)
  | some raw =>
      if ¬ imageDataComplete dtype raw then
        send raises { s with unavailable := s.unavailable.insert contentKey }
          (.unavailable s.generation target)
      else
        send raises { s with unavailable := s.unavailable.erase contentKey }
          (.image s.generation dtype raw)

/-- `if not .. startswith("image/") and .. != "text/uri-list"` -/
def tokenInline (s : Bridge) (target : String) (value : Value) : Bridge :=
  if isNontext target then s else { s with inline := Dict.set s.inline (s.generation, target) value }

def tokenHtml (s : Bridge) (target : String) (value : Value) : Bridge × Bool :=
  if isHtmlTarget target ∧ value.data.truthy then
    match value.data.asBytes with
    | none => (s, false)
    | some data => (startThread s (.sendHtml data s.generation target), true)
  else (s, true)

def tokenUris (s : Bridge) (target : String) (value : Value) : Bridge × Bool :=
  if target = "text/uri-list" then
    match value.data.asBytes with
    | none => (s, false)
    | some data =>
        (startThread { s with requested := s.requested.insert (s.generation, target) }
          (.sendUriFiles (decodeReplace data) s.generation), true)
  else (s, true)

def tokenImage (raises : Message → Bool) (s : Bridge) (target : String) (value : Value) :
    Bridge × Bool :=
  if startsWith target "image/" ∧ value.data.truthy then
    receiveImage raises s target value.dtype value.data
  else (s, true)

/-- A turn of `for target, value in target_data.items()`. -/
def tokenItem (raises : Message → Bool) (s : Bridge) (target : String) (value : Value) :
    Bridge × Bool :=
  match tokenHtml (tokenInline s target value) target value with
  | (s, false) => (s, false)
  | (s, true) =>
      match tokenUris s target value with
      | (s, false) => (s, false)
      | (s, true) => tokenImage raises s target value

def tokenData (raises : Message → Bool) : Bridge → List (String × Value) → Bridge × Bool
  | s, [] => (s, true)
  | s, item :: items =>
      match tokenItem raises s item.1 item.2 with
      | (s, false) => (s, false)
      | (s, true) => tokenData raises s items

/-- `_schedule_native_clear` and what it touches are left out. -/
def invalidateNative (raises : Message → Bool) (s : Bridge) (proxy : Proxy) : Bridge × Bool :=
  if ¬ accepts s proxy ∨ ¬ (s.active ∨ s.claimedProxy = some proxy) then (s, true)
  else
    let s := { s with
      generation := s.generation + 1
      active := false
      targets := []
      requested := []
      responses := []
      inline := []
      sourceOfferId := 0
      sourceOrigin := ""
      offerFingerprint := none
      claimedProxy := none
      claimedTargets := []
      claimedGeneration := 0 }
    send raises s (.reset s.generation)

def outcomeOf (value : Bool) (r : Bridge × Bool) : Bridge × Outcome :=
  (r.1, if r.2 then .returned value else .raised)

/-- An offer that is not a duplicate: merged or new, then its data. -/
def acceptOffer (raises : Message → Bool) (s : Bridge) (tok : Token) : Bridge × Bool :=
  if tok.merges s then tokenData raises (mergeOffer s tok) tok.targetData
  else
    match send raises (newOffer s tok) (.offer (s.generation + 1) tok.targets tok.text) with
    | (s, false) => (s, false)
    | (s, true) => tokenData raises s tok.targetData

/-- `handle("token", ..)` -/
def handleToken (raises : Message → Bool) (s : Bridge) (tok : Token) : Bridge × Outcome :=
  if ¬ accepts s tok.proxy ∨ tok.selection ≠ "CLIPBOARD" then (s, .returned false)
  else
    let s := { s with lastTokenDuplicate := false }
    if tok.proxy.selection ≠ "" ∧ tok.selection ≠ tok.proxy.selection then (s, .returned false)
    else if s.selectionName ≠ "" ∧ tok.selection ≠ s.selectionName then (s, .returned false)
    else if tok.managed = [] then outcomeOf false (invalidateNative raises s tok.proxy)
    else
      let s := { s with active := true }
      if tok.duplicates s then ({ s with lastTokenDuplicate := true }, .returned true)
      else outcomeOf true (acceptOffer raises s tok)

/-! ### Contents -/

/-- The arguments of a contents reply. -/
structure Reply where
  proxy : Proxy
  selection : String
  target : String
  dtype : String
  dformat : Int
  data : Data
  requestId : Option Nat

/-- Contents with a type and data. -/
def storeContents (raises : Message → Bool) (s : Bridge) (r : Reply) : Bridge × Bool :=
  let contentKey := (s.generation, r.target)
  let s := { s with requested := s.requested.insert contentKey }
  if Dict.get s.received contentKey = some r.data.content then (s, true)
  else
    let s := { s with received := Dict.set s.received contentKey r.data.content }
    if r.target = "text/uri-list" then
      (startThread s (.sendUriFiles r.data.textOrEmpty s.generation), true)
    else if isHtmlTarget r.target then
      match r.data.asBytes with
      | none => (s, false)
      | some data => (startThread s (.sendHtml data s.generation r.target), true)
    else if startsWith r.dtype "image/" ∧ r.data.truthy then
      receiveImage raises s r.target r.dtype r.data
    else ({ s with inline := Dict.set s.inline contentKey ⟨r.dtype, r.dformat, r.data⟩ }, true)

/-- Contents without a type or data. -/
def contentsUnavailable (raises : Message → Bool) (s : Bridge) (r : Reply) : Bridge × Bool :=
  if r.target = "text/uri-list" ∧ isRemoteFileUriText s.offerText then
    (startThread s (.sendUriFiles s.offerText s.generation), true)
  else
    let contentKey := (s.generation, r.target)
    send raises
      { s with
        requested := s.requested.insert contentKey
        unavailable := s.unavailable.insert contentKey }
      (.unavailable s.generation r.target)

/-- `self._request_generations.pop(request_id, None)` -/
def popRequest (s : Bridge) (requestId : Option Nat) : Option Key × Bridge :=
  match requestId with
  | none => (none, s)
  | some id =>
      (Dict.get s.requestGenerations id,
        { s with requestGenerations := Dict.erase s.requestGenerations id })

/-- `handle("contents", ..)` -/
def handleContents (raises : Message → Bool) (s : Bridge) (r : Reply) : Bridge × Outcome :=
  if ¬ accepts s r.proxy ∨ r.selection ≠ "CLIPBOARD" then (s, .returned false)
  else
    match popRequest s r.requestId with
    | (none, s) => (s, .returned false)
    | (some (requestGeneration, requestTarget), s) =>
        if requestGeneration ≠ s.generation ∨ requestTarget ≠ r.target then (s, .returned true)
        else if ¬ s.active ∨ r.target ∉ s.targets then (s, .returned false)
        else if r.dtype = "" ∨ r.data = .none then outcomeOf true (contentsUnavailable raises s r)
        else outcomeOf true (storeContents raises s r)

/-! ### Requests -/

/-- `_request_remote`; `answers` tells whether `request_target` returns an id. -/
def requestRemoteTarget (s : Bridge) (answers : Bool) (generation : Nat) (target : String) :
    Bridge :=
  let target := if target = "application/x-qt-image" then "image/png" else target
  let key := (generation, target)
  if ¬ s.active ∨ generation ≠ s.generation ∨ key ∈ s.requested then s
  else
    let s := { s with requested := s.requested.insert key }
    if s.proxy = none ∨ ¬ answers then s
    else
      { s with
        clipboardRequestCounter := s.clipboardRequestCounter + 1
        requestGenerations := Dict.set s.requestGenerations s.clipboardRequestCounter key }

def requestRemote (s : Bridge) (answers : Bool) (proxy : Proxy) (target : String) : Bridge :=
  requestRemoteTarget { s with proxy := some proxy } answers s.generation target

/-! ### Native owners -/

/-- `claim`, as far as it changes the bridge; `installed` is what GTK answers, `none` when its
library cannot be loaded. -/
def claim (s : Bridge) (proxy : Proxy) (targets : List String) (installed : Option Bool) : Bridge :=
  if ¬ accepts s proxy then s
  else
    let s := { s with selectionName := proxy.selection }
    if targets.filter (fun x => isNontext x || isHtmlTarget x) = [] then s
    else
      match installed with
      | none => { s with claimedProxy := none }
      | some claimed =>
          { s with
            claimedProxy := if claimed then some proxy else none
            claimedTargets := targets
            claimedGeneration := s.generation }

/-- `claim_macos`: a text claim retires the offer, another one publishes it. -/
def claimMacos (s : Bridge) (proxy : Proxy) (targets : List String) : Bridge :=
  if ¬ accepts s proxy then s
  else if targets.any isNontext then s
  else
    { s with
      active := false
      proxy := some proxy
      claimedProxy := none
      claimedTargets := []
      claimedGeneration := 0 }

/-! ### The reader and the worker threads -/

/-- The test `_reader` makes of a data-response. -/
def readResponse (s : Bridge) (key : Key) (data : Bytes) : Bridge :=
  if key.1 ≠ s.generation ∨ ¬ s.active then s else { s with reading := some (key, data) }

/-- `if data or previous is None` -/
def storeResponse (s : Bridge) (key : Key) (data : Bytes) : Bridge :=
  let s := { s with reading := none }
  if data ≠ [] ∨ Dict.get s.responses key = none then
    { s with responses := Dict.set s.responses key (key.2, data) }
  else s

/-- `_send_uri_files` up to its test of the generation, which is the first thing it does with the
lock. -/
def sendUriFiles (env : Env) (s : Bridge) (raw : String) (generation : Nat) : Bridge :=
  match localPaths env.refused (splitlines raw) [] with
  | none => s
  | some paths =>
      if generation ≠ s.generation ∨ ¬ s.active then s
      else startThread s (.markFiles paths generation)

/-- The rest of its critical section. -/
def markFiles (s : Bridge) (paths : List String) (generation : Nat) : Bridge :=
  let key := (generation, "uri-batch")
  if key ∈ s.uriFileOffers then s
  else
    startThread { s with uriFileOffers := s.uriFileOffers.insert key } (.offerFiles paths generation)

/-- What the server answers to the registration of a file. -/
structure Registration where
  handle : Option String
  name : Option String
  size : Option Nat

/-- `_offer_file`; `register` is the answer to each path, `none` for a failure. -/
def offerFile (env : Env) (register : String → Option Registration) (path : String) : Option File :=
  (register path).map fun offered =>
    let handle := offered.handle.getD path
    { handle := handle
      name := offered.name.getD (baseName path)
      size := offered.size.getD 0
      url := env.rimServer ++ "/clipboard/file/" ++ handle }

/-- `[self._offer_file(path) for path in paths]`, unless one is `None` -/
def offeredFiles (env : Env) (register : String → Option Registration) : List String → Option (List File)
  | [] => some []
  | path :: paths => do
      let file ← offerFile env register path
      let files ← offeredFiles env register paths
      return file :: files

/-- The rest of `_send_uri_files`. -/
def announceFiles (env : Env) (raises : Message → Bool) (s : Bridge)
    (register : String → Option Registration) (paths : List String) (generation : Nat) : Bridge :=
  match offeredFiles env register paths with
  | none => (send raises s (.unavailable generation "text/uri-list")).1
  | some files =>
      match send raises s (.prepareFiles generation files) with
      | (s, false) => s
      | (s, true) => if env.darwin then s else (send raises s (.startFiles generation)).1

/-! ### Steps -/

inductive Action
  | token (tok : Token) (raises : Message → Bool)
  | contents (reply : Reply) (raises : Message → Bool)
  | invalidateNative (proxy : Proxy) (raises : Message → Bool)
  | claim (proxy : Proxy) (targets : List String) (installed : Option Bool)
  | claimMacos (proxy : Proxy) (targets : List String)
  | requestRemote (proxy : Proxy) (target : String) (answers : Bool)
  /-- `_request_remote` of a native provider, with the generation it was made for -/
  | provideTarget (generation : Nat) (target : String) (answers : Bool)
  /-- a native provider asks the broker -/
  | dataRequest (generation : Nat) (target : String) (raises : Message → Bool)
  /-- the clipboard makes a request that is not the bridge's -/
  | otherRequest
  | readResponse (key : Key) (data : Bytes)
  | storeResponse
  | sendUriFiles
  | markFiles
  | offerFiles (register : String → Option Registration) (raises : Message → Bool)
  /-- with the files that the text refers to, as they were registered -/
  | sendHtml (files : List File) (raises : Message → Bool)
  /-- the socket is closed, or the broker closes it -/
  | disconnect

/-- A thread of the bridge takes its next step. -/
def threadStep (s : Bridge) (next : Worker → Bridge → Option Bridge) (s' : Bridge) : Prop :=
  ∃ earlier worker later, s.threads = earlier ++ worker :: later ∧
    next worker { s with threads := earlier ++ later } = some s'

def Worker.isMarking : Worker → Bool
  | .markFiles _ _ => true
  | _ => false

/-- Neither the reader nor a thread is in a critical section that takes it two steps. -/
def Bridge.unlocked (s : Bridge) : Bool :=
  s.reading.isNone && !s.threads.any Worker.isMarking

/-- What an action does, when it can happen. The calls from the main loop are one step each, and
change the generation and the marks without the lock; the reader tests and stores in two steps, a
thread tests and marks in two, and the other threads go on between any two steps. -/
def step (env : Env) (s : Bridge) (a : Action) (s' : Bridge) : Prop :=
  match a with
  | .token tok raises => s' = (handleToken raises s tok).1
  | .contents reply raises => s' = (handleContents raises s reply).1
  | .invalidateNative proxy raises => s' = (invalidateNative raises s proxy).1
  | .claim proxy targets installed => s' = claim s proxy targets installed
  | .claimMacos proxy targets => s' = claimMacos s proxy targets
  | .requestRemote proxy target answers => s' = requestRemote s answers proxy target
  | .provideTarget generation target answers => s' = requestRemoteTarget s answers generation target
  | .dataRequest generation target raises => s' = (send raises s (.dataRequest generation target)).1
  | .otherRequest => s' = { s with clipboardRequestCounter := s.clipboardRequestCounter + 1 }
  | .readResponse key data => s.unlocked = true ∧ s' = readResponse s key data
  | .storeResponse => ∃ key data, s.reading = some (key, data) ∧ s' = storeResponse s key data
  | .sendUriFiles =>
      s.unlocked = true ∧ threadStep s (fun worker s => match worker with
        | .sendUriFiles raw generation => some (sendUriFiles env s raw generation)
        | _ => none) s'
  | .markFiles =>
      threadStep s (fun worker s => match worker with
        | .markFiles paths generation => some (markFiles s paths generation)
        | _ => none) s'
  | .offerFiles register raises =>
      threadStep s (fun worker s => match worker with
        | .offerFiles paths generation => some (announceFiles env raises s register paths generation)
        | _ => none) s'
  | .sendHtml files raises =>
      threadStep s (fun worker s => match worker with
        | .sendHtml data generation target =>
            some (send raises s (.html generation target files data)).1
        | _ => none) s'
  | .disconnect => s' = { s with connected := false }

/-- The bridge after `__init__`. -/
def initial (s : Bridge) : Prop := ∃ enabled connected, s = { enabled := enabled, connected := connected }

end Catlink.Clipboard.CatlinkBridge
