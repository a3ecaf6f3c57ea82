import Catlink.Clipboard.Timeout
import Catlink.Lib.Dict
import Catlink.Lib.MainLoop
import Catlink.Lib.Runs
import Catlink.Python
import Mathlib.Tactic

/-! The proxy of an X11 selection: the requests of other applications, the reads of what they own,
and the tokens sent to the peer. -/

namespace Catlink.X11.Selection

open MainLoop Clipboard

/-! ### Targets -/

/-- `TEXT_TARGETS` -/
def textTargets : List String := ["UTF8_STRING", "TEXT", "STRING", "text/plain", "text/html"]

/-- `re.compile("^" + text).match(target)`, for a text without special characters -/
def startsWith (target text : String) : Bool := text.toList.isPrefixOf target.toList

/-- `^application/vnd.portal.`, whose points stand for any character -/
def isPortal (target : String) : Bool :=
  let text := target.toList
  startsWith target "application/vnd" && (text.drop 16).take 6 == "portal".toList &&
    decide (22 < text.length) && text[15]? != some '\n' && text[22]? != some '\n'

def mustDiscard (target : String) : Bool :=
  ["NeXT", "com.apple.", "CorePasteboardFlavorType", "dyn.", "resource-transfer-format",
    "x-special/"].any (startsWith target) || isPortal target

def mustDiscardExtra (target : String) : Bool :=
  target == "SAVE_TARGETS" || target == "SAVE_TARGETS\n" || startsWith target "COMPOUND_TEXT" ||
    startsWith target "GTK_TEXT_BUFFER_CONTENTS"

/-- `TRANSLATED_TARGETS` -/
def translatedTargets : List (String × List String) :=
  [("text/plain;charset=utf-8", ["UTF8_STRING", "text/plain", "public.utf8-plain-text"]),
    ("TEXT", ["text/plain", "text/plain;charset=utf-8", "UTF8_STRING", "public.utf8-plain-text"]),
    ("STRING", ["text/plain", "text/plain;charset=utf-8", "UTF8_STRING", "public.utf8-plain-text"]),
    ("UTF8_STRING", ["text/plain;charset=utf-8", "text/plain", "public.utf8-plain-text"]),
    ("GTK_TEXT_BUFFER_CONTENTS", ["UTF8_STRING", "text/plain", "public.utf8-plain-text"])]

/-! ### Atoms and images -/

/-- What the proxy has from the X server and from libraries. -/
structure Outside where
  /-- `get_atom_name`, empty for no atom -/
  atomName : Nat → String
  /-- `get_xatom` -/
  xatom : String → Nat
  /-- an image decoded and encoded again, when it can be decoded -/
  sanitize : String → Bytes → Option Bytes
  /-- `str(value)` -/
  str : PyVal → String
  /-- the unquoted `file://` lines of a list of URIs -/
  fileUris : PyVal → List String

def littleEndian (data : Bytes) : Nat := data.foldr (fun byte n => byte.toNat + 256 * n) 0

/-- `struct.unpack("@" + "L" * n, data)` -/
def unpackLongs : Bytes → Option (List Nat)
  | [] => some []
  | a :: b :: c :: d :: e :: f :: g :: h :: data => do
      let longs ← unpackLongs data
      return littleEndian [a, b, c, d, e, f, g, h] :: longs
  | _ => none

/-- `struct.pack("@L", n)` -/
def packLong (n : Nat) : Bytes := (List.range 8).map fun i => UInt8.ofNat (n / 256 ^ i)

/-- `xatoms_to_strings`; `none` is a `ValueError` -/
def xatomsToStrings (o : Outside) (data : Bytes) : Option (List String) :=
  (unpackLongs data).map fun atoms =>
    ((atoms.filter (· ≠ 0)).map o.atomName).filter (· ≠ "")

def stringsToXatoms (o : Outside) (names : List String) : Bytes :=
  (names.filter (· ≠ "")).flatMap fun name => packLong (o.xatom name)

def isImage (dtype : String) : Bool := ["image/png", "image/jpeg", "image/tiff"].contains dtype

/-- `filter_data` as the proxy calls it; `none` is an exception -/
def filterData (o : Outside) (dtype : String) (data : Bytes) : Option Bytes :=
  if data = [] ∨ isImage dtype = false then some data else o.sanitize dtype data

/-- `memoryview_to_bytes` -/
def memoryviewToBytes (o : Outside) : PyVal → Bytes
  | .bytes data | .memoryview data => data
  | value =>
      let text := o.str value
      if text.toList.all fun c => c.toNat < 256
      then text.toList.map fun c => UInt8.ofNat c.toNat
      else text.toUTF8.toList

/-- `content` of `offer_metadata`, as bytes -/
def contentBytes : PyVal → Bytes
  | .bytes data | .memoryview data => data
  | .str text => text.toUTF8.toList
  | _ => []

/-! ### The state -/

/-- A property of the proxy's window: `f"{selection}-{epoch}-{target}"`. -/
structure Atom where
  epoch : Nat
  target : String
  deriving DecidableEq

/-- What `schedule_emit_token` captures: the epoch, and the origin. -/
structure Offer where
  epoch : Nat
  sourceMetadata : String

/-- A callback given to `get_contents`: one of the callers of the proxy, or one of the functions
within `schedule_emit_token`, with what it captures. -/
inductive Callback
  | caller (n : Nat)
  | gotTargets (offer : Offer)
  | gotFiles (offer : Offer) (otargets : List String) (target : String)
  | gotChosenTarget (offer : Offer) (otargets : List String) (target : String) (files : List String)

/-- An entry of `local_requests[target]`; `call` tells the calls of `get_contents` apart. -/
structure LocalRequest where
  target : String
  requestId : Nat
  timer : Nat
  call : Nat
  callback : Callback

/-- An entry of `remote_requests[..]`, with its number. -/
structure RemoteRequest where
  number : Nat
  requestor : Nat
  target : String
  prop : String
  time : Nat

/-- What an application is sent; without data the property is empty. -/
structure Response where
  /-- the entry of `remote_requests` it is for -/
  number : Option Nat
  requestor : Nat
  target : String
  prop : String
  dtype : String
  dformat : Nat
  data : Option Bytes
  time : Nat

structure IncrementalData where
  size : Nat
  dtype : String := ""
  dformat : Nat := 0
  chunks : List Bytes := []
  timer : Nat := 0

inductive Timer
  | getContents (target : String) (requestId : Nat)
  | incrData (atom : Atom)

/-- A callback and what it is called with; `timer` is `none` when there was nothing to wait for. -/
structure Completion where
  call : Nat
  target : String
  callback : Callback
  contents : Contents
  timer : Option Nat

/-- What is left to do of a function that has called others. -/
inductive Task
  /-- remove the timer and call the callback -/
  | complete (completion : Completion)
  /-- a callback of a caller is running -/
  | running (n : Nat)
  /-- `do_owner_changed` after the reads are invalidated -/
  | ownerChanged
  /-- `got_token` after the reads are invalidated -/
  | tokenReceived (targets : List String) (targetData : List (String × Contents))
      (claim synchronousClient : Bool)
  | gotContents (target : String) (contents : Contents)
  | gotLocalContents (target : String)
  | claim

/-- How the proxy came to have something, and in which epoch. -/
inductive Obtained
  /-- the origin, as `schedule_emit_token` found it -/
  | origin (epoch : Nat) (origin : String)
  /-- all that was put into the property of this epoch and target -/
  | read (epoch : Nat) (target dtype : String) (dformat : Nat) (data : Bytes)
  /-- the targets the peer replied with, when it was asked for them in this epoch -/
  | remoteTargets (epoch : Nat) (targets : List String)

/-- A token with targets, sent in this epoch. -/
structure Token where
  epoch : Nat
  targets : List String
  targetData : Option (String × Contents)
  origin : String
  offerId : Nat

structure Proxy where
  xid : Nat
  selection : String
  enabled : Bool := false
  haveToken : Bool := false
  canSend : Bool := false
  canReceive : Bool := false
  greedyClient : Bool := false
  wantTargets : Bool := false
  blockOwnerChange : Nat := 0
  preferredTargets : List String := []
  originNamespace : String
  originCounter : Nat := 0
  clipboardOrigin : String := ""
  owned : Bool := false
  offerSelectionTimestamp : Nat := 0
  offerOwnerXid : Nat := 0
  offerId : Nat := 1
  offerTokenOwnerXid : Nat := 0
  offerTokenTimestamp : Nat := 0
  offerLastTargets : List String := []
  offerLastContent : Bytes := []
  offerLastTarget : String := ""
  offerLastFiles : List String := []
  offerEpoch : Nat := 0
  remoteRequests : List (String × List RemoteRequest) := []
  localRequests : List (String × List LocalRequest) := []
  localRequestCounter : Nat := 0
  targets : List String := []
  targetData : List (String × Contents) := []
  incrData : List (Atom × IncrementalData) := []
  timers : Sources Timer := .start
  /-- what is left to do, innermost first -/
  stack : List Task := []
  /-- how often `get_contents` was called -/
  calls : Nat := 0
  /-- the callbacks that were called -/
  completed : List Completion := []
  /-- the conversions requested -/
  conversions : List Atom := []
  /-- how many entries were made in `remote_requests` -/
  remoteRequestCounter : Nat := 0
  /-- the targets asked of the peer, with the epochs -/
  requested : List (Nat × String) := []
  responses : List Response := []
  obtained : List Obtained := []
  /-- the tokens sent, `none` for `()` -/
  tokens : List (Option Token) := []

/-- A task that comes before all that is left to do. -/
def Proxy.push (s : Proxy) (task : Task) : Proxy := { s with stack := task :: s.stack }

def Proxy.note (s : Proxy) (obtained : Obtained) : Proxy :=
  { s with obtained := s.obtained ++ [obtained] }

def Proxy.setTargets (s : Proxy) (targets : List String) : Proxy := { s with targets := targets }

def Proxy.answers (s : Proxy) (responses : List Response) : Proxy :=
  { s with responses := s.responses ++ responses }

/-- An exception: nothing that is left is done. -/
def Proxy.raise (s : Proxy) : Proxy := { s with stack := [] }

/-! ### Reads of what a local application owns -/

/-- What `get_contents` answers at once: the targets, or the data that came with a token. -/
def Proxy.cached (o : Outside) (s : Proxy) (target : String) : Option Contents :=
  if target = "TARGETS" then
    if s.targets = [] then none
    else some ⟨"ATOM", 32, .bytes (stringsToXatoms o s.targets)⟩
  else Dict.get s.targetData target

/-- `weOwn` is the answer of `XGetSelectionOwner`. -/
def getContents (o : Outside) (s : Proxy) (weOwn : Bool) (target : String) (callback : Callback) :
    Proxy :=
  match s.cached o target with
  | some contents =>
      { s with calls := s.calls + 1 }.push (.complete ⟨s.calls, target, callback, contents, none⟩)
  | none =>
      if weOwn then
        { s with calls := s.calls + 1, owned := true }.push
          (.complete ⟨s.calls, target, callback, ⟨"", 0, .bytes []⟩, none⟩)
      else
        let requestId := s.localRequestCounter
        let request : LocalRequest := ⟨target, requestId, s.timers.next, s.calls, callback⟩
        let waiting := (Dict.get s.localRequests target).getD []
        { s with
          calls := s.calls + 1
          owned := false
          localRequestCounter := requestId + 1
          timers := s.timers.add (.getContents target requestId)
          localRequests := Dict.appendTo s.localRequests target request
          conversions :=
            -- one property carries one conversion
            if waiting = [] then s.conversions ++ [⟨s.offerEpoch, target⟩] else s.conversions }

/-- The callback of a request that was taken off the table. -/
def LocalRequest.complete (r : LocalRequest) (contents : Contents) : Task :=
  .complete ⟨r.call, r.target, r.callback, contents, some r.timer⟩

/-- What is given when there is nothing to give. -/
def emptyContents (target : String) : Contents :=
  if target = "TARGETS" then ⟨"ATOM", 32, .bytes []⟩ else ⟨"", 0, .bytes []⟩

def removeTimers (timers : Sources Timer) (states : List IncrementalData) : Sources Timer :=
  states.foldl (fun timers state =>
    if state.timer = 0 then timers else timers.remove state.timer) timers

/-- `reset_incr_data()` -/
def Proxy.resetAllIncrData (s : Proxy) : Proxy :=
  { s with timers := removeTimers s.timers (s.incrData.map Prod.snd), incrData := [] }

/-- `reset_incr_data(prop)` -/
def Proxy.resetIncrData (s : Proxy) (atom : Atom) : Proxy :=
  { s with
    timers := removeTimers s.timers (Dict.get s.incrData atom).toList
    incrData := Dict.erase s.incrData atom }

def invalidateLocalReads (s : Proxy) : Proxy :=
  let pending := s.localRequests.flatMap Prod.snd
  let s := { s with offerEpoch := s.offerEpoch + 1, localRequests := [] }.resetAllIncrData
  { s with stack := (pending.map fun r => r.complete (emptyContents r.target)) ++ s.stack }

def timeoutGetContents (s : Proxy) (target : String) (requestId : Nat) : Proxy :=
  match Dict.get s.localRequests target with
  | none => s
  | some requests =>
      match requests.find? (·.requestId = requestId) with
      | none => s
      | some r =>
          let rest := requests.filter (·.requestId ≠ requestId)
          { s with
            localRequests :=
              if rest = [] then Dict.erase s.localRequests target
              else Dict.set s.localRequests target rest }.push
            (r.complete (emptyContents target))

def gotLocalContents (o : Outside) (s : Proxy) (target dtype : String) (dformat : Nat)
    (data : Bytes) : Proxy :=
  match filterData o dtype data with
  | none => s.raise
  | some data =>
      match Dict.pop s.localRequests target with
      | none => s
      | some (requests, rest) =>
          { s with
            localRequests := rest
            stack := (requests.map fun r => r.complete ⟨dtype, dformat, .bytes data⟩) ++ s.stack }

/-! ### Properties -/

/-- A property as it is read: its type, its format and its data. -/
structure Property where
  dtype : String
  dformat : Nat
  data : Bytes

/-- `state.timer = timeout_add(1000, incr_data_timeout, prop)`, in the place of the timer before -/
def rescheduleIncrDataTimer (s : Proxy) (atom : Atom) (state : IncrementalData) : Proxy :=
  let timers := removeTimers s.timers [state]
  { s with
    timers := timers.add (.incrData atom)
    incrData := Dict.set s.incrData atom { state with timer := timers.next } }

def incrDataTimeout (s : Proxy) (atom : Atom) : Proxy :=
  { s with incrData := Dict.erase s.incrData atom }

/-- The property has been read in one piece. -/
def gotProperty (o : Outside) (s : Proxy) (atom : Atom) (p : Property) : Proxy :=
  let s := s.note (.read atom.epoch atom.target p.dtype p.dformat p.data)
  if atom.target = "TARGETS" then
    match xatomsToStrings o p.data with
    | none => s.raise
    | some targets => gotLocalContents o (s.setTargets targets) atom.target p.dtype p.dformat p.data
  else gotLocalContents o s atom.target p.dtype p.dformat p.data

/-- The first chunk has the type of the transfer. -/
def IncrementalData.typed (state : IncrementalData) (p : Property) : IncrementalData :=
  if state.dtype = "" then { state with dtype := p.dtype, dformat := p.dformat } else state

@[simp] theorem IncrementalData.typed_chunks (state : IncrementalData) (p : Property) :
    (state.typed p).chunks = state.chunks := by
  unfold IncrementalData.typed
  split <;> rfl

@[simp] theorem IncrementalData.typed_timer (state : IncrementalData) (p : Property) :
    (state.typed p).timer = state.timer := by
  unfold IncrementalData.typed
  split <;> rfl

/-- The property is a part of an incremental transfer. -/
def gotIncremental (o : Outside) (s : Proxy) (atom : Atom) (state : IncrementalData) (p : Property) :
    Proxy :=
  let state := state.typed p
  if (state.dtype, state.dformat) ≠ (p.dtype, p.dformat) then
    gotLocalContents o (s.resetIncrData atom) atom.target "" 0 []
  else if p.data ≠ [] then
    rescheduleIncrDataTimer s atom { state with chunks := state.chunks ++ [p.data] }
  else
    let data := state.chunks.flatten
    let s := (s.resetIncrData atom).note (.read atom.epoch atom.target p.dtype p.dformat data)
    gotLocalContents o s atom.target p.dtype p.dformat data

/-- `none` is a property that cannot be read. -/
def doPropertyNotify (o : Outside) (s : Proxy) (atom : Atom) (property : Option Property) : Proxy :=
  if s.enabled = false then s
  else if atom.epoch ≠ s.offerEpoch then s
  else
    match property with
    | none => s
    | some p =>
        match Dict.get s.incrData atom with
        | some state => gotIncremental o s atom state p
        | none =>
            if p.dtype = "INCR" then
              match p.dformat, unpackLongs p.data with
              | 32, some [size] => rescheduleIncrDataTimer s atom { size := size }
              | _, _ => s.raise
            else gotProperty o s atom p

/-! ### Tokens -/

def Proxy.current (s : Proxy) (offer : Offer) : Prop :=
  offer.epoch = s.offerEpoch ∧ s.owned = false

instance (s : Proxy) (offer : Offer) : Decidable (s.current offer) :=
  inferInstanceAs (Decidable (_ ∧ _))

/-- `emit("send-clipboard-token", ..)` -/
def Proxy.sendToken (s : Proxy) (token : Option Token) : Proxy :=
  { s with haveToken := false, tokens := s.tokens ++ [token] }

/-- The offer gets a number, that of the one before when it is the same copy. -/
def offerMetadata (s : Proxy) (otargets : List String) (target : String) (data : PyVal)
    (files : List String) : Proxy :=
  let oldTargets := s.offerLastTargets
  let expanding := oldTargets ≠ [] && oldTargets.all (otargets.contains ·) &&
    !otargets.all (oldTargets.contains ·)
  let sameEvent := s.offerSelectionTimestamp ≠ 0 &&
    s.offerSelectionTimestamp == s.offerTokenTimestamp
  let content := if target = "" then [] else contentBytes data
  let contentChanged := target == s.offerLastTarget && content ≠ [] && s.offerLastContent ≠ [] &&
    content ≠ s.offerLastContent
  let sameFiles := files ≠ [] && files == s.offerLastFiles
  let continuation := expanding && sameFiles && !contentChanged
  let newOffer := s.offerOwnerXid ≠ s.offerTokenOwnerXid ||
    (oldTargets ≠ [] && !continuation && !sameEvent) || contentChanged ||
    (files ≠ [] && s.offerLastFiles ≠ [] && files ≠ s.offerLastFiles)
  { s with
    offerId := if newOffer then s.offerId + 1 else s.offerId
    offerTokenOwnerXid := s.offerOwnerXid
    offerTokenTimestamp := s.offerSelectionTimestamp
    offerLastTargets := otargets
    offerLastContent := if newOffer || content ≠ [] then content else s.offerLastContent
    offerLastTarget := if newOffer || content ≠ [] then target else s.offerLastTarget
    offerLastFiles := if newOffer || files ≠ [] then files else s.offerLastFiles }

def sendTokenWithTargets (s : Proxy) (offer : Offer) (files : List String) : Proxy :=
  if s.current offer then
    let s := offerMetadata s s.targets "" (.bytes []) files
    s.sendToken (some ⟨s.offerEpoch, s.targets, none, offer.sourceMetadata, s.offerId⟩)
  else s

def gotChosenTarget (s : Proxy) (offer : Offer) (otargets : List String) (target : String)
    (files : List String) (contents : Contents) : Proxy :=
  if s.current offer then
    if contents.dtype ≠ "" ∧ contents.dformat ≠ 0 ∧ contents.data.truthy = true then
      let s := offerMetadata s otargets target contents.data files
      s.sendToken
        (some ⟨s.offerEpoch, otargets, some (target, contents), offer.sourceMetadata, s.offerId⟩)
    else sendTokenWithTargets s offer files
  else s

def gotFiles (o : Outside) (s : Proxy) (weOwn : Bool) (offer : Offer) (otargets : List String)
    (target : String) (contents : Contents) : Proxy :=
  if s.current offer then
    let files := if contents.dformat = 8 then o.fileUris contents.data else []
    if target = "text/uri-list" then gotChosenTarget s offer otargets target files contents
    else getContents o s weOwn target (.gotChosenTarget offer otargets target files)
  else s

def chooseTargets (preferredTargets targets : List String) : List String :=
  if preferredTargets = [] then
    -- prefer a text target
    let text := targets.filter (textTargets.contains ·)
    if text = [] then targets else text
  else
    let fmts := ["image/png", "image/jpeg"].filter fun fmt =>
      targets.contains fmt && preferredTargets.contains fmt
    let common := preferredTargets.filter (targets.contains ·)
    let text := common.filter (textTargets.contains ·)
    if fmts ≠ [] then fmts else if text ≠ [] then text else common

def withTargets (o : Outside) (s : Proxy) (weOwn : Bool) (offer : Offer) (otargets : List String) :
    Proxy :=
  if s.current offer then
    if s.greedyClient = false then sendTokenWithTargets s offer []
    else
      match chooseTargets s.preferredTargets otargets with
      | [] => sendTokenWithTargets s offer []
      | target :: _ =>
          if "text/uri-list" ∈ otargets then
            getContents o s weOwn "text/uri-list" (.gotFiles offer otargets target)
          else getContents o s weOwn target (.gotChosenTarget offer otargets target [])
  else s

def gotTargets (o : Outside) (s : Proxy) (weOwn : Bool) (offer : Offer) (contents : Contents) :
    Proxy :=
  if s.current offer then
    if contents.dtype ≠ "ATOM" ∨ contents.dformat ≠ 32 then sendTokenWithTargets s offer []
    else
      -- data of format 32 is a whole number of atoms
      let targets := (xatomsToStrings o (memoryviewToBytes o contents.data)).getD []
      withTargets o (s.setTargets targets) weOwn offer targets
  else s

def setLocalClipboardOrigin (s : Proxy) (identity : String) : Proxy :=
  if identity = "" then
    { s with
      originCounter := s.originCounter + 1
      clipboardOrigin := s.originNamespace ++ ":" ++ s.selection ++ ":" ++ toString (s.originCounter + 1) }
  else { s with clipboardOrigin := s.originNamespace ++ ":" ++ s.selection ++ ":" ++ identity }

/-- `get_clipboard_token_metadata` makes sure that there is an origin. -/
def getClipboardTokenMetadata (s : Proxy) : Proxy :=
  if s.clipboardOrigin = "" then setLocalClipboardOrigin s "" else s

def scheduleEmitToken (o : Outside) (s : Proxy) (weOwn : Bool) : Proxy :=
  let s := getClipboardTokenMetadata s
  let offer : Offer := ⟨s.offerEpoch, s.clipboardOrigin⟩
  let s := s.note (.origin s.offerEpoch s.clipboardOrigin)
  if s.wantTargets = false ∧ s.greedyClient = false then s.sendToken none
  else if s.targets ≠ [] then withTargets o s weOwn offer s.targets
  else getContents o s weOwn "TARGETS" (.gotTargets offer)

/-- `do_owner_changed`, once the reads are invalidated -/
def ownerChanged (o : Outside) (s : Proxy) (weOwn : Bool) : Proxy :=
  let s := { s with targetData := [] }.setTargets []
  if s.enabled = false ∨ s.blockOwnerChange ≠ 0 then s
  else if s.haveToken = true ∨ ((s.greedyClient = true ∨ s.wantTargets = true) ∧ s.canSend = true) then
    scheduleEmitToken o s weOwn
  else s

def doOwnerChanged (s : Proxy) : Proxy := invalidateLocalReads (s.push .ownerChanged)

def doSelectionClearEvent (s : Proxy) : Proxy :=
  if s.enabled = false then s else doOwnerChanged { s with owned := false }

/-- `owner` is 0 when there is no owner. -/
def doSelectionNotifyEvent (s : Proxy) (owner timestamp : Nat) : Proxy :=
  let s := { s with owned := decide (owner ≠ 0 ∧ owner = s.xid) }
  if s.enabled = false then s
  else if owner = 0 then doOwnerChanged s
  else if s.owned = true ∨ s.canSend = false then s
  else
    let s := setLocalClipboardOrigin s ("x11:" ++ String.ofList (Nat.toDigits 16 owner))
    doOwnerChanged { s with offerOwnerXid := owner, offerSelectionTimestamp := timestamp }

/-! ### Requests of other applications -/

/-- `XChangeProperty` takes data of this format. -/
def fits (dformat : Nat) (data : Bytes) : Bool :=
  dformat = 8 || (dformat = 16 && data.length % 2 = 0) || (dformat = 32 && data.length % 8 = 0)

/-- `none` when the property cannot be set -/
def setSelectionResponse (o : Outside) (s : Proxy) (number : Option Nat) (requestor : Nat)
    (target prop dtype : String) (dformat : Nat) (data : PyVal) (time : Nat) : Option Proxy :=
  if prop = "" then some s
  else
    match data with
    | .none =>
        some (s.answers [⟨number, requestor, target, "", dtype, dformat, none, time⟩])
    | data =>
        let bytes := memoryviewToBytes o data
        if fits dformat bytes = true then
          some (s.answers [⟨number, requestor, target, prop, dtype, dformat, some bytes, time⟩])
        else none

/-- The loop of `got_contents`. -/
def respondAll (o : Outside) (s : Proxy) (target dtype : String) (dformat : Nat) (data : PyVal) :
    List RemoteRequest → Proxy
  | [] => s
  | r :: pending =>
      if dtype = "" ∨ dformat = 0 then
        match setSelectionResponse o s (some r.number) r.requestor r.target r.prop dtype dformat .none
            r.time with
        | none => s.raise
        | some s => respondAll o s target dtype dformat data pending
      else
        let dtype := if r.target ≠ target ∧ dtype = target then r.target else dtype
        match setSelectionResponse o s (some r.number) r.requestor r.target r.prop dtype dformat data
            r.time with
        | none => s.raise
        | some s => respondAll o s target dtype dformat data pending

def popAndRespond (o : Outside) (s : Proxy) (target : String) (contents : Contents) : Proxy :=
  match Dict.pop s.remoteRequests target with
  | none => s
  | some (pending, rest) =>
      respondAll o { s with remoteRequests := rest } target contents.dtype contents.dformat
        contents.data pending

/-- `xatoms_to_strings(data)`; anything but bytes is a `TypeError` -/
def targetsOf (o : Outside) : PyVal → Option (List String)
  | .bytes data | .memoryview data => xatomsToStrings o data
  | _ => none

/-- The peer has the contents, that it was asked for in an epoch, or a token has them. -/
def gotContents (o : Outside) (s : Proxy) (asked : Nat) (target : String) (contents : Contents) : Proxy :=
  if target = "TARGETS" ∧ contents.dtype = "ATOM" ∧ contents.dformat = 32 then
    match targetsOf o contents.data with
    | none => s.raise
    | some targets =>
        popAndRespond o ((s.setTargets targets).note (.remoteTargets asked targets)) target
          contents
  else popAndRespond o s target contents

/-- The request of an application; `blocklisted` when its window names such a client. -/
structure SelectionRequest where
  requestor : Nat
  target : String
  prop : String
  time : Nat
  blocklisted : Bool

def Proxy.wait (s : Proxy) (target : String) (event : SelectionRequest) : Proxy :=
  { s with
    remoteRequests := Dict.appendTo s.remoteRequests target
      ⟨s.remoteRequestCounter, event.requestor, event.target, event.prop, event.time⟩
    remoteRequestCounter := s.remoteRequestCounter + 1 }

def Proxy.ask (s : Proxy) (target : String) : Proxy :=
  { s with requested := s.requested ++ [(s.offerEpoch, target)] }

def doSelectionRequestEvent (o : Outside) (s : Proxy) (event : SelectionRequest) : Proxy :=
  let respond (dtype : String) (dformat : Nat) (data : PyVal) : Proxy :=
    (setSelectionResponse o s none event.requestor event.target event.prop dtype dformat data
      event.time).getD s.raise
  let nodata := respond "STRING" 8 (.bytes [])
  if event.requestor = 0 ∨ event.target = "" ∨ event.prop = "" then s
  else if s.enabled = false then nodata
  else if event.blocklisted = true then s
  else if s.owned = false ∨ s.canReceive = false ∨ mustDiscard event.target = true then nodata
  else if event.target = "TARGETS" then
    if s.targets ≠ [] then respond "ATOM" 32 (.bytes (stringsToXatoms o s.targets))
    else
      let s := if (Dict.get s.remoteRequests "TARGETS").isSome = true then s else s.ask "TARGETS"
      s.wait "TARGETS" event
  else
    let translated := ((translatedTargets.lookup event.target).getD []).filter (s.targets.contains ·)
    let unknown := s.targets ≠ [] ∧ event.target ∉ s.targets
    if unknown ∧ translated = [] ∧ mustDiscardExtra event.target = true then nodata
    else
      let target := if unknown then translated.headD event.target else event.target
      match Dict.get s.targetData target, s.haveToken with
      | some contents, true => respond contents.dtype contents.dformat contents.data
      | _, _ =>
          let waiting := (Dict.get s.remoteRequests target).getD []
          let s := if waiting = [] then s.ask target else s
          s.wait target event

/-! ### The peer takes the selection, and the end of the proxy -/

def gotToken (s : Proxy) (targets : List String) (targetData : List (String × Contents))
    (claim synchronousClient : Bool) : Proxy :=
  if s.enabled = false then s
  else invalidateLocalReads (s.push (.tokenReceived targets targetData claim synchronousClient))

/-- Those who wait for what the token has are answered, and the selection is claimed. -/
def claimTasks (o : Outside) (targets : List String) (targetData : List (String × Contents))
    (synchronousClient : Bool) : List Task :=
  let text := targetData.filter (textTargets.contains ·.1)
  let announce := if targets = [] then []
    else [Task.gotContents "TARGETS" ⟨"ATOM", 32, .bytes (stringsToXatoms o targets)⟩]
  let answer := if synchronousClient = false then []
    else (text.take 1).map fun entry => Task.gotContents entry.1 entry.2
  announce ++ answer ++ [.claim]

/-- `got_token`, once the reads are invalidated -/
def tokenReceived (o : Outside) (s : Proxy) (targets : List String)
    (targetData : List (String × Contents)) (claim synchronousClient : Bool) : Proxy :=
  let s := { s with
    offerLastTargets := [], offerLastContent := [], offerLastTarget := "", offerLastFiles := []
    offerTokenOwnerXid := 0
    haveToken := s.haveToken || claim }
  if s.canReceive = false then s
  else
    let targets := targets ++ targetData.map Prod.fst
    let s := { s with targetData := targetData }.setTargets targets
    if claim = false then s
    else
      { s with stack := claimTasks o targets targetData synchronousClient ++ s.stack }

/-- The selection is ours when the X server says so. -/
def claim (s : Proxy) (weOwn : Bool) : Proxy := { s with owned := weOwn }

/-- `for target in rr: self.got_contents(target)` -/
def gotNothing (o : Outside) : Proxy → List String → Proxy
  | s, [] => s
  | s, target :: rr => gotNothing o (gotContents o s s.offerEpoch target {}) rr

def cleanup (o : Outside) (s : Proxy) : Proxy :=
  let s := s.resetAllIncrData
  let rr := s.remoteRequests.map Prod.fst
  let s := gotNothing o { s with remoteRequests := [] } rr
  let lr := s.localRequests.map Prod.fst
  { s with localRequests := [], stack := lr.map Task.gotLocalContents ++ s.stack }

/-! ### Runs -/

/-- A callback is called. -/
def complete (o : Outside) (s : Proxy) (weOwn : Bool) (completion : Completion) : Proxy :=
  let s := { s with
    timers := completion.timer.elim s.timers s.timers.remove
    completed := s.completed ++ [completion] }
  match completion.callback with
  | .caller n => s.push (.running n)
  | .gotTargets offer => gotTargets o s weOwn offer completion.contents
  | .gotFiles offer otargets target => gotFiles o s weOwn offer otargets target completion.contents
  | .gotChosenTarget offer otargets target files =>
      gotChosenTarget s offer otargets target files completion.contents

/-- The next task is done; a callback that is running returns. -/
def Task.run (o : Outside) (s : Proxy) (weOwn : Bool) : Task → Proxy
  | .complete completion => Selection.complete o s weOwn completion
  | .running _ => s
  | .ownerChanged => Selection.ownerChanged o s weOwn
  | .tokenReceived targets targetData claims synchronousClient =>
      Selection.tokenReceived o s targets targetData claims synchronousClient
  | .gotContents target contents => Selection.gotContents o s s.offerEpoch target contents
  | .gotLocalContents target => Selection.gotLocalContents o s target "" 8 []
  | .claim => Selection.claim s weOwn

inductive Action
  /-- what is left to do goes on; `weOwn` is what the X server says -/
  | proceed (weOwn : Bool)
  | getContents (target : String) (n : Nat) (weOwn : Bool)
  | gotToken (targets : List String) (targetData : List (String × Contents))
      (claim synchronousClient : Bool)
  /-- the peer replies to what it was asked for in this epoch -/
  | gotContents (asked : Nat) (target : String) (contents : Contents)
  | claim (weOwn : Bool)
  | cleanup
  | setEnabled (enabled : Bool)
  | setDirection (canSend canReceive : Bool)
  | setWantTargets (wantTargets : Bool)
  | setGreedyClient (greedy : Bool)
  | setPreferredTargets (preferredTargets : List String)
  /-- the callback that is running raises -/
  | raised
  | selectionRequest (event : SelectionRequest)
  | selectionNotify (owner timestamp : Nat)
  | selectionClear
  | propertyNotify (atom : Atom) (property : Option Property)
  | timeout (source : Nat) (timer : Timer)

/-- Callers of the proxy run: nothing is left to do, or a callback of theirs is running. -/
def Proxy.Called (s : Proxy) : Prop := s.stack = [] ∨ ∃ n rest, s.stack = .running n :: rest

/-- A timer expires. -/
def Timer.run (s : Proxy) : Timer → Proxy
  | .getContents target requestId => timeoutGetContents s target requestId
  | .incrData atom => incrDataTimeout s atom

/-- What an action does, when it can happen. -/
def step (o : Outside) (s : Proxy) (a : Action) (s' : Proxy) : Prop :=
  match a with
  | .proceed weOwn => ∃ task rest, s.stack = task :: rest ∧ s' = task.run o { s with stack := rest } weOwn
  | .getContents target n weOwn => s.Called ∧ s' = Selection.getContents o s weOwn target (.caller n)
  | .gotToken targets targetData claim synchronousClient =>
      s.Called ∧ s' = Selection.gotToken s targets targetData claim synchronousClient
  | .gotContents asked target contents =>
      s.Called ∧ s' = Selection.gotContents o s asked target contents
  | .claim weOwn => s.Called ∧ s' = Selection.claim s weOwn
  | .cleanup => s.Called ∧ s' = Selection.cleanup o s
  | .setEnabled enabled => s.Called ∧ s' = { s with enabled := enabled }
  | .setDirection canSend canReceive =>
      s.Called ∧ s' = { s with canSend := canSend, canReceive := canReceive }
  | .setWantTargets wantTargets => s.Called ∧ s' = { s with wantTargets := wantTargets }
  | .setGreedyClient greedy => s.Called ∧ s' = { s with greedyClient := greedy }
  | .setPreferredTargets preferredTargets =>
      s.Called ∧ s' = { s with preferredTargets := preferredTargets }
  | .raised => (∃ n rest, s.stack = .running n :: rest) ∧ s' = s.raise
  -- the events of the X server and the timers come from the main loop
  | .selectionRequest event => s.stack = [] ∧ s' = doSelectionRequestEvent o s event
  | .selectionNotify owner timestamp => s.stack = [] ∧ s' = doSelectionNotifyEvent s owner timestamp
  | .selectionClear => s.stack = [] ∧ s' = doSelectionClearEvent s
  | .propertyNotify atom property => s.stack = [] ∧ s' = doPropertyNotify o s atom property
  | .timeout source timer =>
      s.stack = [] ∧ (source, timer) ∈ s.timers.sources ∧
        s' = timer.run { s with timers := s.timers.remove source }

/-- A proxy as it is made. -/
def newProxy (xid : Nat) (selection originNamespace : String) : Proxy where
  xid := xid
  selection := selection
  originNamespace := originNamespace

def initial (s : Proxy) : Prop :=
  ∃ xid selection originNamespace, s = newProxy xid selection originNamespace

end Catlink.X11.Selection
