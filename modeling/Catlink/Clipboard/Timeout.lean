import Catlink.Lib.Dict
import Catlink.Lib.MainLoop
import Catlink.Lib.Runs
import Catlink.Python

/-! Requests for the contents of the remote clipboard, and the ways they end. -/

namespace Catlink.Clipboard

open MainLoop Runs

/-- An entry of `_clipboard_outstanding_requests`. -/
structure Request where
  timer : Nat
  selection : String
  target : String

/-- What is given to whoever waits for the contents. -/
structure Contents where
  dtype : String := ""
  dformat : Nat := 0
  data : PyVal := .none

/-- A request is completed: the non-text callback accepts the contents, or `got_contents` of the
proxy is called with them. -/
structure Completion where
  requestId : Nat
  nontext : Bool
  selection : String
  target : String
  contents : Contents

/-- What `nontext_callback` makes of the contents. -/
inductive NontextResult
  | accepts
  | declines
  | raises
  deriving DecidableEq

/-- The fields of `ClipboardTimeoutHelper` that requests use. -/
structure Helper where
  clipboardRequestCounter : Nat
  clipboardOutstandingRequests : List (Nat × Request)
  /-- the selections that have a proxy, with a `got_contents` method -/
  clipboardProxies : List String
  localToRemote : List (String × String)
  nontextCallback : Bool
  /-- `send` is not `noop` -/
  sending : Bool
  /-- the timers that are armed, each for a request -/
  timers : Sources Nat
  /-- the `clipboard-request` packets sent: the request, the remote selection and the target -/
  sent : List (Nat × String × String)
  completed : List Completion

def Helper.remote (s : Helper) (selection : String) : String :=
  (s.localToRemote.lookup selection).getD selection

def sendClipboardRequestHandler (s : Helper) (selection target : String) : Helper :=
  let requestId := s.clipboardRequestCounter
  { s with
    clipboardRequestCounter := s.clipboardRequestCounter + 1
    timers := s.timers.add requestId
    clipboardOutstandingRequests :=
      Dict.set s.clipboardOutstandingRequests requestId ⟨s.timers.next, selection, target⟩
    sent := if s.sending then s.sent ++ [(requestId, s.remote selection, target)] else s.sent }

/-- `if data and isinstance(data, memoryview)` -/
def toBytes : PyVal → PyVal
  | .memoryview data => if data = [] then .memoryview data else .bytes data
  | data => data

/-- The end of `timeout_request` and of `_clipboard_got_contents`. -/
def giveContents (s : Helper) (nontext : NontextResult) (requestId : Nat) (r : Request)
    (contents : Contents) : Helper :=
  if s.nontextCallback ∧ nontext = .accepts then
    { s with completed := s.completed ++ [⟨requestId, true, r.selection, r.target, contents⟩] }
  else if r.selection ∈ s.clipboardProxies then
    { s with completed := s.completed ++ [⟨requestId, false, r.selection, r.target,
        { contents with data := toBytes contents.data }⟩] }
  else s

def timeoutRequest (s : Helper) (nontext : NontextResult) (requestId : Nat) : Helper :=
  match Dict.pop s.clipboardOutstandingRequests requestId with
  | none => s
  | some (r, rest) =>
      giveContents { s with clipboardOutstandingRequests := rest } nontext requestId r {}

def clipboardGotContents (s : Helper) (nontext : NontextResult) (requestId : Nat)
    (contents : Contents) : Helper :=
  match Dict.pop s.clipboardOutstandingRequests requestId with
  -- already timed out or duplicate reply
  | none => s
  | some (r, rest) =>
      giveContents { s with clipboardOutstandingRequests := rest, timers := s.timers.remove r.timer }
        nontext requestId r contents

/-- `for request_id in ..: self._clipboard_got_contents(request_id)` -/
def gotNothing (nontext : Nat → NontextResult) : Helper → List Nat → Helper
  | s, [] => s
  | s, requestId :: ids => gotNothing nontext (clipboardGotContents s (nontext requestId) requestId {}) ids

def clientReset (s : Helper) (nontext : Nat → NontextResult) : Helper :=
  let cor := s.clipboardOutstandingRequests
  if cor = [] then s
  else gotNothing nontext { s with clipboardOutstandingRequests := [] } (cor.map Prod.fst)

def cleanup (s : Helper) (nontext : Nat → NontextResult) : Helper :=
  -- reply to outstanding requests with "no data"
  let s := gotNothing nontext s (s.clipboardOutstandingRequests.map Prod.fst)
  { s with clipboardOutstandingRequests := [], sending := false, clipboardProxies := [] }

/-! ### Runs -/

inductive Action
  /-- `_send_clipboard_request_handler` -/
  | request (selection target : String)
  /-- a reply from the peer, for a request or for none -/
  | contents (requestId : Nat) (contents : Contents) (nontext : NontextResult)
  /-- a timer expires -/
  | timeout (source requestId : Nat) (nontext : NontextResult)
  | clientReset (nontext : Nat → NontextResult)
  | cleanup (nontext : Nat → NontextResult)

/-- What an action does, when it can happen. -/
def step (s : Helper) (a : Action) (s' : Helper) : Prop :=
  match a with
  | .request selection target => s' = sendClipboardRequestHandler s selection target
  | .contents requestId contents nontext => s' = clipboardGotContents s nontext requestId contents
  | .timeout source requestId nontext =>
      (source, requestId) ∈ s.timers.sources ∧
        s' = timeoutRequest { s with timers := s.timers.remove source } nontext requestId
  | .clientReset nontext => s' = clientReset s nontext
  | .cleanup nontext => s' = cleanup s nontext

def initial (s : Helper) : Prop :=
  s.clipboardRequestCounter = 0 ∧ s.clipboardOutstandingRequests = [] ∧ s.completed = [] ∧
    s.timers.sources = []

/-- Someone takes what the request is given: the non-text callback or a proxy. -/
def Helper.Serves (s : Helper) (nontext : NontextResult) (r : Request) : Prop :=
  (s.nontextCallback = true ∧ nontext = .accepts) ∨ r.selection ∈ s.clipboardProxies

/-- The same, of the request with this number, when it is outstanding. -/
def Helper.ServesId (s : Helper) (nontext : NontextResult) (requestId : Nat) : Prop :=
  ∀ r, (requestId, r) ∈ s.clipboardOutstandingRequests → s.Serves nontext r

/-- The reset finds no request, and a request that ends has someone to give the contents to. -/
def Clean (s : Helper) : Action → Prop
  | .request _ _ => True
  | .contents requestId _ nontext | .timeout _ requestId nontext => s.ServesId nontext requestId
  | .clientReset _ => s.clipboardOutstandingRequests = []
  | .cleanup nontext => ∀ requestId, s.ServesId (nontext requestId) requestId

/-! ### What a run keeps -/

/-- Every request ever made is outstanding or completed, once, and has a timer as long as it is
outstanding. -/
structure Accounted (s : Helper) : Prop where
  once : (s.completed.map Completion.requestId ++ s.clipboardOutstandingRequests.map Prod.fst).Perm
    (List.range s.clipboardRequestCounter)
  timers : ∀ source requestId, (source, requestId) ∈ s.timers.sources ↔
    ∃ r, (requestId, r) ∈ s.clipboardOutstandingRequests ∧ r.timer = source

variable {s s' : Helper}

theorem Accounted.distinct (accounted : Accounted s) :
    (s.clipboardOutstandingRequests.map Prod.fst).Nodup :=
  (List.nodup_append.mp (accounted.once.nodup_iff.mpr List.nodup_range)).2.1

theorem Accounted.below (accounted : Accounted s) {entry : Nat × Request}
    (member : entry ∈ s.clipboardOutstandingRequests) : entry.1 < s.clipboardRequestCounter := by
  have known : entry.1 ∈ s.completed.map Completion.requestId ++
      s.clipboardOutstandingRequests.map Prod.fst :=
    List.mem_append_right _ (List.mem_map_of_mem member)
  exact List.mem_range.mp (accounted.once.mem_iff.mp known)

/-- Two requests have two timers. -/
theorem Accounted.timer_unique (accounted : Accounted s) {one two : Nat × Request}
    (first : one ∈ s.clipboardOutstandingRequests) (second : two ∈ s.clipboardOutstandingRequests)
    (same : one.2.timer = two.2.timer) : one.1 = two.1 := by
  have here := (accounted.timers one.2.timer one.1).mpr ⟨one.2, first, rfl⟩
  have there := (accounted.timers two.2.timer two.1).mpr ⟨two.2, second, rfl⟩
  rw [← same] at there
  exact Sources.callback_unique here there

theorem request_accounted (accounted : Accounted s) (selection target : String) :
    Accounted (sendClipboardRequestHandler s selection target) := by
  have fresh : ∀ entry ∈ s.clipboardOutstandingRequests, entry.1 ≠ s.clipboardRequestCounter := by
    intro entry member
    have below := accounted.below member
    omega
  have table := Dict.set_new fresh ⟨s.timers.next, selection, target⟩
  constructor
  · simp only [sendClipboardRequestHandler, table, List.map_append, List.map_cons, List.map_nil,
      List.range_succ, ← List.append_assoc]
    exact accounted.once.append_right _
  · intro source requestId
    simp only [sendClipboardRequestHandler, table, Sources.mem_add, List.mem_append,
      List.mem_singleton, Prod.mk.injEq, accounted.timers]
    constructor
    · rintro (⟨r, member, timer⟩ | ⟨rfl, rfl⟩)
      · exact ⟨r, .inl member, timer⟩
      · exact ⟨⟨s.timers.next, selection, target⟩, .inr ⟨rfl, rfl⟩, rfl⟩
    · rintro ⟨r, member | ⟨rfl, rfl⟩, rfl⟩
      · exact .inl ⟨r, member, rfl⟩
      · exact .inr ⟨rfl, rfl⟩

/-- The contents given are these, up to the copy of a `memoryview`. -/
def Completion.Gives (x : Completion) (contents : Contents) : Prop :=
  x.contents.dtype = contents.dtype ∧ x.contents.dformat = contents.dformat ∧
    (x.contents.data = contents.data ∨ x.contents.data = toBytes contents.data)

/-- Whoever waits is given the contents, and nothing else changes. -/
theorem giveContents_completes {nontext : NontextResult} (requestId : Nat) {r : Request}
    (contents : Contents) (serves : s.Serves nontext r) :
    ∃ x : Completion, giveContents s nontext requestId r contents =
        { s with completed := s.completed ++ [x] } ∧
      x.requestId = requestId ∧ x.Gives contents := by
  unfold giveContents
  by_cases accepted : s.nontextCallback ∧ nontext = .accepts
  · rw [if_pos accepted]
    exact ⟨_, rfl, rfl, rfl, rfl, .inl rfl⟩
  · rw [if_neg accepted, if_pos (serves.resolve_left accepted)]
    exact ⟨_, rfl, rfl, rfl, rfl, .inr rfl⟩

/-- A request that is taken off the table together with its timer, and completed. -/
theorem popped_accounted (accounted : Accounted s) {requestId : Nat} {r : Request}
    {rest : List (Nat × Request)}
    (popped : Dict.pop s.clipboardOutstandingRequests requestId = some (r, rest))
    {nontext : NontextResult} (serves : s.Serves nontext r) (contents : Contents) :
    ∃ x : Completion, giveContents { s with
          clipboardOutstandingRequests := rest, timers := s.timers.remove r.timer }
        nontext requestId r contents = { s with
          clipboardOutstandingRequests := rest
          timers := s.timers.remove r.timer
          completed := s.completed ++ [x] } ∧
      x.Gives contents ∧ x.requestId = requestId ∧ Accounted { s with
          clipboardOutstandingRequests := rest
          timers := s.timers.remove r.timer
          completed := s.completed ++ [x] } := by
  have perm := Dict.pop_perm popped
  have others := Dict.mem_pop accounted.distinct popped
  have member : (requestId, r) ∈ s.clipboardOutstandingRequests :=
    perm.mem_iff.mpr List.mem_cons_self
  obtain ⟨x, given, same, gives⟩ := giveContents_completes
    (s := { s with clipboardOutstandingRequests := rest, timers := s.timers.remove r.timer })
    requestId contents serves
  refine ⟨x, given, gives, same, ?_, ?_⟩
  · have ids := perm.map Prod.fst
    simp only [List.map_append, List.map_cons, List.map_nil, same, List.append_assoc,
      List.singleton_append]
    rw [List.map_cons] at ids
    exact (ids.symm.append_left _).trans accounted.once
  · intro source id
    simp only [Sources.mem_remove, accounted.timers, others]
    constructor
    · rintro ⟨⟨r', here, rfl⟩, other⟩
      refine ⟨r', ⟨here, ?_⟩, rfl⟩
      rintro rfl
      have equal := List.inj_on_of_nodup_map accounted.distinct here member rfl
      cases equal
      exact other rfl
    · rintro ⟨r', ⟨here, other⟩, rfl⟩
      refine ⟨⟨r', here, rfl⟩, ?_⟩
      intro shared
      exact other (accounted.timer_unique here member shared)

theorem contents_accounted (accounted : Accounted s) {nontext : NontextResult} {requestId : Nat}
    (serves : s.ServesId nontext requestId) (contents : Contents) :
    Accounted (clipboardGotContents s nontext requestId contents) ∧
      ∃ new, (clipboardGotContents s nontext requestId contents).completed = s.completed ++ new ∧
        ∀ x ∈ new, x.requestId = requestId ∧ x.Gives contents := by
  unfold clipboardGotContents
  split
  · exact ⟨accounted, [], by simp, by simp⟩
  · next r rest popped =>
      have here : (requestId, r) ∈ s.clipboardOutstandingRequests :=
        (Dict.pop_perm popped).mem_iff.mpr List.mem_cons_self
      obtain ⟨x, given, gives, same, kept⟩ :=
        popped_accounted accounted popped (serves r here) contents
      rw [given]
      exact ⟨kept, [x], rfl, by simpa using ⟨same, gives⟩⟩

theorem timeout_accounted (accounted : Accounted s) {nontext : NontextResult}
    {source requestId : Nat} (serves : s.ServesId nontext requestId) (armed : (source, requestId) ∈ s.timers.sources) :
    let s' := timeoutRequest { s with timers := s.timers.remove source } nontext requestId
    Accounted s' ∧ ∃ new, s'.completed = s.completed ++ new ∧
      ∀ x ∈ new, x.requestId = requestId ∧ x.Gives {} := by
  obtain ⟨r', member, timer⟩ := (accounted.timers source requestId).mp armed
  dsimp only [timeoutRequest]
  split
  · next absent => exact absurd rfl (Dict.pop_none absent _ member)
  · next r rest popped =>
      have here : (requestId, r) ∈ s.clipboardOutstandingRequests :=
        (Dict.pop_perm popped).mem_iff.mpr List.mem_cons_self
      have equal := List.inj_on_of_nodup_map accounted.distinct here member rfl
      cases equal
      obtain ⟨x, given, gives, same, kept⟩ := popped_accounted accounted popped (serves _ here) {}
      rw [← timer, given]
      exact ⟨kept, [x], rfl, by simpa using ⟨same, gives⟩⟩

/-- After its reply a request is no longer outstanding, and no other request is touched. -/
theorem contents_pops (accounted : Accounted s) {nontext : NontextResult} {requestId : Nat}
    (serves : s.ServesId nontext requestId) (contents : Contents) (entry : Nat × Request) :
    entry ∈ (clipboardGotContents s nontext requestId contents).clipboardOutstandingRequests ↔
      entry ∈ s.clipboardOutstandingRequests ∧ entry.1 ≠ requestId := by
  unfold clipboardGotContents
  split
  · next absent =>
      constructor
      · intro member
        exact ⟨member, Dict.pop_none absent entry member⟩
      · exact And.left
  · next r rest popped =>
      have here : (requestId, r) ∈ s.clipboardOutstandingRequests :=
        (Dict.pop_perm popped).mem_iff.mpr List.mem_cons_self
      obtain ⟨x, given, _⟩ := popped_accounted accounted popped (serves r here) contents
      rw [given]
      exact Dict.mem_pop accounted.distinct popped entry

/-- What is given to one request changes nobody who takes what others are given. -/
theorem contents_serves (s : Helper) (nontext : NontextResult) (requestId : Nat) (contents : Contents)
    (other : NontextResult) (r : Request) :
    (clipboardGotContents s nontext requestId contents).Serves other r ↔ s.Serves other r := by
  unfold clipboardGotContents giveContents
  split
  · rfl
  · split
    · rfl
    · split <;> rfl

/-- Nothing is given to any of the requests listed, and they are all completed. -/
theorem gotNothing_accounted (accounted : Accounted s) {nontext : Nat → NontextResult}
    (serves : ∀ requestId, s.ServesId (nontext requestId) requestId) (ids : List Nat) :
    Accounted (gotNothing nontext s ids) ∧
      (∃ new, (gotNothing nontext s ids).completed = s.completed ++ new ∧ ∀ x ∈ new, x.Gives {}) ∧
      ∀ entry, entry ∈ (gotNothing nontext s ids).clipboardOutstandingRequests ↔
        entry ∈ s.clipboardOutstandingRequests ∧ entry.1 ∉ ids := by
  induction ids generalizing s with
  | nil => exact ⟨accounted, ⟨[], by simp [gotNothing], by simp⟩, by simp [gotNothing]⟩
  | cons requestId ids ih =>
      obtain ⟨kept, new, first, gives⟩ := contents_accounted accounted (serves requestId) {}
      have pops := contents_pops accounted (serves requestId) {}
      obtain ⟨all, ⟨later, rest, gives'⟩, left⟩ := ih kept (by
        intro id r member
        rw [contents_serves]
        exact serves id r ((pops _).mp member).1)
      refine ⟨all, ⟨new ++ later, ?_, ?_⟩, ?_⟩
      · rw [gotNothing, rest, first, List.append_assoc]
      · intro x member
        rcases List.mem_append.mp member with here | there
        · exact (gives x here).2
        · exact gives' x there
      · intro entry
        rw [gotNothing, left, pops]
        simp only [List.mem_cons, not_or, and_assoc]

/-- `client_reset` and `cleanup` -/
def Action.Closes : Action → Prop
  | .clientReset _ | .cleanup _ => True
  | _ => False

/-- What an action may give: a reply its own contents to its own request, everything else nothing. -/
def Action.Gives : Action → Completion → Prop
  | .contents requestId reply _, x => x.requestId = requestId ∧ x.Gives reply
  | .timeout _ requestId _, x => x.requestId = requestId ∧ x.Gives {}
  | _, x => x.Gives {}

theorem cleanup_accounted (accounted : Accounted s) {nontext : Nat → NontextResult}
    (serves : ∀ requestId, s.ServesId (nontext requestId) requestId) :
    Accounted (cleanup s nontext) ∧
      ∃ new, (cleanup s nontext).completed = s.completed ++ new ∧ ∀ x ∈ new, x.Gives {} := by
  obtain ⟨kept, given, left⟩ := gotNothing_accounted accounted serves
    (s.clipboardOutstandingRequests.map Prod.fst)
  have empty : (gotNothing nontext s (s.clipboardOutstandingRequests.map Prod.fst)
      ).clipboardOutstandingRequests = [] := by
    rw [List.eq_nil_iff_forall_not_mem]
    intro entry member
    obtain ⟨old, gone⟩ := (left entry).mp member
    exact gone (List.mem_map_of_mem old)
  refine ⟨?_, given⟩
  constructor
  · have once := kept.once
    rw [empty] at once
    exact once
  · intro source requestId
    have timers := kept.timers source requestId
    rw [empty] at timers
    exact timers

/-- One action of a run. -/
theorem step_accounted (accounted : Accounted s) {a : Action} (clean : Clean s a)
    (taken : step s a s') :
    Accounted s' ∧ (a.Closes → s'.clipboardOutstandingRequests = []) ∧
      ∃ new, s'.completed = s.completed ++ new ∧ ∀ x ∈ new, a.Gives x := by
  cases a with
  | request selection target =>
      cases taken
      exact ⟨request_accounted accounted selection target, False.elim, [],
        (List.append_nil _).symm, by simp⟩
  | contents requestId contents nontext =>
      cases taken
      obtain ⟨kept, given⟩ := contents_accounted accounted clean contents
      exact ⟨kept, False.elim, given⟩
  | timeout source requestId nontext =>
      obtain ⟨armed, rfl⟩ := taken
      obtain ⟨kept, given⟩ := timeout_accounted accounted clean armed
      exact ⟨kept, False.elim, given⟩
  | clientReset nontext =>
      have nothing : s.clipboardOutstandingRequests = [] := clean
      have same : clientReset s nontext = s := by
        simp only [clientReset, nothing, if_true]
      rw [step, same] at taken
      rw [taken]
      exact ⟨accounted, fun _ => nothing, [], (List.append_nil _).symm, by simp⟩
  | cleanup nontext =>
      cases taken
      obtain ⟨kept, given⟩ := cleanup_accounted accounted clean
      exact ⟨kept, fun _ => rfl, given⟩

theorem initial_accounted (first : initial s) : Accounted s := by
  obtain ⟨counter, table, none, timers⟩ := first
  constructor
  · rw [counter, table, none]
    exact List.Perm.refl _
  · intro source requestId
    simp [timers, table]

theorem Accounted.count (accounted : Accounted s) (requestId : Nat) :
    (s.completed.map Completion.requestId).count requestId =
      if requestId < s.clipboardRequestCounter ∧
        requestId ∉ s.clipboardOutstandingRequests.map Prod.fst then 1 else 0 := by
  have total := accounted.once.count_eq requestId
  rw [List.count_append] at total
  have range : (List.range s.clipboardRequestCounter).count requestId =
      if requestId < s.clipboardRequestCounter then 1 else 0 := by
    rw [List.nodup_range.count]
    simp
  have table : (s.clipboardOutstandingRequests.map Prod.fst).count requestId =
      if requestId ∈ s.clipboardOutstandingRequests.map Prod.fst then 1 else 0 :=
    accounted.distinct.count
  rw [range, table] at total
  split at total <;> split at total <;> split <;> grind

/-- In every run without a reset of outstanding requests, and whose requests are served: a request
is completed once it is no longer outstanding, and only once; a timer is armed for an outstanding
request only; a reset or cleanup leaves none outstanding; and what is given is what was replied to
this request, or nothing. -/
theorem requests_complete_once
    (run : Reachable initial (fun s a s' => Clean s a ∧ step s a s') s) :
    (∀ requestId, (s.completed.map Completion.requestId).count requestId =
      if requestId < s.clipboardRequestCounter ∧
        requestId ∉ s.clipboardOutstandingRequests.map Prod.fst then 1 else 0) ∧
    (∀ source requestId, (source, requestId) ∈ s.timers.sources →
      ∃ r, (requestId, r) ∈ s.clipboardOutstandingRequests ∧ r.timer = source) ∧
    ∀ a s', Clean s a → step s a s' →
      (a.Closes → s'.clipboardOutstandingRequests = []) ∧
      ∃ new, s'.completed = s.completed ++ new ∧ ∀ x ∈ new, a.Gives x := by
  have accounted : Accounted s := by
    refine run.invariant (fun _ => initial_accounted) ?_
    intro s a s' kept taken
    exact (step_accounted kept taken.1 taken.2).1
  refine ⟨accounted.count, fun source requestId => (accounted.timers source requestId).mp, ?_⟩
  intro a s' clean taken
  exact (step_accounted accounted clean taken).2

/-- A helper with one selection, that has not made a request. -/
def newHelper : Helper where
  clipboardRequestCounter := 0
  clipboardOutstandingRequests := []
  clipboardProxies := ["CLIPBOARD"]
  localToRemote := []
  nontextCallback := false
  sending := true
  timers := .start
  sent := []
  completed := []

/-- The only request, as it is made. -/
def requested : Helper := sendClipboardRequestHandler newHelper "CLIPBOARD" "TARGETS"

/-- After cleanup it is completed. -/
theorem requests_complete_once_cleanup :
    let s := cleanup requested fun _ => .declines
    (∀ requestId, (s.completed.map Completion.requestId).count requestId =
      if requestId < s.clipboardRequestCounter ∧
        requestId ∉ s.clipboardOutstandingRequests.map Prod.fst then 1 else 0) ∧
    (∀ source requestId, (source, requestId) ∈ s.timers.sources →
      ∃ r, (requestId, r) ∈ s.clipboardOutstandingRequests ∧ r.timer = source) ∧
    ∀ a s', Clean s a → step s a s' →
      (a.Closes → s'.clipboardOutstandingRequests = []) ∧
      ∃ new, s'.completed = s.completed ++ new ∧ ∀ x ∈ new, a.Gives x := by
  intro s
  have first : initial newHelper := ⟨rfl, rfl, rfl, rfl⟩
  have made : Reachable initial (fun s a s' => Clean s a ∧ step s a s') requested :=
    .next (.start first) (a := .request "CLIPBOARD" "TARGETS") ⟨trivial, rfl⟩
  have served : ∀ requestId, requested.ServesId .declines requestId := by
    intro requestId r member
    cases List.mem_singleton.mp member
    exact .inr (List.mem_singleton_self _)
  exact requests_complete_once (.next made (a := .cleanup fun _ => .declines) ⟨served, rfl⟩)

/-- A reset empties the table first: the request is never completed. -/
theorem not_requests_complete_once :
    ¬ ∀ s, Reachable initial step s →
      ∀ requestId, (s.completed.map Completion.requestId).count requestId =
        if requestId < s.clipboardRequestCounter ∧
          requestId ∉ s.clipboardOutstandingRequests.map Prod.fst then 1 else 0 := by
  intro once
  have first : initial newHelper := ⟨rfl, rfl, rfl, rfl⟩
  have made : Reachable initial step requested :=
    .next (.start first) (a := .request "CLIPBOARD" "TARGETS") rfl
  have lost := once _ (.next made (a := .clientReset fun _ => .declines) rfl) 0
  exact absurd lost (by decide)

end Catlink.Clipboard
