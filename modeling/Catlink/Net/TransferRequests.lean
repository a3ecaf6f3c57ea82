import Catlink.Lib.Runs
import Catlink.Net.FileTransfer
import Mathlib.Tactic

/-! Files and URLs that are only sent once the peer has accepted them. -/

namespace Catlink.FileTransfer

open MainLoop Runs

/-! ### The answers to a request -/

/-- `DENY` -/
def deny : Int := 0

/-- `ACCEPT`: the file or the URL will be sent -/
def accept : Int := 1

/-- `OPEN`: it is opened by the sender -/
def openIt : Int := 2

structure SendPendingData where
  datatype : String
  url : String
  mimetype : String
  data : Bytes
  filesize : Nat
  printit : Bool
  openit : Bool
  options : Options

inductive Message
  | sendDataRequest (sendId : String) (spd : SendPendingData)
  | sendDataResponse (sendId : String) (accept : Bool)
  | openUrl (url sendId : String)
  | requestFile (filename : String) (openit : Bool)

/-- What is opened at this end. -/
inductive Opened
  | file (filename : String)
  | url (url : String)

structure Requests where
  handler : Handler
  openUrl : Bool
  openUrlAsk : Bool
  pendingSendData : List (String × SendPendingData) := []
  pendingSendDataTimers : List (String × Nat) := []
  /-- `send_data_ask_timeout` by its request -/
  askTimers : Sources String := .start
  filesRequested : List (String × Bool) := []
  messages : List Message := []
  opened : List Opened := []
  raised : List Exn := []

namespace Requests

def send (s : Requests) (message : Message) : Requests :=
  { s with messages := s.messages ++ [message] }

def opens (s : Requests) (opened : Opened) : Requests := { s with opened := s.opened ++ [opened] }

def raise (s : Requests) (exn : Exn) : Requests := { s with raised := s.raised ++ [exn] }

end Requests

/-! ### Asking the peer -/

/-- `sendId` is the new `uuid4`; it is returned unless the request is dropped. -/
def sendDataRequest (s : Requests) (sendId : String) (spd : SendPendingData) : Requests × String :=
  if maxConcurrentFiles ≤ s.pendingSendData.length then (s, "")
  else
    let s := { s with
      pendingSendData := Dict.set s.pendingSendData sendId spd
      pendingSendDataTimers := Dict.set s.pendingSendDataTimers sendId s.askTimers.next
      askTimers := s.askTimers.add sendId }
    (s.send (.sendDataRequest sendId spd), sendId)

/-- `do_send_file` writes into the options it is given, unless they are empty. -/
def writtenOptions (o : Outside) (s : Handler) (chunkId : String) (spd : SendPendingData) : Options :=
  if spd.options.isEmpty = true ∨ checkFileSize s spd.filesize = false then spd.options
  else
    let options := Dict.set spd.options "sha256" (.str (o.hexdigest "sha256" spd.data))
    let chunkSize := min s.fileChunks s.remoteFileChunks
    if 0 < chunkSize ∧ chunkSize < spd.filesize ∧
        s.sendChunksInProgress.length < maxConcurrentFiles then
      Dict.set options "file-chunk-id" (.str chunkId)
    else options

/-- The data is sent, with `chunkId` for its chunks. -/
def sendPendingFile (o : Outside) (s : Requests) (chunkId sendId : String) (spd : SendPendingData) :
    Requests :=
  { s with
    handler := doSendFile o s.handler chunkId spd.url spd.mimetype spd.data spd.filesize spd.printit
      spd.openit spd.options sendId
    pendingSendData := Dict.set s.pendingSendData sendId
      { spd with options := writtenOptions o s.handler chunkId spd } }

/-- The timer of a request is not needed any more. -/
def cancelAskTimer (s : Requests) (sendId : String) : Requests :=
  { s with
    pendingSendDataTimers := Dict.erase s.pendingSendDataTimers sendId
    askTimers :=
      match Dict.get s.pendingSendDataTimers sendId with
      | some timer => s.askTimers.remove timer
      | none => s.askTimers }

/-- What the answer says is done. -/
def answerPending (o : Outside) (s : Requests) (chunkId sendId : String) (answer : Int)
    (spd : SendPendingData) : Requests :=
  if answer = deny then s
  else if answer ≠ accept ∧ answer ≠ openIt then
    s.raise (.valueError ("unknown value for send-data response: " ++ toString answer))
  else if spd.datatype = "file" then
    if answer = accept then sendPendingFile o s chunkId sendId spd
    else if spd.openit = false then s.raise (.assertionError "")
    else s.opens (.file spd.url)
  else if spd.datatype = "url" then
    if answer = accept then s.send (.openUrl spd.url sendId)
    else s.opens (.url spd.url)
  else s

/-- The answer does not fit `get_i8`. -/
def Invalid (answer : Int) : Prop := answer < -2 ^ 7 ∨ 2 ^ 7 ≤ answer

instance (answer : Int) : Decidable (Invalid answer) := inferInstanceAs (Decidable (_ ∨ _))

def processSendDataResponse (o : Outside) (s : Requests) (chunkId sendId : String) (answer : Int) :
    Requests :=
  if Invalid answer then s.raise (.valueError ("invalid i8 value " ++ toString answer))
  else
    let s := cancelAskTimer s sendId
    match Dict.get s.pendingSendData sendId with
    | none => s
    | some spd => answerPending o s chunkId sendId answer spd

/-- `send_data_ask_timeout`, from the timer with this number. -/
def askTimeout (s : Requests) (timer : Nat) (sendId : String) : Requests :=
  { s with
    askTimers := s.askTimers.remove timer
    pendingSendDataTimers := Dict.erase s.pendingSendDataTimers sendId
    pendingSendData := Dict.erase s.pendingSendData sendId }

/-! ### Requests of a run -/

/-- The requests, and what has become of those that were made. -/
structure Exchange where
  requests : Requests
  /-- the requests that were made -/
  issued : List String := []
  /-- those with a response -/
  answered : List String := []
  /-- those without a response that have not timed out -/
  outstanding : List String := []

inductive AskAction
  | request (sendId : String) (spd : SendPendingData)
  | response (chunkId sendId : String) (answer : Int)
  | timeout (timer : Nat) (sendId : String)

namespace Exchange

def request (e : Exchange) (sendId : String) (spd : SendPendingData) : Exchange :=
  let sent := sendDataRequest e.requests sendId spd
  if sent.2 = "" then { e with requests := sent.1 }
  else
    { e with
      requests := sent.1
      issued := e.issued ++ [sendId]
      outstanding := e.outstanding ++ [sendId] }

def response (o : Outside) (e : Exchange) (chunkId sendId : String) (answer : Int) : Exchange :=
  let requests := processSendDataResponse o e.requests chunkId sendId answer
  if Invalid answer then { e with requests := requests }
  else
    { e with
      requests := requests
      answered := if sendId ∈ e.issued then e.answered ++ [sendId] else e.answered
      outstanding := e.outstanding.filter (· ≠ sendId) }

def timeout (e : Exchange) (timer : Nat) (sendId : String) : Exchange :=
  { e with
    requests := askTimeout e.requests timer sendId
    outstanding := e.outstanding.filter (· ≠ sendId) }

def initial (e : Exchange) : Prop :=
  e.requests.pendingSendData = [] ∧ e.requests.pendingSendDataTimers = [] ∧
    e.issued = [] ∧ e.answered = [] ∧ e.outstanding = []

/-- A `uuid4` is never one that was there before. -/
def step (o : Outside) (e : Exchange) : AskAction → Exchange → Prop
  | .request sendId spd, e' => sendId ≠ "" ∧ sendId ∉ e.issued ∧ e' = e.request sendId spd
  | .response chunkId sendId answer, e' => e' = e.response o chunkId sendId answer
  | .timeout timer sendId, e' =>
      (timer, sendId) ∈ e.requests.askTimers.sources ∧ e' = e.timeout timer sendId

end Exchange

/-- The timer of a request that is pending is armed. -/
def Armed (s : Requests) (sendId : String) : Prop :=
  ∃ timer, Dict.get s.pendingSendDataTimers sendId = some timer ∧
    (timer, sendId) ∈ s.askTimers.sources

/-- Requests are consumed by their response. -/
structure Consumed (o : Outside) (e : Exchange) : Prop where
  armed : ∀ entry ∈ e.requests.pendingSendData, Armed e.requests entry.1
  once : ∀ sendId ∈ e.answered, ∀ chunkId answer,
    (processSendDataResponse o e.requests chunkId sendId answer).handler = e.requests.handler ∧
    (processSendDataResponse o e.requests chunkId sendId answer).messages = e.requests.messages ∧
    (processSendDataResponse o e.requests chunkId sendId answer).opened = e.requests.opened
  dropped : ∀ sendId spd, sendId ≠ "" → (sendDataRequest e.requests sendId spd).2 = "" →
    maxConcurrentFiles ≤ e.outstanding.length

/-- The response is not one to a request that is pending, or it cannot be read. -/
def Unanswering (e : Exchange) : AskAction → Prop
  | .response _ sendId answer =>
      Invalid answer ∨ Dict.get e.requests.pendingSendData sendId = none
  | _ => True

/-- What holds of the tables while no pending request is answered. -/
structure Waiting (e : Exchange) : Prop where
  pending : e.requests.pendingSendData.map Prod.fst = e.outstanding
  distinct : e.outstanding.Nodup
  issued : ∀ sendId ∈ e.outstanding, sendId ∈ e.issued
  answered : ∀ sendId ∈ e.answered, sendId ∈ e.issued ∧ sendId ∉ e.outstanding
  armed : ∀ sendId ∈ e.outstanding, Armed e.requests sendId
  live : ∀ sendId timer, Dict.get e.requests.pendingSendDataTimers sendId = some timer →
    (timer, sendId) ∈ e.requests.askTimers.sources

variable {o : Outside} {e : Exchange} {s : Requests}

/-- Requests with another timer are still armed when one is removed. -/
theorem Armed.of_remove {sendId sendId' : String} (armed : Armed s sendId') (other : sendId ≠ sendId')
    {timer : Nat} (fired : (timer, sendId) ∈ s.askTimers.sources) {s' : Requests}
    (timers : s'.pendingSendDataTimers = Dict.erase s.pendingSendDataTimers sendId)
    (sources : s'.askTimers = s.askTimers.remove timer) : Armed s' sendId' := by
  obtain ⟨timer', found, there⟩ := armed
  refine ⟨timer', ?_, ?_⟩
  · rw [timers, Dict.get_erase, if_neg other]
    exact found
  · rw [sources, Sources.mem_remove]
    refine ⟨there, ?_⟩
    rintro rfl
    exact other (Sources.callback_unique fired there)

theorem live_of_remove {sendId : String} {timer : Nat}
    (live : ∀ sendId timer, Dict.get s.pendingSendDataTimers sendId = some timer →
      (timer, sendId) ∈ s.askTimers.sources)
    (fired : (timer, sendId) ∈ s.askTimers.sources) {sendId' : String} {timer' : Nat}
    (found : Dict.get (Dict.erase s.pendingSendDataTimers sendId) sendId' = some timer') :
    (timer', sendId') ∈ (s.askTimers.remove timer).sources := by
  rw [Dict.get_erase] at found
  split at found
  · cases found
  · next other =>
      rw [Sources.mem_remove]
      refine ⟨live _ _ found, ?_⟩
      rintro rfl
      exact other (Sources.callback_unique fired (live _ _ found))

theorem erase_keys (d : List (String × SendPendingData)) (sendId : String) :
    (Dict.erase d sendId).map Prod.fst = (d.map Prod.fst).filter (· ≠ sendId) := by
  rw [Dict.erase, List.filter_map]
  rfl

theorem response_invalid (chunkId sendId : String) {answer : Int} (invalid : Invalid answer) :
    ∃ exn, processSendDataResponse o s chunkId sendId answer = s.raise exn := by
  unfold processSendDataResponse
  rw [if_pos invalid]
  exact ⟨_, rfl⟩

/-- No entry, no effect. -/
theorem response_late {chunkId sendId : String} {answer : Int} (valid : ¬ Invalid answer)
    (unknown : Dict.get s.pendingSendData sendId = none) :
    processSendDataResponse o s chunkId sendId answer = cancelAskTimer s sendId := by
  have absent : Dict.get (cancelAskTimer s sendId).pendingSendData sendId = none := unknown
  unfold processSendDataResponse
  rw [if_neg valid]
  simp only [absent]

theorem Waiting.unknown (waiting : Waiting e) {sendId : String} (gone : sendId ∉ e.outstanding) :
    Dict.get e.requests.pendingSendData sendId = none := by
  cases found : Dict.get e.requests.pendingSendData sendId with
  | none => rfl
  | some spd =>
      rw [← waiting.pending] at gone
      exact absurd (List.mem_map.mpr ⟨_, Dict.get_mem found, rfl⟩) gone

theorem request_waiting (waiting : Waiting e) {sendId : String} (named : sendId ≠ "")
    (new : sendId ∉ e.issued) (spd : SendPendingData) : Waiting (e.request sendId spd) := by
  unfold Exchange.request sendDataRequest
  split
  · exact waiting
  · simp only [if_neg named]
    have absent : sendId ∉ e.outstanding := fun member => new (waiting.issued sendId member)
    have unknown : sendId ∉ e.requests.pendingSendData.map Prod.fst := by
      rw [waiting.pending]
      exact absent
    constructor
    · simp only [Requests.send]
      rw [Dict.set_keys, if_neg unknown, waiting.pending]
    · simp only
      rw [← List.concat_eq_append]
      exact waiting.distinct.concat absent
    · intro sendId' member
      rcases List.mem_append.mp member with old | same
      · exact List.mem_append_left _ (waiting.issued _ old)
      · exact List.mem_append_right _ same
    · intro sendId' member
      have ⟨known, gone⟩ := waiting.answered sendId' member
      refine ⟨List.mem_append_left _ known, ?_⟩
      intro there
      rcases List.mem_append.mp there with old | same
      · exact gone old
      · rw [List.mem_singleton.mp same] at known
        exact new known
    · intro sendId' member
      rcases List.mem_append.mp member with old | same
      · obtain ⟨timer, found, there⟩ := waiting.armed sendId' old
        refine ⟨timer, ?_, Sources.mem_add.mpr (.inl there)⟩
        simp only [Requests.send]
        rw [Dict.get_set, if_neg]
        · exact found
        · rintro rfl
          exact absent old
      · rw [List.mem_singleton.mp same]
        refine ⟨e.requests.askTimers.next, ?_, Sources.mem_add.mpr (.inr rfl)⟩
        simp only [Requests.send]
        rw [Dict.get_set, if_pos rfl]
    · intro sendId' timer found
      simp only [Requests.send] at found
      rw [Dict.get_set] at found
      split at found
      · next same =>
          cases found
          rw [← same]
          exact Sources.mem_add.mpr (.inr rfl)
      · exact Sources.mem_add.mpr (.inl (waiting.live _ _ found))

/-- A timer that no pending request has is removed. -/
theorem cancel_armed (waiting : Waiting e) {sendId : String} (gone : sendId ∉ e.outstanding) :
    (∀ sendId' ∈ e.outstanding, Armed (cancelAskTimer e.requests sendId) sendId') ∧
      ∀ sendId' timer,
        Dict.get (cancelAskTimer e.requests sendId).pendingSendDataTimers sendId' = some timer →
          (timer, sendId') ∈ (cancelAskTimer e.requests sendId).askTimers.sources := by
  cases found : Dict.get e.requests.pendingSendDataTimers sendId with
  | some timer =>
      have sources : (cancelAskTimer e.requests sendId).askTimers =
          e.requests.askTimers.remove timer := by simp only [cancelAskTimer, found]
      have fired := waiting.live _ _ found
      constructor
      · intro sendId' member
        apply (waiting.armed sendId' member).of_remove _ fired rfl sources
        rintro rfl
        exact gone member
      · intro sendId' timer' found'
        rw [sources]
        exact live_of_remove waiting.live fired found'
  | none =>
      have sources : (cancelAskTimer e.requests sendId).askTimers = e.requests.askTimers := by
        simp only [cancelAskTimer, found]
      constructor
      · intro sendId' member
        obtain ⟨timer, found', there⟩ := waiting.armed sendId' member
        refine ⟨timer, ?_, sources ▸ there⟩
        simp only [cancelAskTimer]
        rw [Dict.get_erase, if_neg]
        · exact found'
        · rintro rfl
          exact gone member
      · intro sendId' timer' found'
        rw [sources]
        exact waiting.live _ _ (Dict.get_of_erase found')

theorem response_waiting (waiting : Waiting e) {chunkId sendId : String} {answer : Int}
    (unanswering : Invalid answer ∨ Dict.get e.requests.pendingSendData sendId = none) :
    Waiting (e.response o chunkId sendId answer) := by
  unfold Exchange.response
  by_cases invalid : Invalid answer
  · obtain ⟨exn, raised⟩ := response_invalid (o := o) (s := e.requests) chunkId sendId invalid
    rw [if_pos invalid, raised]
    exact ⟨waiting.pending, waiting.distinct, waiting.issued, waiting.answered, waiting.armed,
      waiting.live⟩
  · have unknown := unanswering.resolve_left invalid
    have gone : sendId ∉ e.outstanding := by
      intro member
      rw [← waiting.pending] at member
      obtain ⟨entry, known, same⟩ := List.mem_map.mp member
      exact Dict.get_none unknown entry known same
    have outstanding : e.outstanding.filter (· ≠ sendId) = e.outstanding := by
      rw [List.filter_eq_self]
      intro sendId' member
      rw [decide_eq_true_eq]
      rintro rfl
      exact gone member
    have ⟨armed, live⟩ := cancel_armed waiting gone
    rw [if_neg invalid, response_late invalid unknown, outstanding]
    constructor
    · exact waiting.pending
    · exact waiting.distinct
    · exact waiting.issued
    · intro sendId' member
      dsimp only at member
      split at member
      · next known =>
          rcases List.mem_append.mp member with old | same
          · exact waiting.answered sendId' old
          · rw [List.mem_singleton.mp same]
            exact ⟨known, gone⟩
      · exact waiting.answered sendId' member
    · exact armed
    · exact live

theorem timeout_waiting (waiting : Waiting e) {timer : Nat} {sendId : String}
    (fired : (timer, sendId) ∈ e.requests.askTimers.sources) : Waiting (e.timeout timer sendId) := by
  have left {sendId' : String} (member : sendId' ∈ (e.timeout timer sendId).outstanding) :
      sendId' ∈ e.outstanding ∧ sendId ≠ sendId' := by
    have ⟨old, other⟩ := List.mem_filter.mp member
    exact ⟨old, (of_decide_eq_true other).symm⟩
  constructor
  · simp only [Exchange.timeout, askTimeout]
    rw [erase_keys, waiting.pending]
  · exact waiting.distinct.filter _
  · intro sendId' member
    exact waiting.issued sendId' (left member).1
  · intro sendId' member
    have ⟨known, gone⟩ := waiting.answered sendId' member
    exact ⟨known, fun there => gone (left there).1⟩
  · intro sendId' member
    exact (waiting.armed sendId' (left member).1).of_remove (left member).2 fired rfl rfl
  · intro sendId' timer' found
    exact live_of_remove waiting.live fired found

theorem step_waiting {a : AskAction} {e' : Exchange} (waiting : Waiting e) (taken : e.step o a e')
    (unanswering : Unanswering e a) : Waiting e' := by
  cases a with
  | request sendId spd =>
      obtain ⟨named, new, rfl⟩ := taken
      exact request_waiting waiting named new spd
  | response chunkId sendId answer =>
      cases taken
      exact response_waiting waiting unanswering
  | timeout timer sendId =>
      obtain ⟨fired, rfl⟩ := taken
      exact timeout_waiting waiting fired

theorem Waiting.consumed (waiting : Waiting e) : Consumed o e := by
  constructor
  · intro entry member
    apply waiting.armed
    rw [← waiting.pending]
    exact List.mem_map.mpr ⟨entry, member, rfl⟩
  · intro sendId member chunkId answer
    have unknown := waiting.unknown (waiting.answered sendId member).2
    by_cases invalid : Invalid answer
    · obtain ⟨exn, raised⟩ := response_invalid (o := o) (s := e.requests) chunkId sendId invalid
      rw [raised]
      exact ⟨rfl, rfl, rfl⟩
    · rw [response_late invalid unknown]
      exact ⟨rfl, rfl, rfl⟩
  · intro sendId spd named dropped
    rw [← waiting.pending, List.length_map]
    unfold sendDataRequest at dropped
    split at dropped
    · assumption
    · exact absurd dropped named

/-- As long as no response names a pending request, each of them has its timer, a response that
comes late does nothing, and a request is only dropped for those that wait. -/
theorem requests_consumed
    (reachable : Reachable Exchange.initial (fun e a e' => Unanswering e a ∧ e.step o a e') e) :
    Consumed o e := by
  apply Waiting.consumed
  apply reachable.invariant
  · rintro e ⟨pending, timers, issued, answered, outstanding⟩
    constructor
    · rw [pending, outstanding]
      rfl
    · rw [outstanding]
      exact List.nodup_nil
    · rw [outstanding]
      exact fun sendId member => absurd member List.not_mem_nil
    · rw [answered]
      exact fun sendId member => absurd member List.not_mem_nil
    · rw [outstanding]
      exact fun sendId member => absurd member List.not_mem_nil
    · intro sendId timer found
      rw [timers] at found
      cases found
  · rintro e a e' waiting ⟨unanswering, taken⟩
    exact step_waiting waiting taken unanswering

/-- Everything has to be asked for. -/
def askingHandler : Handler where
  fileTransfer := true
  fileTransferAsk := true
  printing := true
  printingAsk := true
  openFiles := true
  openFilesAsk := true
  fileSizeLimit := 1000
  fileChunks := 0
  remoteFileSizeLimit := 1000
  remoteFileChunks := 0

def idleExchange : Exchange := { requests := { handler := askingHandler, openUrl := true, openUrlAsk := true } }

def linkData : SendPendingData := ⟨"url", "https://server/", "", [], 0, false, true, []⟩

def plainOutside : Outside := ⟨id, fun _ _ => "", fun _ => ""⟩

theorem requests_consumed_waiting :
    Consumed plainOutside (idleExchange.request "link" linkData) := by
  have idle : Reachable Exchange.initial
      (fun e a e' => Unanswering e a ∧ e.step plainOutside a e') idleExchange :=
    .start ⟨rfl, rfl, rfl, rfl, rfl⟩
  exact requests_consumed
    (idle.next (a := .request "link" linkData) ⟨trivial, by decide, List.not_mem_nil, rfl⟩)

/-- Once the request is denied, it stays in the table without a timer. -/
theorem not_requests_consumed : ¬ ∀ (o : Outside) (e : Exchange),
    Reachable Exchange.initial (fun e a e' => e.step o a e') e → Consumed o e := by
  intro consumed
  have idle : Reachable Exchange.initial (fun e a e' => Exchange.step plainOutside e a e') idleExchange :=
    .start ⟨rfl, rfl, rfl, rfl, rfl⟩
  have waiting : Reachable Exchange.initial (fun e a e' => Exchange.step plainOutside e a e')
      (idleExchange.request "link" linkData) :=
    idle.next (a := .request "link" linkData) ⟨by decide, List.not_mem_nil, rfl⟩
  have denied : Reachable Exchange.initial (fun e a e' => Exchange.step plainOutside e a e')
      ((idleExchange.request "link" linkData).response plainOutside "" "link" deny) :=
    waiting.next (a := .response "" "link" deny) rfl
  obtain ⟨timer, found, _⟩ := (consumed plainOutside _ denied).armed ("link", linkData) (.head _)
  cases found

end Catlink.FileTransfer
