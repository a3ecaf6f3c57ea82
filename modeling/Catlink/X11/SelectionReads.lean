import Catlink.X11.Selection

/-! Every callback given to the proxy is called once, and every application that waits is answered
once. -/

namespace Catlink.X11.Selection

open MainLoop Clipboard Runs

/-! ### Reads -/

def Task.completion? : Task → Option Completion
  | .complete completion => some completion
  | _ => none

/-- What the reads of a proxy depend on. -/
structure Reads where
  calls : Nat
  completed : List Completion
  /-- the callbacks that are about to be called -/
  due : List Completion
  localRequests : List (String × List LocalRequest)
  localRequestCounter : Nat
  timers : Sources Timer
  incrData : List (Atom × IncrementalData)

def Reads.pending (b : Reads) : List LocalRequest := b.localRequests.flatMap Prod.snd

def Proxy.reads (s : Proxy) : Reads where
  calls := s.calls
  completed := s.completed
  due := s.stack.filterMap Task.completion?
  localRequests := s.localRequests
  localRequestCounter := s.localRequestCounter
  timers := s.timers
  incrData := s.incrData

/-- Requests are filed under their targets. -/
def Filed (localRequests : List (String × List LocalRequest)) : Prop :=
  ∀ entry ∈ localRequests, ∀ r ∈ entry.2, r.target = entry.1

theorem Filed.appendTo {localRequests : List (String × List LocalRequest)} (filed : Filed localRequests)
    (r : LocalRequest) : Filed (Dict.appendTo localRequests r.target r) := by
  intro entry member r' within
  rw [Dict.appendTo_eq_set] at member
  rcases Dict.of_mem_set member with rfl | old
  · rcases List.mem_append.mp within with old | new
    · cases found : Dict.get localRequests r.target with
      | none =>
          rw [found] at old
          cases old
      | some requests =>
          rw [found] at old
          exact filed _ (Dict.get_mem found) r' old
    · rw [List.mem_singleton.mp new]
  · exact filed entry old r' within

theorem Filed.timeout {localRequests : List (String × List LocalRequest)} (filed : Filed localRequests)
    {target : String} {requests left : List LocalRequest}
    (found : Dict.get localRequests target = some requests) (some : ∀ r ∈ left, r ∈ requests) :
    Filed (if left = [] then Dict.erase localRequests target
      else Dict.set localRequests target left) := by
  intro entry member r within
  split at member
  · exact filed entry (Dict.mem_erase.mp member).1 r within
  · rcases Dict.of_mem_set member with rfl | old
    · exact filed _ (Dict.get_mem found) r (some r within)
    · exact filed entry old r within

theorem Filed.pop {localRequests rest : List (String × List LocalRequest)}
    (filed : Filed localRequests) {target : String} {requests : List LocalRequest}
    (popped : Dict.pop localRequests target = some (requests, rest)) : Filed rest :=
  fun entry member =>
    filed entry ((Dict.pop_perm popped).mem_iff.mpr (List.mem_cons_of_mem _ member))

/-- Every callback is called, about to be called, or kept with a request, and only one of these. -/
structure Accounted (b : Reads) : Prop where
  once : (b.completed.map Completion.call ++ (b.due.map Completion.call ++
    b.pending.map LocalRequest.call)).Perm (List.range b.calls)
  distinct : (b.pending.map LocalRequest.requestId).Nodup
  below : ∀ r ∈ b.pending, r.requestId < b.localRequestCounter
  keys : (b.localRequests.map Prod.fst).Nodup
  filed : Filed b.localRequests
  armed : ∀ r ∈ b.pending, (r.timer, Timer.getContents r.target r.requestId) ∈ b.timers.sources
  owed : ∀ c ∈ b.due, ∀ source, c.timer = some source →
    source < b.timers.next ∧ ∀ r ∈ b.pending, r.timer ≠ source
  incr : ∀ entry ∈ b.incrData, entry.2.timer < b.timers.next ∧
    ∀ target requestId, (entry.2.timer, Timer.getContents target requestId) ∉ b.timers.sources

variable {b : Reads} {o : Outside} {s s' : Proxy}

theorem mem_pending {entry : String × List LocalRequest} {r : LocalRequest}
    (filed : entry ∈ b.localRequests) (member : r ∈ entry.2) : r ∈ b.pending :=
  List.mem_flatMap.mpr ⟨entry, filed, member⟩

/-- A timer is that of one request. -/
theorem Accounted.timer_unique (accounted : Accounted b) {r r' : LocalRequest}
    (one : r ∈ b.pending) (two : r' ∈ b.pending) (same : r.timer = r'.timer) : r = r' := by
  have here := accounted.armed r one
  have there := accounted.armed r' two
  rw [← same] at there
  have callback := Sources.callback_unique here there
  rw [Timer.getContents.injEq] at callback
  exact List.inj_on_of_nodup_map accounted.distinct one two callback.2

/-- A callback that has nothing to wait for. -/
theorem answer_accounted (accounted : Accounted b) (target : String) (callback : Callback)
    (contents : Contents) :
    Accounted { b with
      calls := b.calls + 1
      due := ⟨b.calls, target, callback, contents, none⟩ :: b.due } := by
  constructor
  · rw [List.range_succ]
    have swap : (b.completed.map Completion.call ++ (b.calls :: b.due.map Completion.call ++
        b.pending.map LocalRequest.call)).Perm (b.calls :: (b.completed.map Completion.call ++
          (b.due.map Completion.call ++ b.pending.map LocalRequest.call))) :=
      List.perm_middle
    exact swap.trans ((accounted.once.cons b.calls).trans
      (List.perm_append_singleton b.calls (List.range b.calls)).symm)
  · exact accounted.distinct
  · exact accounted.below
  · exact accounted.keys
  · exact accounted.filed
  · exact accounted.armed
  · intro c member source timer
    rcases List.mem_cons.mp member with rfl | old
    · cases timer
    · exact accounted.owed c old source timer
  · exact accounted.incr

/-- A callback that is kept with a new request, and a new timer. -/
theorem request_accounted (accounted : Accounted b) (target : String) (callback : Callback) :
    Accounted { b with
      calls := b.calls + 1
      localRequestCounter := b.localRequestCounter + 1
      timers := b.timers.add (.getContents target b.localRequestCounter)
      localRequests := Dict.appendTo b.localRequests target
        ⟨target, b.localRequestCounter, b.timers.next, b.calls, callback⟩ } := by
  have perm := Dict.appendTo_perm b.localRequests target
    ⟨target, b.localRequestCounter, b.timers.next, b.calls, callback⟩
  have new : ∀ r, r ∈ (Dict.appendTo b.localRequests target
      ⟨target, b.localRequestCounter, b.timers.next, b.calls, callback⟩).flatMap Prod.snd ↔
      r ∈ b.pending ∨ r = ⟨target, b.localRequestCounter, b.timers.next, b.calls, callback⟩ := by
    intro r
    rw [perm.mem_iff, List.mem_append, List.mem_singleton]
    rfl
  constructor
  · have calls := perm.map LocalRequest.call
    rw [List.map_append] at calls
    rw [List.range_succ]
    refine ((calls.append_left _).append_left _).trans ?_
    rw [← List.append_assoc, ← List.append_assoc]
    apply List.Perm.append_right
    rw [List.append_assoc]
    exact accounted.once
  · have ids := perm.map LocalRequest.requestId
    rw [List.map_append] at ids
    refine ids.nodup_iff.mpr (List.nodup_append.mpr ⟨accounted.distinct, by simp, ?_⟩)
    intro one old two here same
    obtain ⟨r, member, rfl⟩ := List.mem_map.mp old
    have below := accounted.below r member
    rw [List.map_singleton, List.mem_singleton] at here
    rw [same, here] at below
    exact Nat.lt_irrefl _ below
  · intro r member
    rcases (new r).mp member with old | rfl
    · exact Nat.lt_succ_of_lt (accounted.below r old)
    · exact Nat.lt_succ_self _
  · rw [Dict.appendTo_eq_set]
    exact Dict.set_distinct accounted.keys _ _
  · exact Filed.appendTo accounted.filed ⟨target, b.localRequestCounter, b.timers.next, b.calls, callback⟩
  · intro r member
    rcases (new r).mp member with old | rfl
    · exact Sources.mem_add.mpr (.inl (accounted.armed r old))
    · exact Sources.mem_add.mpr (.inr rfl)
  · intro c member source timer
    obtain ⟨below, other⟩ := accounted.owed c member source timer
    refine ⟨Nat.lt_succ_of_lt below, ?_⟩
    intro r member
    rcases (new r).mp member with old | rfl
    · exact other r old
    · exact (Nat.ne_of_lt below).symm
  · intro entry member
    obtain ⟨below, other⟩ := accounted.incr entry member
    refine ⟨Nat.lt_succ_of_lt below, ?_⟩
    intro target' requestId armed
    rcases Sources.mem_add.mp armed with old | new
    · exact other target' requestId old
    · rw [Prod.mk.injEq] at new
      omega

/-- Requests are taken off the table, and their callbacks are about to be called. -/
theorem taken_accounted (accounted : Accounted b) {taken : List LocalRequest}
    {rest : List (String × List LocalRequest)} (give : LocalRequest → Contents)
    (perm : b.pending.Perm (taken ++ rest.flatMap Prod.snd))
    (keys : (rest.map Prod.fst).Nodup)
    (filed : Filed rest) :
    Accounted { b with
      localRequests := rest
      due := (taken.map fun r => ⟨r.call, r.target, r.callback, give r, some r.timer⟩) ++ b.due } := by
  have left : ∀ r ∈ rest.flatMap Prod.snd, r ∈ b.pending :=
    fun r member => perm.mem_iff.mpr (List.mem_append_right _ member)
  have gone : ∀ r ∈ taken, r ∈ b.pending :=
    fun r member => perm.mem_iff.mpr (List.mem_append_left _ member)
  have ids := (perm.map LocalRequest.requestId).nodup_iff.mp accounted.distinct
  rw [List.map_append, List.nodup_append] at ids
  constructor
  · have calls := perm.map LocalRequest.call
    rw [List.map_append] at calls
    refine List.Perm.trans ?_ ((calls.append_left _).append_left _ |>.symm.trans accounted.once)
    rw [List.map_append, List.map_map]
    apply List.Perm.append_left
    rw [← List.append_assoc]
    apply List.Perm.append_right
    exact List.perm_append_comm
  · exact ids.2.1
  · exact fun r member => accounted.below r (left r member)
  · exact keys
  · exact filed
  · exact fun r member => accounted.armed r (left r member)
  · intro c member source timer
    rcases List.mem_append.mp member with new | old
    · obtain ⟨r, here, rfl⟩ := List.mem_map.mp new
      cases timer
      refine ⟨b.timers.fresh _ (accounted.armed r (gone r here)), ?_⟩
      intro r' member' same
      have equal := accounted.timer_unique (left r' member') (gone r here) same
      rw [equal] at member'
      exact ids.2.2 _ (List.mem_map_of_mem here) _ (List.mem_map_of_mem member') rfl
    · obtain ⟨below, other⟩ := accounted.owed c old source timer
      exact ⟨below, fun r member' => other r (left r member')⟩
  · exact accounted.incr

/-! Incremental transfers have their own timers. -/

theorem mem_removeTimers {timers : Sources Timer} {states : List IncrementalData}
    {entry : Nat × Timer} :
    entry ∈ (removeTimers timers states).sources ↔
      entry ∈ timers.sources ∧ ∀ state ∈ states, state.timer = 0 ∨ entry.1 ≠ state.timer := by
  induction states generalizing timers with
  | nil => simp [removeTimers]
  | cons state states ih =>
      rw [removeTimers, List.foldl_cons]
      change entry ∈ (removeTimers _ states).sources ↔ _
      rw [ih, List.forall_mem_cons]
      split
      · next none => simp [none]
      · next some =>
          rw [Sources.mem_remove]
          constructor
          · rintro ⟨⟨member, other⟩, others⟩
            exact ⟨member, .inr other, others⟩
          · rintro ⟨member, zero | other, others⟩
            · exact absurd zero some
            · exact ⟨⟨member, other⟩, others⟩

theorem removeTimers_next (timers : Sources Timer) (states : List IncrementalData) :
    (removeTimers timers states).next = timers.next := by
  induction states generalizing timers with
  | nil => rfl
  | cons state states ih =>
      rw [removeTimers, List.foldl_cons]
      change (removeTimers _ states).next = _
      rw [ih]
      split <;> rfl

/-- Transfers are reset, each with its timer. -/
theorem reset_accounted (accounted : Accounted b) (states : List IncrementalData)
    (incrData : List (Atom × IncrementalData))
    (known : ∀ state ∈ states,
      state.timer = 0 ∨ ∃ entry ∈ b.incrData, entry.2.timer = state.timer)
    (left : ∀ entry ∈ incrData, entry ∈ b.incrData) :
    Accounted { b with timers := removeTimers b.timers states, incrData := incrData } := by
  constructor
  · exact accounted.once
  · exact accounted.distinct
  · exact accounted.below
  · exact accounted.keys
  · exact accounted.filed
  · intro r member
    have armed := accounted.armed r member
    refine mem_removeTimers.mpr ⟨armed, ?_⟩
    intro state here
    rcases known state here with none | ⟨entry, found, timer⟩
    · exact .inl none
    · refine .inr ?_
      intro same
      rw [show r.timer = entry.2.timer from same.trans timer.symm] at armed
      exact (accounted.incr entry found).2 _ _ armed
  · intro c member source timer
    rw [removeTimers_next]
    exact accounted.owed c member source timer
  · intro entry member
    obtain ⟨below, other⟩ := accounted.incr entry (left entry member)
    rw [removeTimers_next]
    exact ⟨below, fun target requestId armed => other target requestId (mem_removeTimers.mp armed).1⟩

/-- A transfer has a new timer. -/
theorem reschedule_accounted (accounted : Accounted b) (atom : Atom)
    {incrData : List (Atom × IncrementalData)}
    (known : ∀ entry ∈ incrData, entry ∈ b.incrData ∨ entry.2.timer = b.timers.next) :
    Accounted { b with timers := b.timers.add (.incrData atom), incrData := incrData } := by
  constructor
  · exact accounted.once
  · exact accounted.distinct
  · exact accounted.below
  · exact accounted.keys
  · exact accounted.filed
  · exact fun r member => Sources.mem_add.mpr (.inl (accounted.armed r member))
  · intro c member source timer
    obtain ⟨below, other⟩ := accounted.owed c member source timer
    exact ⟨Nat.lt_succ_of_lt below, other⟩
  · intro entry member
    rcases known entry member with old | new
    · obtain ⟨below, other⟩ := accounted.incr entry old
      refine ⟨Nat.lt_succ_of_lt below, ?_⟩
      intro target requestId armed
      rcases Sources.mem_add.mp armed with there | new
      · exact other target requestId there
      · cases congrArg Prod.snd new
    · rw [new]
      refine ⟨Nat.lt_succ_self _, ?_⟩
      intro target requestId armed
      rcases Sources.mem_add.mp armed with there | new
      · exact Nat.lt_irrefl _ (b.timers.fresh _ there)
      · cases new

/-! ### Functions of the proxy and its reads -/

theorem getContents_accounted (accounted : Accounted s.reads) (weOwn : Bool) (target : String)
    (callback : Callback) : Accounted (getContents o s weOwn target callback).reads := by
  unfold getContents
  split
  · exact answer_accounted accounted target callback _
  · split
    · exact answer_accounted accounted target callback _
    · exact request_accounted accounted target callback

theorem due_complete (requests : List LocalRequest) (give : LocalRequest → Contents)
    (stack : List Task) :
    ((requests.map fun r => r.complete (give r)) ++ stack).filterMap Task.completion? =
      (requests.map fun r => ⟨r.call, r.target, r.callback, give r, some r.timer⟩) ++
        stack.filterMap Task.completion? := by
  induction requests with
  | nil => rfl
  | cons r requests ih =>
      rw [List.map_cons, List.map_cons, List.cons_append, List.cons_append, ← ih]
      rfl

theorem resetAllIncrData_accounted (accounted : Accounted s.reads) :
    Accounted s.resetAllIncrData.reads := by
  apply reset_accounted accounted
  · intro state member
    obtain ⟨entry, known, rfl⟩ := List.mem_map.mp member
    exact .inr ⟨entry, known, rfl⟩
  · intro entry member
    cases member

theorem resetIncrData_accounted (accounted : Accounted s.reads) (atom : Atom) :
    Accounted (s.resetIncrData atom).reads := by
  apply reset_accounted accounted
  · intro state member
    exact .inr ⟨_, Dict.get_mem (Option.mem_toList.mp member), rfl⟩
  · intro entry member
    exact (Dict.mem_erase.mp member).1

/-- All the reads are over. -/
theorem invalidateLocalReads_accounted (accounted : Accounted s.reads) :
    Accounted (invalidateLocalReads s).reads := by
  have filed : Filed [] := by simp [Filed]
  have keys : (([] : List (String × List LocalRequest)).map Prod.fst).Nodup := List.nodup_nil
  have taken := taken_accounted accounted (fun r => emptyContents r.target)
    (by rw [List.flatMap_nil, List.append_nil]) keys filed
  have reset := reset_accounted taken (s.incrData.map Prod.snd) []
    (fun state member => by
      obtain ⟨entry, known, rfl⟩ := List.mem_map.mp member
      exact .inr ⟨entry, known, rfl⟩)
    (fun entry member => by cases member)
  unfold invalidateLocalReads Proxy.reads
  rw [due_complete]
  exact reset

/-- An entry with a key of its own, and the others. -/
theorem find_perm {α : Type} {f : α → Nat} {l : List α} (distinct : (l.map f).Nodup) {key : Nat}
    {x : α} (found : l.find? (f · = key) = some x) : l.Perm (x :: l.filter (f · ≠ key)) := by
  induction l with
  | nil => cases found
  | cons y l ih =>
      rw [List.map_cons, List.nodup_cons] at distinct
      by_cases same : f y = key
      · rw [List.find?_cons_of_pos (by simpa using same)] at found
        cases found
        have others : l.filter (f · ≠ key) = l := by
          apply List.filter_eq_self.mpr
          intro z member
          rw [decide_eq_true_eq]
          intro here
          exact distinct.1 (List.mem_map.mpr ⟨z, member, here.trans same.symm⟩)
        rw [List.filter_cons_of_neg (by simpa using same), others]
      · rw [List.find?_cons_of_neg (by simpa using same)] at found
        rw [List.filter_cons_of_pos (by simpa using same)]
        exact ((ih distinct.2 found).cons y).trans (List.Perm.swap _ _ _)

/-- The table of a target without one of its requests. -/
theorem timeout_takes (accounted : Accounted b) {target : String} {requests : List LocalRequest}
    {requestId : Nat} {r : LocalRequest} (found : Dict.get b.localRequests target = some requests)
    (here : requests.find? (·.requestId = requestId) = some r) :
    let left := requests.filter (·.requestId ≠ requestId)
    let rest := if left = [] then Dict.erase b.localRequests target
      else Dict.set b.localRequests target left
    b.pending.Perm ([r] ++ rest.flatMap Prod.snd) ∧ (rest.map Prod.fst).Nodup ∧ Filed rest := by
  intro left rest
  have table := Dict.erase_perm accounted.keys found
  have all : b.pending.Perm (requests ++ (Dict.erase b.localRequests target).flatMap Prod.snd) :=
    table.flatMap_right _
  have ids := (all.map LocalRequest.requestId).nodup_iff.mp accounted.distinct
  rw [List.map_append] at ids
  have split := find_perm (List.nodup_append.mp ids).1 here
  have others : (rest.flatMap Prod.snd).Perm
      (left ++ (Dict.erase b.localRequests target).flatMap Prod.snd) := by
    by_cases none : left = []
    · simp only [rest, if_pos none, none, List.nil_append, List.Perm.refl]
    · simp only [rest, if_neg none]
      exact (Dict.set_perm accounted.keys target left).flatMap_right _
  refine ⟨?_, ?_, ?_⟩
  · calc b.pending
      _ |>.Perm (requests ++ (Dict.erase b.localRequests target).flatMap Prod.snd) := all
      _ |>.Perm ((r :: left) ++ (Dict.erase b.localRequests target).flatMap Prod.snd) :=
          split.append_right _
      _ |>.Perm ([r] ++ rest.flatMap Prod.snd) := (others.symm.cons r)
  · by_cases none : left = []
    · simp only [rest, if_pos none]
      exact Dict.erase_distinct accounted.keys target
    · simp only [rest, if_neg none]
      exact Dict.set_distinct accounted.keys target left
  · exact Filed.timeout accounted.filed found fun r' within => (List.mem_filter.mp within).1

theorem timeoutGetContents_accounted (accounted : Accounted s.reads) (target : String)
    (requestId : Nat) : Accounted (timeoutGetContents s target requestId).reads := by
  unfold timeoutGetContents
  split
  · exact accounted
  · next requests found =>
      split
      · exact accounted
      · next r here =>
          obtain ⟨perm, keys, filed⟩ := timeout_takes accounted found here
          exact taken_accounted accounted (fun _ => emptyContents target) perm keys filed

theorem pop_takes (accounted : Accounted b) {target : String} {requests : List LocalRequest}
    {rest : List (String × List LocalRequest)}
    (popped : Dict.pop b.localRequests target = some (requests, rest)) :
    b.pending.Perm (requests ++ rest.flatMap Prod.snd) ∧ (rest.map Prod.fst).Nodup ∧ Filed rest := by
  exact ⟨(Dict.pop_perm popped).flatMap_right _, Dict.pop_distinct accounted.keys popped,
    Filed.pop accounted.filed popped⟩

theorem raise_idle (idle : s.stack = []) : s.raise = s := by
  rw [Proxy.raise, ← idle]

theorem filterData_nil (o : Outside) (dtype : String) : filterData o dtype [] = some [] := by
  rw [filterData, if_pos (.inl rfl)]

theorem gotLocalContents_accounted (accounted : Accounted s.reads) {target dtype : String}
    (dformat : Nat) {data : Bytes} (safe : s.stack = [] ∨ filterData o dtype data ≠ none) :
    Accounted (gotLocalContents o s target dtype dformat data).reads := by
  unfold gotLocalContents
  split
  · next fails =>
      rcases safe with idle | accepted
      · rw [raise_idle idle]
        exact accounted
      · exact absurd fails accepted
  · split
    · exact accounted
    · next requests rest popped =>
        obtain ⟨perm, keys, filed⟩ := pop_takes accounted popped
        unfold Proxy.reads
        dsimp only
        rw [due_complete]
        exact taken_accounted accounted _ perm keys filed

theorem rescheduleIncrDataTimer_accounted (accounted : Accounted s.reads) (atom : Atom)
    {state : IncrementalData}
    (known : state.timer = 0 ∨ ∃ entry ∈ s.incrData, entry.2.timer = state.timer) :
    Accounted (rescheduleIncrDataTimer s atom state).reads := by
  have reset := reset_accounted accounted [state] s.incrData
    (fun state' member => by
      rw [List.mem_singleton.mp member]
      exact known)
    (fun entry member => member)
  apply reschedule_accounted reset atom
  intro entry member
  rcases Dict.of_mem_set member with rfl | old
  · exact .inr rfl
  · exact .inl old

theorem incrDataTimeout_accounted (accounted : Accounted s.reads) (atom : Atom) :
    Accounted (incrDataTimeout s atom).reads := by
  have kept := reset_accounted accounted [] (Dict.erase s.incrData atom)
    (fun state member => by cases member)
    (fun entry member => (Dict.mem_erase.mp member).1)
  exact kept

/-- A timer that is not one of a request is gone. -/
theorem expired_accounted (accounted : Accounted b) {source : Nat}
    (other : ∀ r ∈ b.pending, r.timer ≠ source) :
    Accounted { b with timers := b.timers.remove source } := by
  constructor
  · exact accounted.once
  · exact accounted.distinct
  · exact accounted.below
  · exact accounted.keys
  · exact accounted.filed
  · exact fun r member => Sources.mem_remove.mpr ⟨accounted.armed r member, other r member⟩
  · exact accounted.owed
  · intro entry member
    obtain ⟨below, apart⟩ := accounted.incr entry member
    exact ⟨below, fun target requestId armed =>
      apart target requestId (Sources.mem_remove.mp armed).1⟩

/-! ### What the functions within `schedule_emit_token` can do -/

/-- What the requests of applications depend on. -/
structure Requests where
  remoteRequests : List (String × List RemoteRequest)
  remoteRequestCounter : Nat
  responses : List Response

def Proxy.requests (s : Proxy) : Requests where
  remoteRequests := s.remoteRequests
  remoteRequestCounter := s.remoteRequestCounter
  responses := s.responses

/-- Only the tokens, the offers and the targets change. -/
structure Quiet (s s' : Proxy) : Prop where
  reads : s'.reads = s.reads
  requests : s'.requests = s.requests
  stack : s'.stack = s.stack
  conversions : s'.conversions = s.conversions
  enabled : s'.enabled = s.enabled
  offerEpoch : s'.offerEpoch = s.offerEpoch

theorem Quiet.refl (s : Proxy) : Quiet s s := ⟨rfl, rfl, rfl, rfl, rfl, rfl⟩

theorem Quiet.trans {s₁ s₂ s₃ : Proxy} (one : Quiet s₁ s₂) (two : Quiet s₂ s₃) : Quiet s₁ s₃ where
  reads := two.reads.trans one.reads
  requests := two.requests.trans one.requests
  stack := two.stack.trans one.stack
  conversions := two.conversions.trans one.conversions
  enabled := two.enabled.trans one.enabled
  offerEpoch := two.offerEpoch.trans one.offerEpoch

/-- There may also be one more read. -/
def Chains (o : Outside) (s s' : Proxy) : Prop :=
  Quiet s s' ∨ ∃ before weOwn target callback,
    Quiet s before ∧ s' = getContents o before weOwn target callback

theorem Quiet.chains (quiet : Quiet s s') : Chains o s s' := .inl quiet

theorem Chains.after {s₀ : Proxy} (quiet : Quiet s₀ s) (chains : Chains o s s') : Chains o s₀ s' := by
  rcases chains with same | ⟨before, weOwn, target, callback, same, read⟩
  · exact .inl (quiet.trans same)
  · exact .inr ⟨before, weOwn, target, callback, quiet.trans same, read⟩

theorem getContents_chains (s : Proxy) (weOwn : Bool) (target : String) (callback : Callback) :
    Chains o s (getContents o s weOwn target callback) :=
  .inr ⟨s, weOwn, target, callback, .refl s, rfl⟩

theorem note_quiet (s : Proxy) (obtained : Obtained) : Quiet s (s.note obtained) :=
  ⟨rfl, rfl, rfl, rfl, rfl, rfl⟩

theorem setTargets_quiet (s : Proxy) (targets : List String) : Quiet s (s.setTargets targets) :=
  ⟨rfl, rfl, rfl, rfl, rfl, rfl⟩

theorem sendTokenWithTargets_quiet (s : Proxy) (offer : Offer) (files : List String) :
    Quiet s (sendTokenWithTargets s offer files) := by
  unfold sendTokenWithTargets
  split
  · exact ⟨rfl, rfl, rfl, rfl, rfl, rfl⟩
  · exact .refl s

theorem gotChosenTarget_quiet (s : Proxy) (offer : Offer) (otargets : List String) (target : String)
    (files : List String) (contents : Contents) :
    Quiet s (gotChosenTarget s offer otargets target files contents) := by
  unfold gotChosenTarget
  split
  · split
    · exact ⟨rfl, rfl, rfl, rfl, rfl, rfl⟩
    · exact sendTokenWithTargets_quiet s offer files
  · exact .refl s

theorem gotFiles_chains (s : Proxy) (weOwn : Bool) (offer : Offer) (otargets : List String)
    (target : String) (contents : Contents) :
    Chains o s (gotFiles o s weOwn offer otargets target contents) := by
  unfold gotFiles
  split
  · dsimp only
    split
    · exact (gotChosenTarget_quiet s offer otargets target _ contents).chains
    · exact getContents_chains s weOwn target _
  · exact (Quiet.refl s).chains

theorem withTargets_chains (s : Proxy) (weOwn : Bool) (offer : Offer) (otargets : List String) :
    Chains o s (withTargets o s weOwn offer otargets) := by
  unfold withTargets
  split
  · split
    · exact (sendTokenWithTargets_quiet s offer []).chains
    · split
      · exact (sendTokenWithTargets_quiet s offer []).chains
      · split
        · exact getContents_chains s weOwn _ _
        · exact getContents_chains s weOwn _ _
  · exact (Quiet.refl s).chains

theorem gotTargets_chains (s : Proxy) (weOwn : Bool) (offer : Offer) (contents : Contents) :
    Chains o s (gotTargets o s weOwn offer contents) := by
  unfold gotTargets
  split
  · split
    · exact (sendTokenWithTargets_quiet s offer []).chains
    · exact Chains.after (setTargets_quiet s _) (withTargets_chains _ weOwn offer _)
  · exact (Quiet.refl s).chains

theorem getClipboardTokenMetadata_quiet (s : Proxy) : Quiet s (getClipboardTokenMetadata s) := by
  unfold getClipboardTokenMetadata
  split
  · exact ⟨rfl, rfl, rfl, rfl, rfl, rfl⟩
  · exact .refl s

theorem scheduleEmitToken_chains (s : Proxy) (weOwn : Bool) :
    Chains o s (scheduleEmitToken o s weOwn) := by
  have quiet := getClipboardTokenMetadata_quiet s
  unfold scheduleEmitToken
  dsimp only
  generalize getClipboardTokenMetadata s = known at quiet ⊢
  refine Chains.after (quiet.trans (note_quiet known (.origin known.offerEpoch known.clipboardOrigin))) ?_
  split
  · exact .inl ⟨rfl, rfl, rfl, rfl, rfl, rfl⟩
  · split
    · exact withTargets_chains _ weOwn _ _
    · exact getContents_chains _ weOwn _ _

theorem ownerChanged_chains (s : Proxy) (weOwn : Bool) : Chains o s (ownerChanged o s weOwn) := by
  unfold ownerChanged
  dsimp only
  refine Chains.after (s := { s with targetData := [] }.setTargets [])
    ⟨rfl, rfl, rfl, rfl, rfl, rfl⟩ ?_
  split
  · exact (Quiet.refl _).chains
  · split
    · exact scheduleEmitToken_chains _ weOwn
    · exact (Quiet.refl _).chains

/-! ### Requests of applications -/

def Requests.waiting (q : Requests) : List RemoteRequest := q.remoteRequests.flatMap Prod.snd

/-- Every request that was kept waits or has been answered, and only one of these. -/
structure Answered (q : Requests) : Prop where
  once : (q.responses.filterMap Response.number ++ q.waiting.map RemoteRequest.number).Perm
    (List.range q.remoteRequestCounter)
  keys : (q.remoteRequests.map Prod.fst).Nodup
  named : ∀ r ∈ q.waiting, r.prop ≠ ""

/-- The data can be put into a property. -/
def Settable (o : Outside) (contents : Contents) : Prop :=
  contents.dtype = "" ∨ contents.dformat = 0 ∨ contents.data = .none ∨
    fits contents.dformat (memoryviewToBytes o contents.data) = true

/-- The contents can be given to the applications that wait for the target. -/
def Sendable (o : Outside) (target : String) (contents : Contents) : Prop :=
  Settable o contents ∧
    (target = "TARGETS" ∧ contents.dtype = "ATOM" ∧ contents.dformat = 32 →
      targetsOf o contents.data ≠ none)

variable {q : Requests}

theorem setSelectionResponse_answers (number : Option Nat) (requestor : Nat) (target : String)
    {prop : String} (dtype : String) {dformat : Nat} {data : PyVal} (time : Nat) (named : prop ≠ "")
    (settable : data = .none ∨ fits dformat (memoryviewToBytes o data) = true) :
    ∃ response, setSelectionResponse o s number requestor target prop dtype dformat data time =
      some (s.answers [response]) ∧ response.number = number := by
  unfold setSelectionResponse
  rw [if_neg named]
  split
  · exact ⟨_, rfl, rfl⟩
  · next value =>
      rcases settable with none | fitting
      · exact absurd none value
      · dsimp only
        rw [if_pos fitting]
        exact ⟨_, rfl, rfl⟩

theorem answers_append (s : Proxy) (one two : List Response) :
    (s.answers one).answers two = s.answers (one ++ two) := by
  unfold Proxy.answers
  rw [← List.append_assoc]

/-- Every one that waits is answered. -/
theorem respondAll_answers (target : String) {dtype : String} {dformat : Nat} {data : PyVal}
    {pending : List RemoteRequest} (named : ∀ r ∈ pending, r.prop ≠ "")
    (settable : Settable o ⟨dtype, dformat, data⟩) :
    ∃ new, respondAll o s target dtype dformat data pending = s.answers new ∧
      new.filterMap Response.number = pending.map RemoteRequest.number := by
  induction pending generalizing s dtype with
  | nil => exact ⟨[], by rw [respondAll, Proxy.answers, List.append_nil], rfl⟩
  | cons r pending ih =>
      obtain ⟨here, later⟩ := List.forall_mem_cons.mp named
      rw [respondAll]
      split
      · obtain ⟨response, answered, number⟩ := setSelectionResponse_answers (o := o) (s := s)
          (some r.number) r.requestor r.target dtype r.time here (.inl rfl)
        rw [answered]
        obtain ⟨new, rest, numbers⟩ := ih (s := s.answers [response]) later settable
        refine ⟨response :: new, ?_, ?_⟩
        · dsimp only
          rw [rest, answers_append]
          rfl
        · rw [List.filterMap_cons_some number, numbers, List.map_cons]
      · next typed =>
          rw [not_or] at typed
          have data' : data = .none ∨ fits dformat (memoryviewToBytes o data) = true := by
            rcases settable with untyped | unformatted | fitting
            · exact absurd untyped typed.1
            · exact absurd unformatted typed.2
            · exact fitting
          dsimp only
          have settable' (dtype' : String) : Settable o ⟨dtype', dformat, data⟩ := .inr (.inr data')
          generalize (if r.target ≠ target ∧ dtype = target then r.target else dtype) = actual
          obtain ⟨response, answered, number⟩ := setSelectionResponse_answers (o := o) (s := s)
            (some r.number) r.requestor r.target actual r.time here data'
          rw [answered]
          obtain ⟨new, rest, numbers⟩ := ih (s := s.answers [response]) later
            (settable' actual)
          refine ⟨response :: new, ?_, ?_⟩
          · dsimp only
            rw [rest, answers_append]
            rfl
          · rw [List.filterMap_cons_some number, numbers, List.map_cons]

/-- A frame: the rest of the proxy after requests are answered. -/
structure Answers (s s' : Proxy) : Prop where
  reads : s'.reads = s.reads
  stack : s'.stack = s.stack
  conversions : s'.conversions = s.conversions
  enabled : s'.enabled = s.enabled
  offerEpoch : s'.offerEpoch = s.offerEpoch

/-- The caches are kept too, and no token is sent. -/
structure Untouched (s s' : Proxy) : Prop extends Answers s s' where
  targets : s'.targets = s.targets
  targetData : s'.targetData = s.targetData
  obtained : s'.obtained = s.obtained
  tokens : s'.tokens = s.tokens

theorem popAndRespond_answered (answered : Answered s.requests) (target : String)
    {contents : Contents} (settable : Settable o contents) :
    Answered (popAndRespond o s target contents).requests ∧
      Answers s (popAndRespond o s target contents) ∧
      ∀ entry ∈ (popAndRespond o s target contents).remoteRequests, entry.1 ≠ target := by
  unfold popAndRespond
  split
  · next absent => exact ⟨answered, ⟨rfl, rfl, rfl, rfl, rfl⟩, Dict.pop_none absent⟩
  · next pending rest popped =>
      have perm : s.requests.waiting.Perm (pending ++ rest.flatMap Prod.snd) :=
        (Dict.pop_perm popped).flatMap_right Prod.snd
      have named : ∀ r ∈ pending, r.prop ≠ "" :=
        fun r member => answered.named r (perm.mem_iff.mpr (List.mem_append_left _ member))
      obtain ⟨new, same, numbers⟩ := respondAll_answers (o := o)
        (s := { s with remoteRequests := rest }) target named settable
      rw [same]
      refine ⟨?_, ⟨rfl, rfl, rfl, rfl, rfl⟩, ?_⟩
      · constructor
        · have all := perm.map RemoteRequest.number
          rw [List.map_append, ← numbers] at all
          refine List.Perm.trans ?_ ((all.symm.append_left _).trans answered.once)
          rw [← List.append_assoc, ← List.filterMap_append]
          exact List.Perm.refl _
        · exact Dict.pop_distinct answered.keys popped
        · exact fun r member => answered.named r (perm.mem_iff.mpr (List.mem_append_right _ member))
      · intro entry member
        exact ((Dict.mem_pop answered.keys popped entry).mp member).2

theorem gotContents_answered (answered : Answered s.requests) (asked : Nat) {target : String}
    {contents : Contents} (sendable : Sendable o target contents) :
    Answered (gotContents o s asked target contents).requests ∧
      Answers s (gotContents o s asked target contents) ∧
      ∀ entry ∈ (gotContents o s asked target contents).remoteRequests, entry.1 ≠ target := by
  have popped (s' : Proxy) (same : s'.requests = s.requests) :=
    popAndRespond_answered (o := o) (s := s') (by rw [same]; exact answered) target sendable.1
  unfold gotContents
  split
  · next atom =>
      split
      · next fails => exact absurd fails (sendable.2 atom)
      · next targets found =>
        obtain ⟨kept, same, gone⟩ :=
          popped ((s.setTargets targets).note (.remoteTargets asked targets)) rfl
        exact ⟨kept, ⟨same.reads, same.stack, same.conversions, same.enabled, same.offerEpoch⟩, gone⟩
  · exact popped s rfl

/-- A response is given, or none, or it cannot be. -/
theorem setSelectionResponse_shape (o : Outside) (s : Proxy) (number : Option Nat) (requestor : Nat)
    (target prop dtype : String) (dformat : Nat) (data : PyVal) (time : Nat) :
    setSelectionResponse o s number requestor target prop dtype dformat data time = none ∨
      ∃ new, (∀ response ∈ new, response.number = number) ∧
        setSelectionResponse o s number requestor target prop dtype dformat data time =
          some (s.answers new) := by
  unfold setSelectionResponse
  split
  · exact .inr ⟨[], by simp, by rw [Proxy.answers, List.append_nil]⟩
  · split
    · exact .inr ⟨_, by simp, rfl⟩
    · dsimp only
      split
      · exact .inr ⟨_, by simp, rfl⟩
      · exact .inl rfl

/-- A request is responded to at once, or dropped, or kept. -/
theorem doSelectionRequestEvent_shape (idle : s.stack = []) (event : SelectionRequest) :
    (∃ new, (∀ response ∈ new, response.number = none) ∧
      doSelectionRequestEvent o s event = s.answers new) ∨
    (event.prop ≠ "" ∧ ∃ target, doSelectionRequestEvent o s event = s.wait target event ∨
      doSelectionRequestEvent o s event = (s.ask target).wait target event) := by
  have nothing : s = s.answers [] := by rw [Proxy.answers, List.append_nil]
  have respond (dtype : String) (dformat : Nat) (data : PyVal) :
      ∃ new, (∀ response ∈ new, response.number = none) ∧
        (setSelectionResponse o s none event.requestor event.target event.prop dtype dformat data
          event.time).getD s.raise = s.answers new := by
    rcases setSelectionResponse_shape o s none event.requestor event.target event.prop dtype dformat
      data event.time with fails | ⟨new, numbers, given⟩
    · rw [fails, raise_idle idle]
      exact ⟨[], by simp, nothing⟩
    · rw [given]
      exact ⟨new, numbers, rfl⟩
  unfold doSelectionRequestEvent
  dsimp only
  split
  · exact .inl ⟨[], by simp, nothing⟩
  · next valid =>
      have named : event.prop ≠ "" := fun empty => valid (.inr (.inr empty))
      split
      · exact .inl (respond "STRING" 8 (.bytes []))
      · split
        · exact .inl ⟨[], by simp, nothing⟩
        · split
          · exact .inl (respond "STRING" 8 (.bytes []))
          · split
            · split
              · exact .inl (respond "ATOM" 32 _)
              · refine .inr ⟨named, "TARGETS", ?_⟩
                split
                · exact .inl rfl
                · exact .inr rfl
            · split
              · exact .inl (respond "STRING" 8 (.bytes []))
              · generalize (if s.targets ≠ [] ∧ event.target ∉ s.targets then _ else _ : String) =
                  target
                split
                · exact .inl (respond _ _ _)
                · refine .inr ⟨named, target, ?_⟩
                  split
                  · exact .inr rfl
                  · exact .inl rfl

theorem doSelectionRequestEvent_untouched (idle : s.stack = []) (event : SelectionRequest) :
    Untouched s (doSelectionRequestEvent o s event) := by
  rcases doSelectionRequestEvent_shape (o := o) idle event with
    ⟨new, _, same⟩ | ⟨_, target, same | same⟩
  all_goals
    rw [same]
    exact ⟨⟨rfl, rfl, rfl, rfl, rfl⟩, rfl, rfl, rfl, rfl⟩

/-- A response to a request that was not kept. -/
theorem unkept_answered (answered : Answered s.requests) {new : List Response}
    (numbers : ∀ response ∈ new, response.number = none) : Answered (s.answers new).requests := by
  constructor
  · have same : (s.responses ++ new).filterMap Response.number =
        s.responses.filterMap Response.number := by
      rw [List.filterMap_append, List.filterMap_eq_nil_iff.mpr numbers, List.append_nil]
    have once := answered.once
    rw [show s.requests.responses = s.responses from rfl, ← same] at once
    exact once
  · exact answered.keys
  · exact answered.named

/-- A request that is kept. -/
theorem wait_answered (answered : Answered s.requests) {target : String} {event : SelectionRequest}
    (named : event.prop ≠ "") : Answered (s.wait target event).requests := by
  have perm := Dict.appendTo_perm s.remoteRequests target
    ⟨s.remoteRequestCounter, event.requestor, event.target, event.prop, event.time⟩
  constructor
  · have numbers := perm.map RemoteRequest.number
    rw [List.map_append] at numbers
    have range : List.range (s.wait target event).requests.remoteRequestCounter =
        List.range s.remoteRequestCounter ++ [s.remoteRequestCounter] := List.range_succ
    rw [range]
    refine (numbers.append_left _).trans ?_
    rw [← List.append_assoc]
    exact answered.once.append_right _
  · change ((Dict.appendTo s.remoteRequests target _).map Prod.fst).Nodup
    rw [Dict.appendTo_eq_set]
    exact Dict.set_distinct answered.keys _ _
  · intro r member
    rcases List.mem_append.mp (perm.mem_iff.mp member) with old | new
    · exact answered.named r old
    · rw [List.mem_singleton.mp new]
      exact named

theorem doSelectionRequestEvent_answered (answered : Answered s.requests) (idle : s.stack = [])
    (event : SelectionRequest) : Answered (doSelectionRequestEvent o s event).requests := by
  rcases doSelectionRequestEvent_shape (o := o) idle event with
    ⟨new, numbers, same⟩ | ⟨named, target, same | same⟩
  · rw [same]
    exact unkept_answered answered numbers
  · rw [same]
    exact wait_answered answered named
  · rw [same]
    exact wait_answered (s := s.ask target) answered named

/-! ### Runs -/

/-- What a task gives to applications can be given. -/
def Task.Safe (o : Outside) : Task → Prop
  | .gotContents target contents => Sendable o target contents
  | .tokenReceived _ targetData _ _ =>
      ∀ entry ∈ targetData, textTargets.contains entry.1 = true → Settable o entry.2
  | _ => True

/-- What a run keeps. -/
structure Kept (o : Outside) (s : Proxy) : Prop where
  accounted : Accounted s.reads
  answered : Answered s.requests
  safe : ∀ task ∈ s.stack, task.Safe o

/-- The property is an answer to those who read its target. -/
def Answering (s : Proxy) (atom : Atom) (p : Property) : Prop :=
  s.enabled = true ∧ atom.epoch = s.offerEpoch ∧
    match Dict.get s.incrData atom with
    | none => p.dtype ≠ "INCR"
    | some state =>
        ((state.typed p).dtype, (state.typed p).dformat) ≠ (p.dtype, p.dformat) ∨ p.data = []

/-- The images can be decoded, and the targets are atoms. -/
def Accepted (o : Outside) (s : Proxy) (atom : Atom) (p : Property) : Prop :=
  match Dict.get s.incrData atom with
  | none => filterData o p.dtype p.data ≠ none ∧
      (atom.target = "TARGETS" → xatomsToStrings o p.data ≠ none)
  | some state => filterData o p.dtype state.chunks.flatten ≠ none

/-- What is answered can be given to those who wait for it, a cleanup finds nobody who waits, and a
callback raises only when no other is about to be called. -/
def Clean (o : Outside) (s : Proxy) : Action → Prop
  | .cleanup => s.remoteRequests = [] ∧ s.localRequests = []
  | .raised => s.reads.due = []
  | .propertyNotify atom (some p) => Answering s atom p → Accepted o s atom p
  | .gotContents _ target contents => Sendable o target contents
  | .gotToken _ targetData _ _ => ∀ entry ∈ targetData, textTargets.contains entry.1 = true →
      Settable o entry.2
  | _ => True

theorem getContents_stack (s : Proxy) (weOwn : Bool) (target : String) (callback : Callback) :
    (getContents o s weOwn target callback).stack = s.stack ∨
      ∃ completion, (getContents o s weOwn target callback).stack = .complete completion :: s.stack := by
  unfold getContents
  split
  · exact .inr ⟨_, rfl⟩
  · split
    · exact .inr ⟨_, rfl⟩
    · exact .inl rfl

theorem getContents_kept (kept : Kept o s) (weOwn : Bool) (target : String) (callback : Callback) :
    Kept o (getContents o s weOwn target callback) := by
  have requests : (getContents o s weOwn target callback).requests = s.requests := by
    unfold getContents
    split
    · rfl
    · split <;> rfl
  constructor
  · exact getContents_accounted kept.accounted weOwn target callback
  · rw [requests]
    exact kept.answered
  · rcases getContents_stack (o := o) s weOwn target callback with same | ⟨completion, pushed⟩
    · rw [same]
      exact kept.safe
    · rw [pushed]
      exact List.forall_mem_cons.mpr ⟨trivial, kept.safe⟩

theorem Quiet.kept (quiet : Quiet s s') (kept : Kept o s) : Kept o s' := by
  constructor
  · rw [quiet.reads]
    exact kept.accounted
  · rw [quiet.requests]
    exact kept.answered
  · rw [quiet.stack]
    exact kept.safe

theorem Chains.kept (chains : Chains o s s') (kept : Kept o s) : Kept o s' := by
  rcases chains with quiet | ⟨before, weOwn, target, callback, quiet, rfl⟩
  · exact quiet.kept kept
  · exact getContents_kept (quiet.kept kept) weOwn target callback

/-- More callbacks are about to be called. -/
theorem safe_complete (kept : Kept o s) (requests : List LocalRequest)
    (give : LocalRequest → Contents) :
    ∀ task ∈ (requests.map fun r => r.complete (give r)) ++ s.stack, task.Safe o := by
  intro task member
  rcases List.mem_append.mp member with new | old
  · obtain ⟨r, _, rfl⟩ := List.mem_map.mp new
    trivial
  · exact kept.safe task old

theorem invalidateLocalReads_kept (kept : Kept o s) : Kept o (invalidateLocalReads s) where
  accounted := invalidateLocalReads_accounted kept.accounted
  answered := kept.answered
  safe := safe_complete kept _ _

theorem gotLocalContents_kept (kept : Kept o s) {target dtype : String} (dformat : Nat) {data : Bytes}
    (safe : s.stack = [] ∨ filterData o dtype data ≠ none) :
    Kept o (gotLocalContents o s target dtype dformat data) := by
  have frame : (gotLocalContents o s target dtype dformat data).requests = s.requests ∧
      ∀ task ∈ (gotLocalContents o s target dtype dformat data).stack, task.Safe o := by
    unfold gotLocalContents
    split
    · refine ⟨rfl, ?_⟩
      intro task member
      cases member
    · split
      · exact ⟨rfl, kept.safe⟩
      · exact ⟨rfl, safe_complete kept _ _⟩
  constructor
  · exact gotLocalContents_accounted kept.accounted dformat safe
  · rw [frame.1]
    exact kept.answered
  · exact frame.2

/-- A callback is called. -/
theorem called_accounted (accounted : Accounted b) {c : Completion} {due : List Completion}
    (first : b.due = c :: due) :
    Accounted { b with
      completed := b.completed ++ [c]
      due := due
      timers := c.timer.elim b.timers b.timers.remove } := by
  have once := accounted.once
  have owed := accounted.owed
  rw [first] at once owed
  constructor
  · rw [List.map_append, List.append_assoc]
    exact once
  · exact accounted.distinct
  · exact accounted.below
  · exact accounted.keys
  · exact accounted.filed
  · intro r member
    have armed := accounted.armed r member
    cases timer : c.timer with
    | none => exact armed
    | some source =>
        exact Sources.mem_remove.mpr ⟨armed, (owed c List.mem_cons_self source timer).2 r member⟩
  · intro c' member source timer
    have still := owed c' (List.mem_cons_of_mem _ member) source timer
    cases c.timer <;> exact still
  · intro entry member
    obtain ⟨below, other⟩ := accounted.incr entry member
    cases c.timer with
    | none => exact ⟨below, other⟩
    | some source =>
        exact ⟨below, fun target requestId armed =>
          other target requestId (Sources.mem_remove.mp armed).1⟩

theorem complete_kept (kept : Kept o s) {completion : Completion} {rest : List Task}
    (first : s.stack = .complete completion :: rest) (weOwn : Bool) :
    Kept o (complete o { s with stack := rest } weOwn completion) := by
  have due : s.reads.due = completion :: rest.filterMap Task.completion? := by
    change s.stack.filterMap Task.completion? = _
    rw [first]
    rfl
  have safe := kept.safe
  rw [first] at safe
  have called : Kept o { s with
      stack := rest
      timers := completion.timer.elim s.timers s.timers.remove
      completed := s.completed ++ [completion] } :=
    ⟨called_accounted kept.accounted due, kept.answered, (List.forall_mem_cons.mp safe).2⟩
  unfold complete
  dsimp only
  generalize ({ s with
      stack := rest
      timers := completion.timer.elim s.timers s.timers.remove
      completed := s.completed ++ [completion] } : Proxy) = now at called ⊢
  split
  · exact ⟨called.accounted, called.answered, List.forall_mem_cons.mpr ⟨trivial, called.safe⟩⟩
  · exact (gotTargets_chains now weOwn _ _).kept called
  · exact (gotFiles_chains now weOwn _ _ _ _).kept called
  · exact (gotChosenTarget_quiet now _ _ _ _ _).kept called

theorem unpackLongs_packLong (n : Nat) (data : Bytes) :
    unpackLongs (packLong n ++ data) = none ↔ unpackLongs data = none := by
  have shape : packLong n = [UInt8.ofNat (n / 256 ^ 0), UInt8.ofNat (n / 256 ^ 1),
      UInt8.ofNat (n / 256 ^ 2), UInt8.ofNat (n / 256 ^ 3), UInt8.ofNat (n / 256 ^ 4),
      UInt8.ofNat (n / 256 ^ 5), UInt8.ofNat (n / 256 ^ 6), UInt8.ofNat (n / 256 ^ 7)] := rfl
  rw [shape]
  simp only [List.cons_append, List.nil_append, unpackLongs]
  cases unpackLongs data <;> simp

theorem length_packLong (n : Nat) : (packLong n).length = 8 := rfl

/-- A list of targets can be given. -/
theorem announce_sendable (o : Outside) (targets : List String) :
    Sendable o "TARGETS" ⟨"ATOM", 32, .bytes (stringsToXatoms o targets)⟩ := by
  have atoms (names : List String) :
      unpackLongs (names.flatMap fun name => packLong (o.xatom name)) ≠ none ∧
        (names.flatMap fun name => packLong (o.xatom name)).length % 8 = 0 := by
    induction names with
    | nil => exact ⟨by simp [unpackLongs], rfl⟩
    | cons name names ih =>
        obtain ⟨whole, length⟩ := ih
        rw [List.flatMap_cons]
        constructor
        · rw [Ne, unpackLongs_packLong]
          exact whole
        · rw [List.length_append, length_packLong, Nat.add_mod_left]
          exact length
  obtain ⟨whole, length⟩ := atoms (targets.filter (· ≠ ""))
  constructor
  · refine .inr (.inr (.inr ?_))
    simp only [fits, memoryviewToBytes, stringsToXatoms, length, decide_true, Bool.and_self,
      Bool.or_true]
  · intro _
    simp only [targetsOf, xatomsToStrings, stringsToXatoms, Ne, Option.map_eq_none_iff]
    exact whole

/-- Tasks that call no callback. -/
theorem pushed_kept (kept : Kept o s) (more : List Task)
    (safe : ∀ task ∈ more, task.Safe o ∧ task.completion? = none) :
    Kept o { s with stack := more ++ s.stack } := by
  have due : (more ++ s.stack).filterMap Task.completion? = s.stack.filterMap Task.completion? := by
    rw [List.filterMap_append, List.filterMap_eq_nil_iff.mpr fun task member => (safe task member).2,
      List.nil_append]
  constructor
  · have accounted := kept.accounted
    unfold Proxy.reads at accounted
    rw [← due] at accounted
    exact accounted
  · exact kept.answered
  · intro task member
    rcases List.mem_append.mp member with new | old
    · exact (safe task new).1
    · exact kept.safe task old

theorem mem_claimTasks {targets : List String} {targetData : List (String × Contents)}
    {synchronousClient : Bool} {task : Task}
    (member : task ∈ claimTasks o targets targetData synchronousClient) :
    task = .claim ∨ ∃ target contents, task = .gotContents target contents ∧
      ((target = "TARGETS" ∧ contents = ⟨"ATOM", 32, .bytes (stringsToXatoms o targets)⟩) ∨
        ((target, contents) ∈ targetData ∧ textTargets.contains target = true)) := by
  unfold claimTasks at member
  dsimp only at member
  rcases List.mem_append.mp member with others | last
  · rcases List.mem_append.mp others with announce | answer
    · split at announce
      · cases announce
      · exact .inr ⟨_, _, List.mem_singleton.mp announce, .inl ⟨rfl, rfl⟩⟩
    · split at answer
      · cases answer
      · obtain ⟨entry, first, rfl⟩ := List.mem_map.mp answer
        obtain ⟨here, text⟩ := List.mem_filter.mp (List.mem_of_mem_take first)
        exact .inr ⟨_, _, rfl, .inr ⟨here, text⟩⟩
  · exact .inl (List.mem_singleton.mp last)

theorem tokenReceived_kept (kept : Kept o s) (targets : List String)
    {targetData : List (String × Contents)} (claim synchronousClient : Bool)
    (settable : ∀ entry ∈ targetData, textTargets.contains entry.1 = true → Settable o entry.2) :
    Kept o (tokenReceived o s targets targetData claim synchronousClient) := by
  unfold tokenReceived
  dsimp only
  split
  · exact ⟨kept.accounted, kept.answered, kept.safe⟩
  · split
    · exact ⟨kept.accounted, kept.answered, kept.safe⟩
    · apply pushed_kept
      · exact ⟨kept.accounted, kept.answered, kept.safe⟩
      · intro task member
        rcases mem_claimTasks member with rfl | ⟨target, contents, rfl, announce | ⟨here, text⟩⟩
        · exact ⟨trivial, rfl⟩
        · rw [announce.1, announce.2]
          exact ⟨announce_sendable o _, rfl⟩
        · refine ⟨⟨settable _ here text, ?_⟩, rfl⟩
          rintro ⟨atoms, _⟩
          rw [atoms] at text
          exact absurd text (by decide)

theorem cleanup_kept (kept : Kept o s) (waiting : s.remoteRequests = [])
    (pending : s.localRequests = []) : Kept o (cleanup o s) := by
  have reset : Kept o s.resetAllIncrData :=
    ⟨resetAllIncrData_accounted kept.accounted, kept.answered, kept.safe⟩
  have same : cleanup o s = s.resetAllIncrData := by
    simp only [cleanup, Proxy.resetAllIncrData, waiting, pending, List.map_nil, gotNothing,
      List.nil_append]
  rw [same]
  exact reset

/-! ### The requests an action ends -/

theorem Accounted.entry (accounted : Accounted b) {r : LocalRequest} (member : r ∈ b.pending) :
    ∃ requests, Dict.get b.localRequests r.target = some requests ∧ r ∈ requests := by
  obtain ⟨entry, here, within⟩ := List.mem_flatMap.mp member
  have target := accounted.filed entry here r within
  refine ⟨entry.2, ?_, within⟩
  rw [target]
  exact Dict.mem_get accounted.keys here

theorem timeoutGetContents_pending (accounted : Accounted s.reads) (target : String)
    (requestId : Nat) (r : LocalRequest) :
    r ∈ (timeoutGetContents s target requestId).reads.pending ↔
      r ∈ s.reads.pending ∧ ¬ (r.target = target ∧ r.requestId = requestId) := by
  have unchanged (absent : ∀ r ∈ s.reads.pending, ¬ (r.target = target ∧ r.requestId = requestId)) :
      r ∈ s.reads.pending ↔
        r ∈ s.reads.pending ∧ ¬ (r.target = target ∧ r.requestId = requestId) :=
    ⟨fun member => ⟨member, absent r member⟩, And.left⟩
  unfold timeoutGetContents
  split
  · next none =>
      apply unchanged
      rintro r member ⟨same, _⟩
      obtain ⟨requests, found, _⟩ := accounted.entry member
      rw [same] at found
      rw [show Dict.get s.reads.localRequests target = Option.none from none] at found
      cases found
  · next requests found =>
      split
      · next none =>
          apply unchanged
          rintro r member ⟨same, number⟩
          obtain ⟨requests', found', within⟩ := accounted.entry member
          rw [same, show Dict.get s.reads.localRequests target = some requests from found] at found'
          cases found'
          exact absurd (decide_eq_true number) (List.find?_eq_none.mp none r within)
      · next r₀ here =>
          obtain ⟨perm, _, _⟩ := timeout_takes accounted found here
          have ids := (perm.map LocalRequest.requestId).nodup_iff.mp accounted.distinct
          rw [List.singleton_append, List.map_cons, List.nodup_cons] at ids
          have first := List.mem_of_find?_eq_some here
          have number : r₀.requestId = requestId := by
            simpa using List.find?_some here
          have filed := accounted.filed _ (Dict.get_mem found) r₀ first
          change r ∈ List.flatMap Prod.snd _ ↔ _
          rw [perm.mem_iff, List.singleton_append, List.mem_cons]
          constructor
          · intro left
            refine ⟨.inr left, ?_⟩
            rintro ⟨_, same⟩
            exact ids.1 (number.trans same.symm ▸ List.mem_map_of_mem left)
          · rintro ⟨rfl | left, other⟩
            · exact absurd ⟨filed, number⟩ other
            · exact left

theorem gotLocalContents_pending (accounted : Accounted s.reads) (target : String) {dtype : String}
    (dformat : Nat) {data : Bytes} (accepted : filterData o dtype data ≠ none) (r : LocalRequest) :
    r ∈ (gotLocalContents o s target dtype dformat data).reads.pending ↔
      r ∈ s.reads.pending ∧ r.target ≠ target := by
  unfold gotLocalContents
  split
  · next fails => exact absurd fails accepted
  · split
    · next absent =>
        constructor
        · intro member
          refine ⟨member, ?_⟩
          obtain ⟨requests, found, _⟩ := accounted.entry member
          exact Dict.pop_none absent _ (Dict.get_mem found)
        · exact And.left
    · next requests rest popped =>
        change r ∈ rest.flatMap Prod.snd ↔ _
        rw [List.mem_flatMap]
        constructor
        · rintro ⟨entry, left, within⟩
          obtain ⟨here, other⟩ := (Dict.mem_pop accounted.keys popped entry).mp left
          refine ⟨mem_pending here within, ?_⟩
          rw [accounted.filed entry here r within]
          exact other
        · rintro ⟨member, other⟩
          obtain ⟨requests', found, within⟩ := accounted.entry member
          exact ⟨(r.target, requests'),
            (Dict.mem_pop accounted.keys popped _).mpr ⟨Dict.get_mem found, other⟩, within⟩

theorem timeoutGetContents_timers (s : Proxy) (timers : Sources Timer) (target : String)
    (requestId : Nat) :
    timeoutGetContents { s with timers := timers } target requestId =
      { timeoutGetContents s target requestId with timers := timers } := by
  unfold timeoutGetContents
  dsimp only
  split
  · rfl
  · split
    · rfl
    · rfl

theorem timeoutGetContents_frame (s : Proxy) (target : String) (requestId : Nat) :
    (timeoutGetContents s target requestId).timers = s.timers ∧
      (timeoutGetContents s target requestId).requests = s.requests ∧
      ∃ more, (timeoutGetContents s target requestId).stack = more ++ s.stack ∧
        ∀ task ∈ more, ∃ completion, task = .complete completion := by
  unfold timeoutGetContents
  split
  · exact ⟨rfl, rfl, [], rfl, by simp⟩
  · split
    · exact ⟨rfl, rfl, [], rfl, by simp⟩
    · next r here =>
        refine ⟨rfl, rfl, [r.complete (emptyContents target)], rfl, ?_⟩
        intro task member
        rw [List.mem_singleton.mp member]
        exact ⟨_, rfl⟩

/-- A timer of the main loop expires, and is gone. -/
theorem timeout_kept (kept : Kept o s) {source : Nat} {timer : Timer}
    (armed : (source, timer) ∈ s.timers.sources) :
    Kept o (timer.run { s with timers := s.timers.remove source }) := by
  cases timer with
  | getContents target requestId =>
      have timed := timeoutGetContents_accounted kept.accounted target requestId
      obtain ⟨timers, requests, more, stack, callbacks⟩ :=
        timeoutGetContents_frame s target requestId
      have other : ∀ r ∈ (timeoutGetContents s target requestId).reads.pending, r.timer ≠ source := by
        intro r member same
        obtain ⟨still, apart⟩ :=
          (timeoutGetContents_pending kept.accounted target requestId r).mp member
        have callback := kept.accounted.armed r still
        rw [same] at callback
        have equal := Sources.callback_unique callback armed
        rw [Timer.getContents.injEq] at equal
        exact apart equal
      have gone := expired_accounted timed other
      rw [Timer.run, timeoutGetContents_timers]
      constructor
      · rw [show (timeoutGetContents s target requestId).reads.timers = s.timers from timers] at gone
        exact gone
      · change Answered (timeoutGetContents s target requestId).requests
        rw [requests]
        exact kept.answered
      · change ∀ task ∈ (timeoutGetContents s target requestId).stack, task.Safe o
        rw [stack]
        intro task member
        rcases List.mem_append.mp member with new | old
        · obtain ⟨completion, rfl⟩ := callbacks task new
          trivial
        · exact kept.safe task old
  | incrData atom =>
      have other : ∀ r ∈ s.reads.pending, r.timer ≠ source := by
        intro r member same
        have callback := kept.accounted.armed r member
        rw [same] at callback
        cases Sources.callback_unique callback armed
      have gone := expired_accounted kept.accounted other
      exact ⟨incrDataTimeout_accounted (s := { s with timers := s.timers.remove source }) gone atom,
        kept.answered, kept.safe⟩

theorem resetIncrData_kept (kept : Kept o s) (atom : Atom) : Kept o (s.resetIncrData atom) :=
  ⟨resetIncrData_accounted kept.accounted atom, kept.answered, kept.safe⟩

theorem gotProperty_kept (kept : Kept o s) (idle : s.stack = []) (atom : Atom) (p : Property) :
    Kept o (gotProperty o s atom p) := by
  have noted := (note_quiet s (.read atom.epoch atom.target p.dtype p.dformat p.data)).kept kept
  unfold gotProperty
  dsimp only
  split
  · split
    · rw [raise_idle (by exact idle)]
      exact noted
    · exact gotLocalContents_kept ((setTargets_quiet _ _).kept noted) p.dformat (.inl idle)
  · exact gotLocalContents_kept noted p.dformat (.inl idle)

theorem gotIncremental_kept (kept : Kept o s) (idle : s.stack = []) {atom : Atom}
    {state : IncrementalData} (known : (atom, state) ∈ s.incrData) (p : Property) :
    Kept o (gotIncremental o s atom state p) := by
  have reset := resetIncrData_kept kept atom
  unfold gotIncremental
  dsimp only
  split
  · exact gotLocalContents_kept reset 0 (.inl idle)
  · split
    · refine ⟨rescheduleIncrDataTimer_accounted kept.accounted atom ?_, kept.answered, kept.safe⟩
      exact .inr ⟨_, known, (state.typed_timer p).symm⟩
    · exact gotLocalContents_kept ((note_quiet _ _).kept reset) p.dformat (.inl idle)

theorem doPropertyNotify_kept (kept : Kept o s) (idle : s.stack = []) (atom : Atom)
    (property : Option Property) : Kept o (doPropertyNotify o s atom property) := by
  unfold doPropertyNotify
  split
  · exact kept
  · split
    · exact kept
    · split
      · exact kept
      · next p =>
          split
          · next state found => exact gotIncremental_kept kept idle (Dict.get_mem found) p
          · split
            · split
              · exact ⟨rescheduleIncrDataTimer_accounted kept.accounted atom (.inl rfl),
                  kept.answered, kept.safe⟩
              · rw [raise_idle idle]
                exact kept
            · exact gotProperty_kept kept idle atom p

theorem Answers.kept (same : Answers s s') (answered : Answered s'.requests) (kept : Kept o s) :
    Kept o s' := by
  refine ⟨?_, answered, ?_⟩
  · rw [same.reads]
    exact kept.accounted
  · rw [same.stack]
    exact kept.safe

theorem run_kept (kept : Kept o s) {task : Task} {rest : List Task} (first : s.stack = task :: rest)
    (weOwn : Bool) : Kept o (task.run o { s with stack := rest } weOwn) := by
  have safe := kept.safe
  rw [first] at safe
  obtain ⟨here, later⟩ := List.forall_mem_cons.mp safe
  have dropped (none : task.completion? = none) : Kept o { s with stack := rest } := by
    refine ⟨?_, kept.answered, later⟩
    have accounted := kept.accounted
    unfold Proxy.reads at accounted ⊢
    rw [first, List.filterMap_cons_none none] at accounted
    exact accounted
  cases task with
  | complete completion => exact complete_kept kept first weOwn
  | running n => exact dropped rfl
  | ownerChanged => exact (ownerChanged_chains _ weOwn).kept (dropped rfl)
  | tokenReceived targets targetData claim synchronousClient =>
      exact tokenReceived_kept (dropped rfl) targets claim synchronousClient here
  | gotContents target contents =>
      obtain ⟨answered, same, _⟩ := gotContents_answered (dropped rfl).answered _ here
      exact same.kept answered (dropped rfl)
  | gotLocalContents target =>
      have accepted : filterData o "" [] ≠ none := by
        rw [filterData_nil]
        exact Option.some_ne_none _
      exact gotLocalContents_kept (dropped rfl) 8 (.inr accepted)
  | claim =>
      have still := dropped rfl
      exact ⟨still.accounted, still.answered, still.safe⟩

/-- Reads are invalidated, and something is left to do then. -/
theorem invalidate_kept (kept : Kept o s) (task : Task) (safe : task.Safe o)
    (none : task.completion? = none) : Kept o (invalidateLocalReads (s.push task)) := by
  apply invalidateLocalReads_kept
  exact pushed_kept kept [task] (by
    intro task' member
    rw [List.mem_singleton.mp member]
    exact ⟨safe, none⟩)

theorem doSelectionNotifyEvent_kept (kept : Kept o s) (owner timestamp : Nat) :
    Kept o (doSelectionNotifyEvent s owner timestamp) := by
  unfold doSelectionNotifyEvent
  dsimp only
  have owned : Kept o { s with owned := decide (owner ≠ 0 ∧ owner = s.xid) } :=
    ⟨kept.accounted, kept.answered, kept.safe⟩
  split
  · exact owned
  · split
    · exact invalidate_kept owned .ownerChanged trivial rfl
    · split
      · exact owned
      · refine invalidate_kept ?_ .ownerChanged trivial rfl
        unfold setLocalClipboardOrigin
        split <;> exact ⟨kept.accounted, kept.answered, kept.safe⟩

theorem raise_kept (kept : Kept o s) (last : s.reads.due = []) : Kept o s.raise := by
  have same : s.raise.reads = s.reads := by
    have none : s.stack.filterMap Task.completion? = [] := last
    unfold Proxy.reads
    rw [none]
    rfl
  refine ⟨?_, kept.answered, List.forall_mem_nil _⟩
  rw [same]
  exact kept.accounted

/-- One action of a run. -/
theorem step_kept (kept : Kept o s) {a : Action} (clean : Clean o s a) (taken : step o s a s') :
    Kept o s' := by
  cases a with
  | proceed weOwn =>
      obtain ⟨task, rest, first, rfl⟩ := taken
      exact run_kept kept first weOwn
  | getContents target n weOwn =>
      obtain ⟨_, rfl⟩ := taken
      exact getContents_kept kept weOwn target (.caller n)
  | gotToken targets targetData claim synchronousClient =>
      obtain ⟨_, rfl⟩ := taken
      unfold gotToken
      split
      · exact kept
      · exact invalidate_kept kept _ clean rfl
  | gotContents asked target contents =>
      obtain ⟨_, rfl⟩ := taken
      obtain ⟨answered, same, _⟩ := gotContents_answered kept.answered _ clean
      exact same.kept answered kept
  | cleanup =>
      obtain ⟨_, rfl⟩ := taken
      exact cleanup_kept kept clean.1 clean.2
  | claim weOwn | setEnabled enabled | setDirection canSend canReceive | setWantTargets wantTargets
  | setGreedyClient greedy | setPreferredTargets preferredTargets =>
      obtain ⟨_, rfl⟩ := taken
      exact ⟨kept.accounted, kept.answered, kept.safe⟩
  | raised =>
      obtain ⟨_, rfl⟩ := taken
      exact raise_kept kept clean
  | selectionRequest event =>
      obtain ⟨idle, rfl⟩ := taken
      have answered := doSelectionRequestEvent_answered (o := o) kept.answered idle event
      exact (doSelectionRequestEvent_untouched idle event).toAnswers.kept answered kept
  | selectionNotify owner timestamp =>
      obtain ⟨_, rfl⟩ := taken
      exact doSelectionNotifyEvent_kept kept owner timestamp
  | selectionClear =>
      obtain ⟨_, rfl⟩ := taken
      unfold doSelectionClearEvent
      split
      · exact kept
      · exact invalidate_kept (s := { s with owned := false })
          ⟨kept.accounted, kept.answered, kept.safe⟩ .ownerChanged trivial rfl
  | propertyNotify atom property =>
      obtain ⟨idle, rfl⟩ := taken
      exact doPropertyNotify_kept kept idle atom property
  | timeout source timer =>
      obtain ⟨_, armed, rfl⟩ := taken
      exact timeout_kept kept armed

theorem initial_kept (first : initial s) : Kept o s := by
  obtain ⟨xid, selection, originNamespace, rfl⟩ := first
  constructor
  · constructor
    · exact List.Perm.refl _
    all_goals simp [Proxy.reads, newProxy, Reads.pending, Filed]
  · constructor
    · exact List.Perm.refl _
    all_goals simp [Proxy.requests, newProxy, Requests.waiting]
  · simp [newProxy]

/-- The action is the answer to a read, its timeout, its invalidation, or the end of the proxy. -/
def Ends (s : Proxy) (r : LocalRequest) : Action → Prop
  | .propertyNotify atom (some p) => r.target = atom.target ∧ Answering s atom p
  | .timeout _ (.getContents target requestId) => r.target = target ∧ r.requestId = requestId
  | .gotToken _ _ _ _ => s.enabled = true
  | .selectionClear => s.enabled = true
  | .selectionNotify owner _ =>
      s.enabled = true ∧ (owner = 0 ∨ (owner ≠ s.xid ∧ s.canSend = true))
  | .cleanup => True
  | _ => False

/-- The action is the reply to those who wait for the target, or the end of the proxy. -/
def Replies (s : Proxy) (target : String) : Action → Prop
  | .gotContents _ target' _ => target' = target
  | .proceed _ => ∃ contents rest, s.stack = .gotContents target contents :: rest
  | .cleanup => True
  | _ => False

theorem answering_pending (accounted : Accounted s.reads) {atom : Atom} {p : Property}
    (answering : Answering s atom p) (accepted : Accepted o s atom p) (r : LocalRequest) :
    r ∈ (doPropertyNotify o s atom (some p)).reads.pending ↔
      r ∈ s.reads.pending ∧ r.target ≠ atom.target := by
  obtain ⟨enabled, epoch, answer⟩ := answering
  have reset := resetIncrData_accounted accounted atom
  unfold doPropertyNotify
  rw [if_neg (by simp [enabled]), if_neg (by simp [epoch])]
  unfold Accepted at accepted
  cases found : Dict.get s.incrData atom with
  | none =>
      simp only [found] at answer accepted
      dsimp only
      rw [if_neg answer, gotProperty]
      split
      · next targets =>
          split
          · next fails => exact absurd fails (accepted.2 targets)
          · exact gotLocalContents_pending (s := (s.note _).setTargets _) accounted atom.target
              p.dformat accepted.1 r
      · exact gotLocalContents_pending (s := s.note _) accounted atom.target p.dformat accepted.1 r
  | some state =>
      simp only [found] at answer accepted
      dsimp only
      rw [gotIncremental]
      dsimp only
      split
      · exact gotLocalContents_pending reset atom.target 0 (by simp [filterData_nil]) r
      · next same =>
          have ended : p.data = [] := by
            rcases answer with differs | ended
            · exact absurd differs same
            · exact ended
          rw [if_neg (by simp [ended])]
          rw [IncrementalData.typed_chunks]
          exact gotLocalContents_pending (s := (s.resetIncrData atom).note _) reset atom.target
            p.dformat accepted r

theorem invalidateLocalReads_pending (s : Proxy) : (invalidateLocalReads s).reads.pending = [] := rfl

/-- A read that is over is off the table. -/
theorem ends_pending (kept : Kept o s) {a : Action} (clean : Clean o s a) (taken : step o s a s')
    {r : LocalRequest} (ends : Ends s r a) : r ∉ s'.reads.pending := by
  cases a with
  | propertyNotify atom property =>
      cases property with
      | none => cases ends
      | some p =>
          obtain ⟨_, rfl⟩ := taken
          obtain ⟨target, answering⟩ := ends
          rw [answering_pending kept.accounted answering (clean answering)]
          exact fun member => member.2 target
  | timeout source timer =>
      cases timer with
      | incrData atom => cases ends
      | getContents target requestId =>
          obtain ⟨_, _, rfl⟩ := taken
          rw [Timer.run, timeoutGetContents_timers]
          change r ∉ (timeoutGetContents s target requestId).reads.pending
          rw [timeoutGetContents_pending kept.accounted]
          exact fun member => member.2 ends
  | gotToken targets targetData claim synchronousClient =>
      obtain ⟨_, rfl⟩ := taken
      have enabled : s.enabled = true := ends
      rw [gotToken, if_neg (by simp [enabled]), invalidateLocalReads_pending]
      exact List.not_mem_nil
  | selectionClear =>
      obtain ⟨_, rfl⟩ := taken
      have enabled : s.enabled = true := ends
      rw [doSelectionClearEvent, if_neg (by simp [enabled]), doOwnerChanged,
        invalidateLocalReads_pending]
      exact List.not_mem_nil
  | selectionNotify owner timestamp =>
      obtain ⟨_, rfl⟩ := taken
      obtain ⟨enabled, owned⟩ := ends
      rw [doSelectionNotifyEvent]
      dsimp only
      rw [if_neg (by simp [enabled])]
      split
      · rw [doOwnerChanged, invalidateLocalReads_pending]
        exact List.not_mem_nil
      · next other =>
          obtain ⟨apart, sends⟩ := owned.resolve_left other
          rw [if_neg (by simp [apart, sends]), doOwnerChanged, invalidateLocalReads_pending]
          exact List.not_mem_nil
  | cleanup =>
      obtain ⟨_, rfl⟩ := taken
      exact List.not_mem_nil
  | proceed | getContents | gotContents | claim | setEnabled | setDirection | setWantTargets
  | setGreedyClient | setPreferredTargets | raised | selectionRequest => cases ends

/-- After the reply nobody waits for the target. -/
theorem replies_waiting (kept : Kept o s) {a : Action} (clean : Clean o s a) (taken : step o s a s')
    {target : String} (replies : Replies s target a) :
    ∀ entry ∈ s'.remoteRequests, entry.1 ≠ target := by
  cases a with
  | gotContents asked target' contents =>
      obtain ⟨_, rfl⟩ := taken
      have same : target' = target := replies
      rw [← same]
      exact (gotContents_answered kept.answered _ clean).2.2
  | proceed weOwn =>
      obtain ⟨task, rest, first, rfl⟩ := taken
      obtain ⟨contents, rest', replied⟩ := replies
      rw [first] at replied
      cases replied
      have safe := kept.safe
      rw [first] at safe
      exact (gotContents_answered (s := { s with stack := rest }) kept.answered _
        (List.forall_mem_cons.mp safe).1).2.2
  | cleanup =>
      obtain ⟨_, rfl⟩ := taken
      have same : (cleanup o s).remoteRequests = [] := by
        rw [cleanup]
        simp only [clean.1, Proxy.resetAllIncrData, List.map_nil, gotNothing]
      rw [same]
      exact fun entry member => by cases member
  | getContents | gotToken | claim | setEnabled | setDirection | setWantTargets | setGreedyClient
  | setPreferredTargets | raised | selectionRequest | selectionNotify | selectionClear | propertyNotify
  | timeout => cases replies

/-- Entries of a permutation of a range: each number is in one of two lists. -/
theorem count_of_perm {left right : List Nat} {n : Nat} (perm : (left ++ right).Perm (List.range n))
    (number : Nat) : left.count number = if number < n ∧ number ∉ right then 1 else 0 := by
  have distinct := perm.nodup_iff.mpr List.nodup_range
  have total := perm.count_eq number
  rw [List.count_append, List.nodup_range.count, (List.nodup_append.mp distinct).2.1.count] at total
  simp only [List.mem_range] at total
  split at total <;> split at total <;> split <;> grind

/-- In every run whose answers can be given to those who wait, and whose cleanups find nobody who
waits: a callback is called once, unless it is about to be called or its read is still on the table;
an application that waited is answered once, unless it still waits; every read on the table has its
timer; and the answer, the timeout, the invalidation or the cleanup takes the read off the table, as
the reply does with those who wait. -/
theorem reads_complete_once
    (run : Reachable initial (fun s a s' => Clean o s a ∧ step o s a s') s) :
    (∀ call, (s.completed.map Completion.call).count call =
      if call < s.calls ∧
        call ∉ s.reads.due.map Completion.call ++ s.reads.pending.map LocalRequest.call
      then 1 else 0) ∧
    (∀ number, (s.responses.filterMap Response.number).count number =
      if number < s.remoteRequestCounter ∧ number ∉ s.requests.waiting.map RemoteRequest.number
      then 1 else 0) ∧
    (∀ r ∈ s.reads.pending, (r.timer, .getContents r.target r.requestId) ∈ s.timers.sources) ∧
    ∀ a s', Clean o s a → step o s a s' →
      (∀ r, Ends s r a → r ∉ s'.reads.pending) ∧
      ∀ target, Replies s target a → ∀ entry ∈ s'.remoteRequests, entry.1 ≠ target := by
  have kept : Kept o s := by
    refine run.invariant (fun _ => initial_kept) ?_
    intro s a s' kept taken
    exact step_kept kept taken.1 taken.2
  refine ⟨count_of_perm kept.accounted.once, count_of_perm kept.answered.once,
    kept.accounted.armed, ?_⟩
  intro a s' clean taken
  exact ⟨fun r ends => ends_pending kept clean taken ends,
    fun target replies => replies_waiting kept clean taken replies⟩

/-- An X server without atoms, and libraries that change nothing. -/
def bareOutside : Outside where
  atomName _ := ""
  xatom _ := 0
  sanitize _ data := some data
  str _ := ""
  fileUris _ := []

def clipboardProxy : Proxy := newProxy 1 "CLIPBOARD" "origin"

def enabledProxy : Proxy := { clipboardProxy with enabled := true }

/-- The first read. -/
def readProxy : Proxy := getContents bareOutside enabledProxy false "UTF8_STRING" (.caller 0)

/-- Its timeout. -/
def timedOutProxy : Proxy :=
  Timer.run { readProxy with timers := readProxy.timers.remove 1 } (.getContents "UTF8_STRING" 0)

/-- The read times out, and its callback is about to be called. -/
theorem reads_complete_once_timeout :
    let s := timedOutProxy
    (∀ call, (s.completed.map Completion.call).count call =
      if call < s.calls ∧
        call ∉ s.reads.due.map Completion.call ++ s.reads.pending.map LocalRequest.call
      then 1 else 0) ∧
    (∀ number, (s.responses.filterMap Response.number).count number =
      if number < s.remoteRequestCounter ∧ number ∉ s.requests.waiting.map RemoteRequest.number
      then 1 else 0) ∧
    (∀ r ∈ s.reads.pending, (r.timer, .getContents r.target r.requestId) ∈ s.timers.sources) ∧
    ∀ a s', Clean bareOutside s a → step bareOutside s a s' →
      (∀ r, Ends s r a → r ∉ s'.reads.pending) ∧
      ∀ target, Replies s target a → ∀ entry ∈ s'.remoteRequests, entry.1 ≠ target := by
  intro s
  have first : initial clipboardProxy := ⟨1, "CLIPBOARD", "origin", rfl⟩
  have enabled : Reachable initial (fun s a s' => Clean bareOutside s a ∧ step bareOutside s a s')
      enabledProxy := .next (.start first) (a := .setEnabled true) ⟨trivial, .inl rfl, rfl⟩
  have read : Reachable initial (fun s a s' => Clean bareOutside s a ∧ step bareOutside s a s')
      readProxy := .next enabled (a := .getContents "UTF8_STRING" 0 false) ⟨trivial, .inl rfl, rfl⟩
  exact reads_complete_once (.next read (a := .timeout 1 (.getContents "UTF8_STRING" 0))
    ⟨trivial, rfl, List.mem_singleton_self _, rfl⟩)

/-- A cleanup empties the tables first: the callback is never called. -/
theorem not_reads_complete_once :
    ¬ ∀ o s, Reachable initial (step o) s →
      ∀ call, (s.completed.map Completion.call).count call =
        if call < s.calls ∧
          call ∉ s.reads.due.map Completion.call ++ s.reads.pending.map LocalRequest.call
        then 1 else 0 := by
  intro once
  have first : initial clipboardProxy := ⟨1, "CLIPBOARD", "origin", rfl⟩
  have enabled : Reachable initial (step bareOutside) enabledProxy :=
    .next (.start first) (a := .setEnabled true) ⟨.inl rfl, rfl⟩
  have read : Reachable initial (step bareOutside) readProxy :=
    .next enabled (a := .getContents "UTF8_STRING" 0 false) ⟨.inl rfl, rfl⟩
  have lost := once bareOutside _ (.next read (a := .cleanup) ⟨.inl rfl, rfl⟩) 0
  exact absurd lost (by decide)

end Catlink.X11.Selection
