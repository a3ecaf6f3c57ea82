import Catlink.Lib.Dict
import Mathlib.Tactic

/-! The scheduler of the proxy server: one thread runs callbacks from a queue, any thread adds
and removes them. -/

namespace Catlink.Server.QueueScheduler

variable {F : Type}

/-- A scheduled call: of `idle_repeat_call` without a timeout, else of `timeout_repeat_call`. -/
structure Callback (F : Type) where
  tid : Nat
  timeout : Option Nat
  fn : F
  deriving DecidableEq, Repr

/-- What calling a function comes to. -/
inductive Outcome
  | returned (truthy : Bool)
  | raised
  deriving DecidableEq, Repr

/-- The scheduler and its threads. A `Timer` is told by the call that it makes. -/
structure Scheduler (F : Type) where
  timerId : Nat
  /-- with the timer to cancel, if there is one -/
  timers : List (Nat × Option (Callback F))
  mainQueue : List (Callback F)
  /-- `idle_add` calls between their two steps -/
  adding : List Nat
  /-- timers that count down -/
  armed : List (Callback F)
  /-- timers that entered `queue_timeout_function` -/
  due : List (Callback F)
  /-- those that found their entry there -/
  passed : List (Callback F)
  /-- what the run loop executes -/
  running : Option (Callback F)

def initial : Scheduler F := ⟨0, [], [], [], [], [], [], none⟩

inductive Action (F : Type)
  /-- `idle_add` as far as the queue -/
  | idlePut (fn : F)
  /-- and its entry in the table -/
  | idleRegister (tid : Nat)
  | timeoutAdd (timeout : Nat) (fn : F)
  | sourceRemove (tid : Nat)
  /-- the timer at this place enters `queue_timeout_function` -/
  | expire (i : Nat)
  /-- where it looks for its entry -/
  | check (i : Nat)
  /-- and puts its call into the queue -/
  | put (i : Nat)
  /-- the run loop takes a call and looks for its entry -/
  | dequeue
  /-- the function that it executes comes to an end -/
  | finish (outcome : Outcome)

namespace Scheduler

variable (s : Scheduler F)

/-- `tid in self.timers` -/
def live (tid : Nat) : Prop := ∃ timer, Dict.get s.timers tid = some timer

instance (tid : Nat) : Decidable (s.live tid) :=
  match found : Dict.get s.timers tid with
  | some timer => isTrue ⟨timer, found⟩
  | none => isFalse fun ⟨timer, there⟩ => by rw [found] at there; cases there

def idlePut (fn : F) : Scheduler F :=
  let tid := s.timerId + 1
  { s with timerId := tid, mainQueue := s.mainQueue ++ [⟨tid, none, fn⟩], adding := s.adding ++ [tid] }

def idleRegister (tid : Nat) : Scheduler F :=
  { s with timers := Dict.set s.timers tid none, adding := s.adding.filter (· ≠ tid) }

/-- The new timer replaces the entry and starts. -/
def doTimeoutAdd (callback : Callback F) : Scheduler F :=
  { s with timers := Dict.set s.timers callback.tid (some callback), armed := s.armed ++ [callback] }

def timeoutAdd (timeout : Nat) (fn : F) : Scheduler F :=
  { s with timerId := s.timerId + 1 }.doTimeoutAdd ⟨s.timerId + 1, some timeout, fn⟩

/-- A timer that counts down is cancelled. -/
def sourceRemove (tid : Nat) : Scheduler F :=
  { s with
    timers := Dict.erase s.timers tid
    armed :=
      match Dict.get s.timers tid with
      | some (some _) => s.armed.filter (·.tid ≠ tid)
      | _ => s.armed }

/-- `idle_repeat_call` returns to the run loop, which puts the call back when the value is true. -/
def finishIdle (callback : Callback F) (outcome : Outcome) : Scheduler F :=
  match outcome with
  | .returned true => { s with mainQueue := s.mainQueue ++ [callback] }
  | _ => s

/-- The end of `timeout_repeat_call`. An exception passes it by. -/
def finishTimeout (callback : Callback F) (outcome : Outcome) : Scheduler F :=
  match outcome with
  | .returned true => if s.live callback.tid then s.doTimeoutAdd callback else s
  | .returned false => { s with timers := Dict.erase s.timers callback.tid }
  | .raised => s

def finishCallback (callback : Callback F) (outcome : Outcome) : Scheduler F :=
  match callback.timeout with
  | none => s.finishIdle callback outcome
  | some _ => s.finishTimeout callback outcome

end Scheduler

/-- A step of some thread, when it can take it. Callers remove what they were given the id of. -/
def step (s : Scheduler F) : Action F → Option (Scheduler F)
  | .idlePut fn => some (s.idlePut fn)
  | .idleRegister tid => if tid ∈ s.adding then some (s.idleRegister tid) else none
  | .timeoutAdd timeout fn => some (s.timeoutAdd timeout fn)
  | .sourceRemove tid =>
      if tid ≤ s.timerId ∧ tid ∉ s.adding then some (s.sourceRemove tid) else none
  | .expire i =>
      s.armed[i]?.map fun callback =>
        { s with armed := s.armed.eraseIdx i, due := s.due ++ [callback] }
  | .check i =>
      s.due[i]?.map fun callback =>
        if s.live callback.tid then
          { s with due := s.due.eraseIdx i, passed := s.passed ++ [callback] }
        else { s with due := s.due.eraseIdx i }
  | .put i =>
      s.passed[i]?.map fun callback =>
        { s with passed := s.passed.eraseIdx i, mainQueue := s.mainQueue ++ [callback] }
  | .dequeue =>
      match s.running, s.mainQueue with
      | none, callback :: mainQueue =>
          if s.live callback.tid then some { s with mainQueue, running := some callback }
          else some { s with mainQueue }
      | _, _ => none
  | .finish outcome =>
      s.running.map fun callback =>
        { s with running := none }.finishCallback callback outcome

/-- The callback that a step schedules. -/
def schedules (s : Scheduler F) : Action F → Option (Callback F)
  | .idlePut fn => some ⟨s.timerId + 1, none, fn⟩
  | .timeoutAdd timeout fn => some ⟨s.timerId + 1, some timeout, fn⟩
  | _ => none

/-- That which it begins to execute. -/
def executes (s : Scheduler F) : Action F → Option (Callback F)
  | .dequeue => s.mainQueue.head?.filter fun callback => s.live callback.tid
  | _ => none

/-! ### What a step can do -/

inductive Step (s : Scheduler F) : Action F → Scheduler F → Prop
  | idlePut (fn : F) : Step s (.idlePut fn) (s.idlePut fn)
  | idleRegister {tid : Nat} (late : tid ∈ s.adding) : Step s (.idleRegister tid) (s.idleRegister tid)
  | timeoutAdd (timeout : Nat) (fn : F) : Step s (.timeoutAdd timeout fn) (s.timeoutAdd timeout fn)
  | sourceRemove {tid : Nat} (issued : tid ≤ s.timerId) (returned : tid ∉ s.adding) :
      Step s (.sourceRemove tid) (s.sourceRemove tid)
  | expire {i : Nat} {c : Callback F} (there : s.armed[i]? = some c) :
      Step s (.expire i) { s with armed := s.armed.eraseIdx i, due := s.due ++ [c] }
  | checkLive {i : Nat} {c : Callback F} (there : s.due[i]? = some c) (live : s.live c.tid) :
      Step s (.check i) { s with due := s.due.eraseIdx i, passed := s.passed ++ [c] }
  | checkGone {i : Nat} {c : Callback F} (there : s.due[i]? = some c) (gone : ¬ s.live c.tid) :
      Step s (.check i) { s with due := s.due.eraseIdx i }
  | put {i : Nat} {c : Callback F} (there : s.passed[i]? = some c) :
      Step s (.put i) { s with passed := s.passed.eraseIdx i, mainQueue := s.mainQueue ++ [c] }
  | dequeueLive {c : Callback F} {rest : List (Callback F)} (idle : s.running = none)
      (first : s.mainQueue = c :: rest) (live : s.live c.tid) :
      Step s .dequeue { s with mainQueue := rest, running := some c }
  | dequeueGone {c : Callback F} {rest : List (Callback F)} (idle : s.running = none)
      (first : s.mainQueue = c :: rest) (gone : ¬ s.live c.tid) :
      Step s .dequeue { s with mainQueue := rest }
  | finish {c : Callback F} (outcome : Outcome) (runs : s.running = some c) :
      Step s (.finish outcome) ({ s with running := none }.finishCallback c outcome)

theorem step_cases {s s' : Scheduler F} {a : Action F} (taken : step s a = some s') : Step s a s' := by
  cases a with
  | idlePut fn =>
      cases taken
      exact .idlePut fn
  | idleRegister tid =>
      rw [step] at taken
      split at taken
      · rename_i late
        cases taken
        exact .idleRegister late
      · cases taken
  | timeoutAdd timeout fn =>
      cases taken
      exact .timeoutAdd timeout fn
  | sourceRemove tid =>
      rw [step] at taken
      split at taken
      · rename_i known
        cases taken
        exact .sourceRemove known.1 known.2
      · cases taken
  | expire i =>
      obtain ⟨c, there, rfl⟩ := Option.map_eq_some_iff.mp taken
      exact .expire there
  | check i =>
      obtain ⟨c, there, rfl⟩ := Option.map_eq_some_iff.mp taken
      split
      · rename_i live
        exact .checkLive there live
      · rename_i gone
        exact .checkGone there gone
  | put i =>
      obtain ⟨c, there, rfl⟩ := Option.map_eq_some_iff.mp taken
      exact .put there
  | dequeue =>
      rw [step] at taken
      split at taken
      · rename_i c rest idle first
        split at taken
        · rename_i live
          cases taken
          exact .dequeueLive idle first live
        · rename_i gone
          cases taken
          exact .dequeueGone idle first gone
      · cases taken
  | finish outcome =>
      obtain ⟨c, runs, rfl⟩ := Option.map_eq_some_iff.mp taken
      exact .finish outcome runs

/-! ### What is in the table -/

section Table

variable {s : Scheduler F} {tid : Nat}

theorem live_iff : s.live tid ↔ (Dict.get s.timers tid).isSome = true := by
  rw [Option.isSome_iff_exists]
  rfl

theorem live_set {timers : List (Nat × Option (Callback F))} {tid' : Nat} {timer : Option (Callback F)}
    (held : s.timers = Dict.set timers tid' timer) :
    s.live tid ↔ tid' = tid ∨ (Dict.get timers tid).isSome = true := by
  rw [live_iff, held, Dict.get_set]
  split
  · rename_i same
    simp [same]
  · rename_i other
    simp [other]

theorem live_idleRegister {tid' : Nat} : (s.idleRegister tid').live tid ↔ tid' = tid ∨ s.live tid := by
  rw [live_set rfl, live_iff]

theorem live_doTimeoutAdd {c : Callback F} : (s.doTimeoutAdd c).live tid ↔ c.tid = tid ∨ s.live tid := by
  rw [live_set rfl, live_iff]

theorem live_timeoutAdd {timeout : Nat} {fn : F} :
    (s.timeoutAdd timeout fn).live tid ↔ s.timerId + 1 = tid ∨ s.live tid := live_doTimeoutAdd

theorem live_erase {timers : List (Nat × Option (Callback F))} {tid' : Nat}
    (held : s.timers = Dict.erase timers tid') :
    s.live tid ↔ tid' ≠ tid ∧ (Dict.get timers tid).isSome = true := by
  rw [live_iff, held, Dict.get_erase]
  split
  · rename_i same
    simp [same]
  · rename_i other
    simp [other]

theorem live_sourceRemove {tid' : Nat} : (s.sourceRemove tid').live tid ↔ tid' ≠ tid ∧ s.live tid := by
  rw [live_erase rfl, live_iff]

end Table

/-- What is left of a callback that comes to an end. -/
structure Finished (s : Scheduler F) (c : Callback F) (outcome : Outcome) (s' : Scheduler F) : Prop where
  timerId : s'.timerId = s.timerId
  adding : s'.adding = s.adding
  due : s'.due = s.due
  passed : s'.passed = s.passed
  running : s'.running = none
  mainQueue : s'.mainQueue =
    s.mainQueue ++ if c.timeout = none ∧ outcome = .returned true then [c] else []
  armed : s'.armed =
    s.armed ++ if c.timeout ≠ none ∧ outcome = .returned true ∧ s.live c.tid then [c] else []
  live : ∀ tid, s'.live tid ↔
    s.live tid ∧ ¬ (c.timeout ≠ none ∧ outcome = .returned false ∧ c.tid = tid)

theorem finishCallback_finished (s : Scheduler F) (c : Callback F) (outcome : Outcome) :
    Finished s c outcome ({ s with running := none }.finishCallback c outcome) := by
  obtain ⟨tid, timeout, fn⟩ := c
  unfold Scheduler.finishCallback
  cases timeout with
  | none =>
      cases outcome with
      | returned truthy =>
          cases truthy with
          | true => constructor <;> first | rfl | simp [Scheduler.finishIdle, live_iff]
          | false => constructor <;> first | rfl | simp [Scheduler.finishIdle, live_iff]
      | raised => constructor <;> first | rfl | simp [Scheduler.finishIdle, live_iff]
  | some timeout =>
      cases outcome with
      | returned truthy =>
          cases truthy with
          | true =>
              by_cases live : s.live tid
              · have again : ({ s with running := none } : Scheduler F).live tid := live
                simp only [Scheduler.finishTimeout, if_pos again]
                constructor <;> first | rfl | simp [Scheduler.doTimeoutAdd, live]
                intro tid'
                rw [live_set rfl, ← live_iff]
                constructor
                · rintro (rfl | other)
                  · exact live
                  · exact other
                · exact .inr
              · have again : ¬ ({ s with running := none } : Scheduler F).live tid := live
                simp only [Scheduler.finishTimeout, if_neg again]
                constructor <;> first | rfl | simp [live, live_iff]
          | false =>
              constructor <;> first | rfl | simp [Scheduler.finishTimeout]
              intro tid'
              rw [live_erase rfl, live_iff]
              exact And.comm
      | raised => constructor <;> first | rfl | simp [Scheduler.finishTimeout, live_iff]

/-- Calls on their way. -/
def inFlight (s : Scheduler F) : Multiset (Callback F) :=
  s.running.toList + (s.mainQueue + (s.armed + (s.due + s.passed)))

/-- Each callback is at one place only, and its id was given to no other. -/
structure Inv (s : Scheduler F) : Prop where
  unique : ((inFlight s).map Callback.tid).Nodup
  issued : ∀ c ∈ inFlight s, c.tid ≤ s.timerId
  late : ∀ tid ∈ s.adding, tid ≤ s.timerId ∧ ¬ s.live tid
  entries : ∀ tid, s.live tid → tid ≤ s.timerId
  runs : ∀ c, s.running = some c → c.tid ∉ s.adding

theorem eraseIdx_add {α : Type} {l : List α} {i : Nat} {a : α} (there : l[i]? = some a) :
    (l : Multiset α) = {a} + (l.eraseIdx i : Multiset α) := by
  obtain ⟨inside, rfl⟩ := List.getElem?_eq_some_iff.mp there
  rw [Multiset.singleton_add, Multiset.cons_coe, Multiset.coe_eq_coe]
  exact (List.getElem_cons_eraseIdx_perm inside).symm

/-- No step makes two calls of one, and a new one has a new id. -/
theorem inFlight_step {s s' : Scheduler F} {a : Action F} (taken : Step s a s') :
    inFlight s' ≤ inFlight s ∧ s'.timerId = s.timerId ∨
      ∃ c : Callback F, schedules s a = some c ∧ c.tid = s.timerId + 1 ∧
        s'.timerId = s.timerId + 1 ∧ inFlight s' = {c} + inFlight s := by
  cases taken with
  | idlePut fn =>
      refine .inr ⟨⟨s.timerId + 1, none, fn⟩, rfl, rfl, rfl, ?_⟩
      simp only [inFlight, Scheduler.idlePut, ← Multiset.coe_add, Multiset.coe_singleton]
      abel
  | idleRegister late => exact .inl ⟨le_rfl, rfl⟩
  | timeoutAdd timeout fn =>
      refine .inr ⟨⟨s.timerId + 1, some timeout, fn⟩, rfl, rfl, rfl, ?_⟩
      simp only [inFlight, Scheduler.timeoutAdd, Scheduler.doTimeoutAdd, ← Multiset.coe_add,
        Multiset.coe_singleton]
      abel
  | @sourceRemove tid issued returned =>
      refine .inl ⟨?_, rfl⟩
      have fewer : ((s.sourceRemove tid).armed : Multiset (Callback F)) ≤ s.armed := by
        rw [Multiset.coe_le]
        unfold Scheduler.sourceRemove
        dsimp only
        split
        · exact List.filter_sublist.subperm
        · exact List.Subperm.refl _
      exact add_le_add le_rfl (add_le_add le_rfl (add_le_add fewer le_rfl))
  | expire there =>
      refine .inl ⟨le_of_eq ?_, rfl⟩
      simp only [inFlight, eraseIdx_add there, ← Multiset.coe_add, Multiset.coe_singleton]
      abel
  | checkLive there live =>
      refine .inl ⟨le_of_eq ?_, rfl⟩
      simp only [inFlight, eraseIdx_add there, ← Multiset.coe_add, Multiset.coe_singleton]
      abel
  | checkGone there gone =>
      refine .inl ⟨?_, rfl⟩
      simp only [inFlight, eraseIdx_add there]
      gcongr
      exact Multiset.le_add_left _ _
  | put there =>
      refine .inl ⟨le_of_eq ?_, rfl⟩
      simp only [inFlight, eraseIdx_add there, ← Multiset.coe_add, Multiset.coe_singleton]
      abel
  | dequeueLive idle first live =>
      refine .inl ⟨le_of_eq ?_, rfl⟩
      simp only [inFlight, idle, first, Option.toList, ← Multiset.cons_coe, ← Multiset.singleton_add]
      simp only [Multiset.coe_nil, add_zero, zero_add, add_assoc]
  | dequeueGone idle first gone =>
      refine .inl ⟨?_, rfl⟩
      simp only [inFlight, idle, first, ← Multiset.cons_coe, ← Multiset.singleton_add]
      gcongr
      exact Multiset.le_add_left _ _
  | finish outcome runs =>
      rename_i c
      obtain ⟨timerId, -, due, passed, running, mainQueue, armed, -⟩ :=
        finishCallback_finished s c outcome
      refine .inl ⟨?_, timerId⟩
      have once : ((if c.timeout = none ∧ outcome = .returned true then [c] else [] :
            List (Callback F)) : Multiset (Callback F)) +
          (if c.timeout ≠ none ∧ outcome = .returned true ∧ s.live c.tid then [c] else [] :
            List (Callback F)) ≤ {c} := by
        by_cases idle : c.timeout = none
        · rw [if_neg (c := c.timeout ≠ none ∧ _) fun all => all.1 idle]
          split
          · exact le_of_eq (add_zero _)
          · exact Multiset.zero_le _
        · rw [if_neg (c := c.timeout = none ∧ _) fun both => idle both.1]
          split
          · exact le_of_eq (zero_add _)
          · exact Multiset.zero_le _
      simp only [inFlight, due, passed, running, mainQueue, armed, runs, Option.toList,
        ← Multiset.coe_add]
      calc
        _ = _ + _ + ((s.mainQueue : Multiset (Callback F)) + (s.armed + (s.due + s.passed))) := by
          rw [Multiset.coe_nil, zero_add]
          abel
        _ ≤ {c} + ((s.mainQueue : Multiset (Callback F)) + (s.armed + (s.due + s.passed))) :=
          add_le_add once le_rfl

/-- An entry was there, or its registration is the step. -/
theorem live_step {s s' : Scheduler F} {a : Action F} (taken : Step s a s') {tid : Nat}
    (live : s'.live tid) :
    s.live tid ∨ (tid ∈ s.adding ∧ a = .idleRegister tid) ∨
      (tid = s.timerId + 1 ∧ s'.timerId = tid ∧ s'.adding = s.adding) := by
  cases taken with
  | idleRegister late =>
      rcases live_idleRegister.mp live with rfl | before
      · exact .inr (.inl ⟨late, rfl⟩)
      · exact .inl before
  | timeoutAdd timeout fn =>
      rcases live_timeoutAdd.mp live with rfl | before
      · exact .inr (.inr ⟨rfl, rfl, rfl⟩)
      · exact .inl before
  | sourceRemove issued returned => exact .inl (live_sourceRemove.mp live).2
  | finish outcome runs =>
      rw [(finishCallback_finished s _ outcome).live] at live
      exact .inl live.1
  | idlePut fn => exact .inl live
  | expire there => exact .inl live
  | checkLive there found => exact .inl live
  | checkGone there gone => exact .inl live
  | put there => exact .inl live
  | dequeueLive idle first found => exact .inl live
  | dequeueGone idle first gone => exact .inl live

/-- A call of `idle_add` was under way, or it begins with the step. -/
theorem adding_step {s s' : Scheduler F} {a : Action F} (taken : Step s a s') {tid : Nat}
    (late : tid ∈ s'.adding) :
    (tid ∈ s.adding ∧ a ≠ .idleRegister tid) ∨
      (tid = s.timerId + 1 ∧ s'.timerId = tid ∧ s'.timers = s.timers ∧ s'.running = s.running) := by
  cases taken with
  | idlePut fn =>
      rcases List.mem_append.mp late with before | new
      · exact .inl ⟨before, nofun⟩
      · cases List.mem_singleton.mp new
        exact .inr ⟨rfl, rfl, rfl, rfl⟩
  | @idleRegister tid' other =>
      obtain ⟨before, differs⟩ := List.mem_filter.mp late
      refine .inl ⟨before, ?_⟩
      rintro ⟨⟩
      simp at differs
  | finish outcome runs =>
      rw [(finishCallback_finished s _ outcome).adding] at late
      exact .inl ⟨late, nofun⟩
  | timeoutAdd timeout fn => exact .inl ⟨late, nofun⟩
  | sourceRemove issued returned => exact .inl ⟨late, nofun⟩
  | expire there => exact .inl ⟨late, nofun⟩
  | checkLive there found => exact .inl ⟨late, nofun⟩
  | checkGone there gone => exact .inl ⟨late, nofun⟩
  | put there => exact .inl ⟨late, nofun⟩
  | dequeueLive idle first found => exact .inl ⟨late, nofun⟩
  | dequeueGone idle first gone => exact .inl ⟨late, nofun⟩

theorem running_step {s s' : Scheduler F} {a : Action F} (taken : Step s a s') {c : Callback F}
    (runs : s'.running = some c) :
    s.running = some c ∨ (s.live c.tid ∧ s'.adding = s.adding) := by
  cases taken with
  | dequeueLive idle first found =>
      cases runs
      exact .inr ⟨found, rfl⟩
  | finish outcome before =>
      rw [(finishCallback_finished s _ outcome).running] at runs
      cases runs
  | idlePut fn => exact .inl runs
  | idleRegister late => exact .inl runs
  | timeoutAdd timeout fn => exact .inl runs
  | sourceRemove issued returned => exact .inl runs
  | expire there => exact .inl runs
  | checkLive there found => exact .inl runs
  | checkGone there gone => exact .inl runs
  | put there => exact .inl runs
  | dequeueGone idle first gone => exact .inl runs

theorem timerId_step {s s' : Scheduler F} {a : Action F} (taken : Step s a s') :
    s.timerId ≤ s'.timerId := by
  rcases inFlight_step taken with ⟨-, same⟩ | ⟨c, -, -, next, -⟩
  · exact le_of_eq same.symm
  · omega

theorem Inv.step {s s' : Scheduler F} {a : Action F} (inv : Inv s) (taken : Step s a s') : Inv s' := by
  have flights := inFlight_step taken
  have unique : ((inFlight s').map Callback.tid).Nodup := by
    rcases flights with ⟨fewer, -⟩ | ⟨c, -, new, -, more⟩
    · exact Multiset.nodup_of_le (Multiset.map_le_map fewer) inv.unique
    · rw [more, Multiset.map_add, Multiset.map_singleton, Multiset.singleton_add, Multiset.nodup_cons]
      refine ⟨?_, inv.unique⟩
      rw [Multiset.mem_map]
      rintro ⟨old, member, same⟩
      have bound := inv.issued old member
      omega
  have issued : ∀ c ∈ inFlight s', c.tid ≤ s'.timerId := by
    intro c member
    rcases flights with ⟨fewer, same⟩ | ⟨new, -, first, next, more⟩
    · rw [same]
      exact inv.issued c (Multiset.mem_of_le fewer member)
    · rw [more, Multiset.mem_add, Multiset.mem_singleton] at member
      rcases member with rfl | old
      · omega
      · have bound := inv.issued c old
        omega
  have grows := timerId_step taken
  refine ⟨unique, issued, ?_, ?_, ?_⟩
  · intro tid late
    rcases adding_step taken late with ⟨before, other⟩ | ⟨new, next, timers, -⟩
    · obtain ⟨bound, unlisted⟩ := inv.late tid before
      refine ⟨by omega, fun live => ?_⟩
      rcases live_step taken live with there | ⟨-, registers⟩ | ⟨new, -, -⟩
      · exact unlisted there
      · exact other registers
      · omega
    · refine ⟨le_of_eq next.symm, ?_⟩
      rintro ⟨timer, found⟩
      rw [timers] at found
      have bound := inv.entries tid ⟨timer, found⟩
      omega
  · intro tid live
    rcases live_step taken live with there | ⟨late, -⟩ | ⟨-, next, -⟩
    · have bound := inv.entries tid there
      omega
    · have bound := (inv.late tid late).1
      omega
    · exact le_of_eq next.symm
  · intro c runs late
    rcases adding_step taken late with ⟨before, -⟩ | ⟨new, -, -, same⟩
    · rcases running_step taken runs with there | ⟨live, -⟩
      · exact inv.runs c there before
      · exact (inv.late c.tid before).2 live
    · rw [same] at runs
      have member : c ∈ inFlight s := by
        rw [inFlight, runs]
        simp
      have bound := inv.issued c member
      omega

theorem initial_inv : Inv (initial : Scheduler F) := by
  constructor
  · exact List.nodup_nil
  · intro c member
    cases member
  · intro tid member
    cases member
  · rintro tid ⟨timer, found⟩
    cases found
  · intro c runs
    cases runs

end Catlink.Server.QueueScheduler
