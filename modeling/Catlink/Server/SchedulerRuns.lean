import Catlink.Lib.Progress
import Catlink.Server.QueueScheduler

/-! Endless runs of the queue scheduler: what is executed, and what is left in the table. -/

namespace Catlink.Server.QueueScheduler

open Progress

variable {F : Type}

/-! ### Where a call stays -/

section Stays

variable {s s' : Scheduler F} {a : Action F} {c : Callback F}

/-- The entry stays, unless it is removed or the call itself comes to an end. -/
theorem live_stays (taken : Step s a s') {tid : Nat} (live : s.live tid)
    (unremoved : a ≠ .sourceRemove tid)
    (others : ∀ c outcome, s.running = some c → a = .finish outcome → c.tid ≠ tid) : s'.live tid := by
  cases taken with
  | idleRegister late => exact live_idleRegister.mpr (.inr live)
  | timeoutAdd timeout fn => exact live_timeoutAdd.mpr (.inr live)
  | sourceRemove issued returned =>
      refine live_sourceRemove.mpr ⟨?_, live⟩
      rintro rfl
      exact unremoved rfl
  | finish outcome runs =>
      rw [(finishCallback_finished s _ outcome).live]
      exact ⟨live, fun all => others _ outcome runs rfl all.2.2⟩
  | idlePut fn => exact live
  | expire there => exact live
  | checkLive there found => exact live
  | checkGone there gone => exact live
  | put there => exact live
  | dequeueLive idle first found => exact live
  | dequeueGone idle first gone => exact live

/-- So does an entry still to be added. -/
theorem pending_stays (taken : Step s a s') {tid : Nat} (pending : s.live tid ∨ tid ∈ s.adding)
    (unremoved : a ≠ .sourceRemove tid)
    (others : ∀ c outcome, s.running = some c → a = .finish outcome → c.tid ≠ tid) :
    s'.live tid ∨ tid ∈ s'.adding := by
  rcases pending with live | late
  · exact .inl (live_stays taken live unremoved others)
  · cases taken with
    | @idleRegister tid' other =>
        by_cases same : tid' = tid
        · exact .inl (live_idleRegister.mpr (.inl same))
        · refine .inr (List.mem_filter.mpr ⟨late, ?_⟩)
          simpa using fun here => same here.symm
    | idlePut fn => exact .inr (List.mem_append_left _ late)
    | finish outcome runs =>
        rw [(finishCallback_finished s _ outcome).adding]
        exact .inr late
    | timeoutAdd timeout fn => exact .inr late
    | sourceRemove issued returned => exact .inr late
    | expire there => exact .inr late
    | checkLive there found => exact .inr late
    | checkGone there gone => exact .inr late
    | put there => exact .inr late
    | dequeueLive idle first found => exact .inr late
    | dequeueGone idle first gone => exact .inr late

theorem mem_eraseIdx {α : Type} {l : List α} {i : Nat} {x y : α} (there : l[i]? = some y)
    (member : x ∈ l) : x = y ∨ x ∈ l.eraseIdx i := by
  have whole := eraseIdx_add there
  rw [← Multiset.mem_coe, whole, Multiset.mem_add, Multiset.mem_singleton, Multiset.mem_coe] at member
  exact member

theorem armed_stays (taken : Step s a s') (armed : c ∈ s.armed) (unremoved : a ≠ .sourceRemove c.tid) :
    c ∈ s'.armed ∨ c ∈ s'.due := by
  cases taken with
  | @sourceRemove tid issued returned =>
      left
      have other : c.tid ≠ tid := by
        rintro rfl
        exact unremoved rfl
      unfold Scheduler.sourceRemove
      dsimp only
      split
      · exact List.mem_filter.mpr ⟨armed, by simpa using other⟩
      · exact armed
  | expire there =>
      rcases mem_eraseIdx there armed with rfl | rest
      · exact .inr (List.mem_append_right _ (List.mem_singleton.mpr rfl))
      · exact .inl rest
  | timeoutAdd timeout fn => exact .inl (List.mem_append_left _ armed)
  | finish outcome runs =>
      rw [(finishCallback_finished s _ outcome).armed]
      exact .inl (List.mem_append_left _ armed)
  | idlePut fn => exact .inl armed
  | idleRegister late => exact .inl armed
  | checkLive there found => exact .inl armed
  | checkGone there gone => exact .inl armed
  | put there => exact .inl armed
  | dequeueLive idle first found => exact .inl armed
  | dequeueGone idle first gone => exact .inl armed

theorem due_stays (taken : Step s a s') (due : c ∈ s.due) (live : s.live c.tid) :
    c ∈ s'.due ∨ c ∈ s'.passed := by
  cases taken with
  | expire there => exact .inl (List.mem_append_left _ due)
  | checkLive there found =>
      rcases mem_eraseIdx there due with rfl | rest
      · exact .inr (List.mem_append_right _ (List.mem_singleton.mpr rfl))
      · exact .inl rest
  | checkGone there gone =>
      rcases mem_eraseIdx there due with rfl | rest
      · exact absurd live gone
      · exact .inl rest
  | finish outcome runs =>
      rw [(finishCallback_finished s _ outcome).due]
      exact .inl due
  | idlePut fn => exact .inl due
  | idleRegister late => exact .inl due
  | timeoutAdd timeout fn => exact .inl due
  | sourceRemove issued returned => exact .inl due
  | put there => exact .inl due
  | dequeueLive idle first found => exact .inl due
  | dequeueGone idle first gone => exact .inl due

theorem passed_stays (taken : Step s a s') (passed : c ∈ s.passed) :
    c ∈ s'.passed ∨ c ∈ s'.mainQueue := by
  cases taken with
  | checkLive there found => exact .inl (List.mem_append_left _ passed)
  | put there =>
      rcases mem_eraseIdx there passed with rfl | rest
      · exact .inr (List.mem_append_right _ (List.mem_singleton.mpr rfl))
      · exact .inl rest
  | finish outcome runs =>
      rw [(finishCallback_finished s _ outcome).passed]
      exact .inl passed
  | idlePut fn => exact .inl passed
  | idleRegister late => exact .inl passed
  | timeoutAdd timeout fn => exact .inl passed
  | sourceRemove issued returned => exact .inl passed
  | expire there => exact .inl passed
  | checkGone there gone => exact .inl passed
  | dequeueLive idle first found => exact .inl passed
  | dequeueGone idle first gone => exact .inl passed

/-- The queue is taken from at its head only. -/
theorem queue_stays (taken : Step s a s') {k : Nat} (queued : s.mainQueue[k]? = some c)
    (waits : a ≠ .dequeue) : s'.mainQueue[k]? = some c := by
  have inside : ∀ more, (s.mainQueue ++ more)[k]? = some c := by
    intro more
    obtain ⟨short, -⟩ := List.getElem?_eq_some_iff.mp queued
    rw [List.getElem?_append_left short]
    exact queued
  cases taken with
  | idlePut fn => exact inside _
  | put there => exact inside _
  | finish outcome runs =>
      rw [(finishCallback_finished s _ outcome).mainQueue]
      exact inside _
  | dequeueLive idle first found => exact absurd rfl waits
  | dequeueGone idle first gone => exact absurd rfl waits
  | idleRegister late => exact queued
  | timeoutAdd timeout fn => exact queued
  | sourceRemove issued returned => exact queued
  | expire there => exact queued
  | checkLive there found => exact queued
  | checkGone there gone => exact queued

theorem queue_advances (taken : Step s .dequeue s') {k : Nat} (queued : s.mainQueue[k + 1]? = some c) :
    s'.mainQueue[k]? = some c := by
  cases taken with
  | dequeueLive idle first found =>
      rw [first] at queued
      exact queued
  | dequeueGone idle first gone =>
      rw [first] at queued
      exact queued

/-- What waits is not what runs. -/
theorem running_other (inv : Inv s) (waits : c ∈ s.mainQueue ∨ c ∈ s.armed ∨ c ∈ s.due ∨ c ∈ s.passed) :
    ∀ c' outcome, s.running = some c' → a = .finish outcome → c'.tid ≠ c.tid := by
  intro c' _ runs _ same
  have unique := inv.unique
  rw [inFlight, runs, Option.toList, Multiset.coe_singleton, Multiset.map_add, Multiset.map_singleton,
    Multiset.singleton_add, Multiset.nodup_cons] at unique
  apply unique.1
  rw [same]
  apply Multiset.mem_map_of_mem
  simpa using waits

end Stays

/-! ### Runs -/

/-- An endless run. Where there is no action, no thread takes a step. -/
structure Run (F : Type) where
  states : Nat → Scheduler F
  actions : Nat → Option (Action F)
  starts : states 0 = initial
  steps : ∀ n, match actions n with
    | none => states (n + 1) = states n
    | some a => step (states n) a = some (states (n + 1))

namespace Run

variable (run : Run F)

def schedules (n : Nat) (c : Callback F) : Prop :=
  ∃ a, run.actions n = some a ∧ QueueScheduler.schedules (run.states n) a = some c

def executes (n : Nat) (c : Callback F) : Prop :=
  ∃ a, run.actions n = some a ∧ QueueScheduler.executes (run.states n) a = some c

def removes (n tid : Nat) : Prop := run.actions n = some (.sourceRemove tid)

def ends (n : Nat) (c : Callback F) (outcome : Outcome) : Prop :=
  run.actions n = some (.finish outcome) ∧ (run.states n).running = some c

/-- Every thread goes on: the run loop, the callbacks and the timers. -/
structure Fair : Prop where
  finishes : ∀ n, (run.states n).running ≠ none → ∃ m ≥ n, ∃ outcome, run.actions m = some (.finish outcome)
  takes : ∀ n, (run.states n).running = none → (run.states n).mainQueue ≠ [] →
    ∃ m ≥ n, run.actions m = some .dequeue
  expires : ∀ n, ∀ c ∈ (run.states n).armed, ∃ m ≥ n, c ∉ (run.states m).armed
  checks : ∀ n, ∀ c ∈ (run.states n).due, ∃ m ≥ n, c ∉ (run.states m).due
  puts : ∀ n, ∀ c ∈ (run.states n).passed, ∃ m ≥ n, c ∉ (run.states m).passed

/-- What is never removed is executed, and again when it returned a true value. -/
def Executed : Prop :=
  ∀ c, (∀ n, ¬ run.removes n c.tid) → ∀ n, run.schedules n c ∨ run.ends n c (.returned true) →
    ∃ m > n, run.executes m c

/-- What is removed is not executed again. -/
def NotAgain : Prop :=
  ∀ n tid, run.removes n tid → ∀ m > n, ∀ c, run.executes m c → c.tid ≠ tid

/-- A callback that is not to be called again has no entry. -/
def NoEntry : Prop :=
  ∀ n c outcome, run.ends n c outcome → (outcome = .returned true → ¬ (run.states n).live c.tid) →
    ∀ m > n, ¬ (run.states m).live c.tid

/-- No call of `idle_add` that is never removed is taken from the queue before its registration. -/
def Punctual : Prop :=
  ∀ n c, run.actions n = some .dequeue → (run.states n).mainQueue.head? = some c →
    c.tid ∈ (run.states n).adding → ∃ m, run.removes m c.tid

/-- Idle callbacks that end, and callbacks that raise, were removed before. -/
def Tidy : Prop :=
  ∀ n c outcome, run.ends n c outcome → outcome ≠ .returned true →
    c.timeout = none ∨ outcome = .raised → ¬ (run.states n).live c.tid

variable {run}

theorem step_or (n : Nat) :
    (run.actions n = none ∧ run.states (n + 1) = run.states n) ∨
      ∃ a, run.actions n = some a ∧ Step (run.states n) a (run.states (n + 1)) := by
  have taken := run.steps n
  cases action : run.actions n with
  | none =>
      rw [action] at taken
      exact .inl ⟨rfl, taken⟩
  | some a =>
      rw [action] at taken
      exact .inr ⟨a, rfl, step_cases taken⟩

theorem step_of {n : Nat} {a : Action F} (action : run.actions n = some a) :
    Step (run.states n) a (run.states (n + 1)) := by
  have taken := run.steps n
  rw [action] at taken
  exact step_cases taken

theorem inv (n : Nat) : Inv (run.states n) := by
  induction n with
  | zero =>
      rw [run.starts]
      exact initial_inv
  | succ n ih =>
      rcases run.step_or n with ⟨-, same⟩ | ⟨a, -, taken⟩
      · rw [same]
        exact ih
      · exact ih.step taken

/-- What every step keeps is kept. -/
theorem later {P : Scheduler F → Prop} {n : Nat}
    (kept : ∀ m ≥ n, ∀ a, run.actions m = some a → Step (run.states m) a (run.states (m + 1)) →
      P (run.states m) → P (run.states (m + 1)))
    (start : P (run.states n)) : ∀ m ≥ n, P (run.states m) := by
  intro m upto
  induction m, upto using Nat.le_induction with
  | base => exact start
  | succ m upto ih =>
      rcases run.step_or m with ⟨-, same⟩ | ⟨a, action, taken⟩
      · rw [same]
        exact ih
      · exact kept m upto a action taken ih

theorem timerId_mono {n m : Nat} (upto : n ≤ m) : (run.states n).timerId ≤ (run.states m).timerId := by
  refine run.later (P := fun s => (run.states n).timerId ≤ s.timerId) ?_ le_rfl m upto
  intro m _ a _ taken bound
  exact bound.trans (timerId_step taken)

end Run

/-! ### What is over -/

/-- An id that was given back. -/
structure Gone (tid : Nat) (s : Scheduler F) : Prop where
  issued : tid ≤ s.timerId
  unlisted : ¬ s.live tid
  returned : tid ∉ s.adding

theorem Gone.step {s s' : Scheduler F} {a : Action F} {tid : Nat} (gone : Gone tid s)
    (taken : Step s a s') : Gone tid s' := by
  obtain ⟨issued, unlisted, returned⟩ := gone
  refine ⟨issued.trans (timerId_step taken), ?_, ?_⟩
  · intro live
    rcases live_step taken live with there | ⟨late, -⟩ | ⟨new, -, -⟩
    · exact unlisted there
    · exact returned late
    · omega
  · intro late
    rcases adding_step taken late with ⟨before, -⟩ | ⟨new, -, -, -⟩
    · exact returned before
    · omega

namespace Run

variable {run : Run F}

theorem gone_later {n tid : Nat} (gone : Gone tid (run.states n)) : ∀ m ≥ n, Gone tid (run.states m) :=
  run.later (fun _ _ _ _ taken gone => gone.step taken) gone

theorem removes_gone {n tid : Nat} (removed : run.removes n tid) : Gone tid (run.states (n + 1)) := by
  have taken := run.step_of removed
  generalize after : run.states (n + 1) = s' at taken
  cases taken with
  | sourceRemove issued returned =>
      refine ⟨issued, ?_, returned⟩
      intro live
      exact (live_sourceRemove.mp live).1 rfl

theorem executes_cases {n : Nat} {c : Callback F} (begun : run.executes n c) :
    run.actions n = some .dequeue ∧ (run.states n).mainQueue.head? = some c ∧ (run.states n).live c.tid := by
  obtain ⟨a, action, executed⟩ := begun
  cases a with
  | dequeue =>
      obtain ⟨first, live⟩ := Option.filter_eq_some_iff.mp executed
      exact ⟨action, first, by simpa using live⟩
  | _ => cases executed

theorem notAgain (run : Run F) : run.NotAgain := by
  intro n tid removed m after c begun same
  obtain ⟨-, -, live⟩ := executes_cases begun
  rw [same] at live
  exact (gone_later (removes_gone removed) m after).unlisted live

theorem ends_gone {n : Nat} {c : Callback F} {outcome : Outcome} (ended : run.ends n c outcome)
    (unlisted : ¬ (run.states (n + 1)).live c.tid) : Gone c.tid (run.states (n + 1)) := by
  obtain ⟨action, runs⟩ := ended
  have taken := run.step_of action
  refine ⟨?_, unlisted, ?_⟩
  · have member : c ∈ inFlight (run.states n) := by
      rw [inFlight, runs]
      simp
    exact ((run.inv n).issued c member).trans (timerId_step taken)
  · intro late
    rcases adding_step taken late with ⟨before, -⟩ | ⟨-, -, -, same⟩
    · exact (run.inv n).runs c runs before
    · exact (run.inv (n + 1)).runs c (by rw [same, runs]) late

theorem ends_finished {n : Nat} {c : Callback F} {outcome : Outcome} (ended : run.ends n c outcome) :
    Finished (run.states n) c outcome (run.states (n + 1)) := by
  obtain ⟨action, runs⟩ := ended
  have taken := run.step_of action
  generalize after : run.states (n + 1) = s' at taken
  cases taken with
  | finish outcome runs' =>
      cases runs.symm.trans runs'
      exact finishCallback_finished _ _ _

/-- What is over leaves no entry exactly when only `timeout_repeat_call` had one to remove. -/
theorem noEntry_iff (run : Run F) : run.NoEntry ↔ run.Tidy := by
  constructor
  · intro cleared n c outcome ended last kind live
    refine cleared n c outcome ended (fun again => absurd again last) (n + 1) (Nat.lt_succ_self n) ?_
    rw [(ends_finished ended).live]
    refine ⟨live, ?_⟩
    rintro ⟨timed, returned, -⟩
    rcases kind with idle | raised
    · exact timed idle
    · rw [raised] at returned
      cases returned
  · intro tidy n c outcome ended last m after
    refine (gone_later (ends_gone ended ?_) m after).unlisted
    rw [(ends_finished ended).live]
    rintro ⟨live, kept⟩
    have other : outcome ≠ .returned true := fun again => last again live
    by_cases kind : c.timeout = none ∨ outcome = .raised
    · exact tidy n c outcome ended other kind live
    · apply kept
      refine ⟨fun idle => kind (.inl idle), ?_, rfl⟩
      rcases outcome with ⟨_ | _⟩ | _
      · rfl
      · exact absurd rfl other
      · exact absurd (.inr rfl) kind

end Run

/-! ### What is still to be executed -/

namespace Run

variable {run : Run F}

section Unremoved

variable {c : Callback F} (unremoved : ∀ n, ¬ run.removes n c.tid)

include unremoved

theorem never_removes {n : Nat} {a : Action F} (action : run.actions n = some a) :
    a ≠ .sourceRemove c.tid := by
  rintro rfl
  exact unremoved n action

theorem running_live (n : Nat) (runs : (run.states n).running = some c) : (run.states n).live c.tid := by
  induction n with
  | zero =>
      rw [run.starts] at runs
      cases runs
  | succ n ih =>
      rcases run.step_or n with ⟨-, same⟩ | ⟨a, action, taken⟩
      · rw [same] at runs ⊢
        exact ih runs
      · have unfinished : ∀ outcome, a ≠ .finish outcome := by
          rintro outcome rfl
          generalize run.states (n + 1) = s' at taken runs
          cases taken with
          | finish outcome before =>
              rw [(finishCallback_finished _ _ outcome).running] at runs
              cases runs
        have live : (run.states n).live c.tid := by
          rcases running_step taken runs with before | ⟨live, -⟩
          · exact ih before
          · exact live
        exact live_stays taken live (run.never_removes unremoved action)
          fun _ outcome _ ends => absurd ends (unfinished outcome)

theorem waiting_live {n : Nat} (waits : c ∈ (run.states n).mainQueue ∨ c ∈ (run.states n).armed ∨
      c ∈ (run.states n).due ∨ c ∈ (run.states n).passed) {a : Action F}
    (action : run.actions n = some a) (taken : Step (run.states n) a (run.states (n + 1)))
    (live : (run.states n).live c.tid) : (run.states (n + 1)).live c.tid :=
  live_stays taken live (run.never_removes unremoved action) (running_other (run.inv n) waits)

/-- The call at this place of the queue. -/
def Queued (run : Run F) (c : Callback F) (k n : Nat) : Prop :=
  (run.states n).mainQueue[k]? = some c ∧ ((run.states n).live c.tid ∨ c.tid ∈ (run.states n).adding)

omit unremoved in
theorem Queued.mem {k n : Nat} (queued : run.Queued c k n) : c ∈ (run.states n).mainQueue :=
  List.mem_of_getElem? queued.1

theorem queued_stays {k n : Nat} (queued : run.Queued c k n) (waits : run.actions n ≠ some .dequeue) :
    run.Queued c k (n + 1) := by
  rcases run.step_or n with ⟨-, same⟩ | ⟨a, action, taken⟩
  · rw [Queued, same]
    exact queued
  · constructor
    · refine queue_stays taken queued.1 ?_
      rintro rfl
      exact waits action
    · exact pending_stays taken queued.2 (run.never_removes unremoved action)
        (running_other (run.inv n) (.inl queued.mem))

theorem queued_dequeue (fair : run.Fair) {k n : Nat} (queued : run.Queued c k n) :
    ∃ m ≥ n, run.actions m = some .dequeue := by
  by_contra never
  push Not at never
  have stays : ∀ m ≥ n, run.Queued c k m := by
    intro m upto
    induction m, upto using Nat.le_induction with
    | base => exact queued
    | succ m upto ih => exact queued_stays unremoved ih (never m upto)
  have idle_takes : ∀ m ≥ n, (run.states m).running ≠ none := by
    intro m upto idle
    obtain ⟨m', later, taken⟩ := fair.takes m idle (List.ne_nil_of_mem (stays m upto).mem)
    exact never m' (upto.trans later) taken
  obtain ⟨m, upto, outcome, action⟩ := fair.finishes n (idle_takes n le_rfl)
  apply idle_takes (m + 1) (by omega)
  have taken := run.step_of action
  generalize run.states (m + 1) = s' at taken
  cases taken with
  | finish outcome runs => exact (finishCallback_finished _ _ outcome).running

theorem queued_executed (fair : run.Fair) (punctual : run.Punctual) {k n : Nat}
    (queued : run.Queued c k n) : ∃ m ≥ n, run.executes m c := by
  induction k generalizing n with
  | zero =>
      obtain ⟨m, upto, ⟨first, pending⟩, action⟩ := until_event
        (fun m _ queued waits => queued_stays unremoved queued waits) queued
        (queued_dequeue unremoved fair queued)
      have head : (run.states m).mainQueue.head? = some c := by
        rw [List.head?_eq_getElem?]
        exact first
      refine ⟨m, upto, .dequeue, action, Option.filter_eq_some_iff.mpr ⟨head, ?_⟩⟩
      rcases pending with live | late
      · simpa using live
      · obtain ⟨n', removed⟩ := punctual m c action head late
        exact absurd removed (unremoved n')
  | succ k ih =>
      obtain ⟨m, upto, queued, action⟩ := until_event
        (fun m _ queued waits => queued_stays unremoved queued waits) queued
        (queued_dequeue unremoved fair queued)
      have taken := run.step_of action
      have advanced : run.Queued c k (m + 1) :=
        ⟨queue_advances taken queued.1,
          pending_stays taken queued.2 (run.never_removes unremoved action)
            (running_other (run.inv m) (.inl queued.mem))⟩
      obtain ⟨m', later, executed⟩ := ih advanced
      exact ⟨m', by omega, executed⟩

theorem queue_executed (fair : run.Fair) (punctual : run.Punctual) {n : Nat}
    (member : c ∈ (run.states n).mainQueue)
    (pending : (run.states n).live c.tid ∨ c.tid ∈ (run.states n).adding) :
    ∃ m ≥ n, run.executes m c := by
  obtain ⟨k, first⟩ := List.mem_iff_getElem?.mp member
  exact queued_executed unremoved fair punctual ⟨first, pending⟩

/-- One stage of a timer is followed by the next one. -/
theorem stage_followed (stage after : Scheduler F → List (Callback F)) {n : Nat}
    (waits : ∀ m, c ∈ stage (run.states m) → c ∈ (run.states m).mainQueue ∨ c ∈ (run.states m).armed ∨
      c ∈ (run.states m).due ∨ c ∈ (run.states m).passed)
    (stays : ∀ m a, run.actions m = some a → Step (run.states m) a (run.states (m + 1)) →
      c ∈ stage (run.states m) → (run.states m).live c.tid →
      c ∈ stage (run.states (m + 1)) ∨ c ∈ after (run.states (m + 1)))
    (stops : ∀ m, c ∈ stage (run.states m) → ∃ m' ≥ m, c ∉ stage (run.states m'))
    (start : c ∈ stage (run.states n)) (live : (run.states n).live c.tid) :
    ∃ m ≥ n, c ∈ after (run.states m) ∧ (run.states m).live c.tid := by
  refine followed (P := fun m => c ∈ stage (run.states m) ∧ (run.states m).live c.tid) ?_
    ⟨start, live⟩ ?_
  · rintro m - ⟨here, live⟩
    rcases run.step_or m with ⟨-, same⟩ | ⟨a, action, taken⟩
    · rw [same]
      exact .inl ⟨here, live⟩
    · have still := waiting_live unremoved (waits m here) action taken live
      rcases stays m a action taken here live with stay | go
      · exact .inl ⟨stay, still⟩
      · exact .inr ⟨go, still⟩
  · obtain ⟨m, upto, left⟩ := stops n start
    exact ⟨m, upto, fun both => left both.1⟩

theorem armed_executed (fair : run.Fair) (punctual : run.Punctual) {n : Nat}
    (armed : c ∈ (run.states n).armed) (live : (run.states n).live c.tid) :
    ∃ m ≥ n, run.executes m c := by
  obtain ⟨m₁, upto₁, due, live₁⟩ := stage_followed unremoved Scheduler.armed Scheduler.due
    (fun _ here => .inr (.inl here))
    (fun _ _ action taken here _ => armed_stays taken here (run.never_removes unremoved action))
    (fun m => fair.expires m c) armed live
  obtain ⟨m₂, upto₂, passed, live₂⟩ := stage_followed unremoved Scheduler.due Scheduler.passed
    (fun _ here => .inr (.inr (.inl here)))
    (fun _ _ _ taken here live => due_stays taken here live) (fun m => fair.checks m c) due live₁
  obtain ⟨m₃, upto₃, queued, live₃⟩ := stage_followed unremoved Scheduler.passed Scheduler.mainQueue
    (fun _ here => .inr (.inr (.inr here)))
    (fun _ _ _ taken here _ => passed_stays taken here) (fun m => fair.puts m c) passed live₂
  obtain ⟨m, upto, executed⟩ := queue_executed unremoved fair punctual queued (.inl live₃)
  exact ⟨m, by omega, executed⟩

end Unremoved

theorem schedules_executed {c : Callback F} (unremoved : ∀ n, ¬ run.removes n c.tid) (fair : run.Fair)
    (punctual : run.Punctual) {n : Nat} (scheduled : run.schedules n c) : ∃ m > n, run.executes m c := by
  obtain ⟨a, action, new⟩ := scheduled
  have taken := run.step_of action
  generalize after : run.states (n + 1) = s' at taken
  cases taken with
  | idlePut fn =>
      cases new
      apply queue_executed (n := n + 1) unremoved fair punctual
      · rw [after]
        exact List.mem_append_right _ (List.mem_singleton.mpr rfl)
      · rw [after]
        exact .inr (List.mem_append_right _ (List.mem_singleton.mpr rfl))
  | timeoutAdd timeout fn =>
      cases new
      apply armed_executed (n := n + 1) unremoved fair punctual
      · rw [after]
        exact List.mem_append_right _ (List.mem_singleton.mpr rfl)
      · rw [after]
        exact live_timeoutAdd.mpr (.inl rfl)
  | _ => cases new

theorem ends_executed {c : Callback F} (unremoved : ∀ n, ¬ run.removes n c.tid) (fair : run.Fair)
    (punctual : run.Punctual) {n : Nat} (ended : run.ends n c (.returned true)) :
    ∃ m > n, run.executes m c := by
  have live := running_live unremoved n ended.2
  have finished := ends_finished ended
  have still : (run.states (n + 1)).live c.tid := by
    rw [finished.live]
    exact ⟨live, fun all => by cases all.2.1⟩
  by_cases idle : c.timeout = none
  · apply queue_executed (n := n + 1) unremoved fair punctual
    · rw [finished.mainQueue, if_pos ⟨idle, rfl⟩]
      exact List.mem_append_right _ (List.mem_singleton.mpr rfl)
    · exact .inl still
  · apply armed_executed (n := n + 1) unremoved fair punctual
    · rw [finished.armed, if_pos ⟨idle, rfl, live⟩]
      exact List.mem_append_right _ (List.mem_singleton.mpr rfl)
    · exact still

/-! ### What is taken too early -/

/-- What is on its way was scheduled. -/
theorem inFlight_scheduled (n : Nat) : ∀ c ∈ inFlight (run.states n), ∃ m < n, run.schedules m c := by
  induction n with
  | zero =>
      rw [run.starts]
      intro c member
      cases member
  | succ n ih =>
      intro c member
      have before : c ∈ inFlight (run.states n) → ∃ m < n + 1, run.schedules m c := by
        intro there
        obtain ⟨m, earlier, scheduled⟩ := ih c there
        exact ⟨m, by omega, scheduled⟩
      rcases run.step_or n with ⟨-, same⟩ | ⟨a, action, taken⟩
      · rw [same] at member
        exact before member
      · rcases inFlight_step taken with ⟨fewer, -⟩ | ⟨new, scheduled, -, -, more⟩
        · exact before (Multiset.mem_of_le fewer member)
        · rw [more, Multiset.mem_add, Multiset.mem_singleton] at member
          rcases member with rfl | there
          · exact ⟨n, Nat.lt_succ_self n, a, action, scheduled⟩
          · exact before there

theorem schedules_issued {n : Nat} {c : Callback F} (scheduled : run.schedules n c) :
    c.tid ≤ (run.states (n + 1)).timerId := by
  obtain ⟨a, action, new⟩ := scheduled
  have taken := run.step_of action
  generalize run.states (n + 1) = s' at taken
  cases taken with
  | idlePut fn =>
      cases new
      exact le_rfl
  | timeoutAdd timeout fn =>
      cases new
      exact le_rfl
  | _ => cases new

/-- A call of `idle_add` that has not returned had not returned before. -/
theorem adding_before {n m tid : Nat} (issued : tid ≤ (run.states n).timerId) (upto : n ≤ m)
    (late : tid ∈ (run.states m).adding) : tid ∈ (run.states n).adding := by
  induction m, upto using Nat.le_induction with
  | base => exact late
  | succ m upto ih =>
      apply ih
      rcases run.step_or m with ⟨-, same⟩ | ⟨a, -, taken⟩
      · rwa [same] at late
      · rcases adding_step taken late with ⟨before, -⟩ | ⟨new, -, -, -⟩
        · exact before
        · have bound := run.timerId_mono upto
          omega

/-- A call that is nowhere does not come back. -/
theorem nowhere_later {n tid : Nat} (issued : tid ≤ (run.states n).timerId)
    (nowhere : ∀ c ∈ inFlight (run.states n), c.tid ≠ tid) :
    ∀ m ≥ n, ∀ c ∈ inFlight (run.states m), c.tid ≠ tid := by
  refine run.later (P := fun s => ∀ c ∈ inFlight s, c.tid ≠ tid) ?_ nowhere
  intro m upto a _ taken nowhere c member
  rcases inFlight_step taken with ⟨fewer, -⟩ | ⟨new, -, first, -, more⟩
  · exact nowhere c (Multiset.mem_of_le fewer member)
  · rw [more, Multiset.mem_add, Multiset.mem_singleton] at member
    rcases member with rfl | there
    · have bound := run.timerId_mono upto
      omega
    · exact nowhere c there

theorem punctual_of_executed (executed : run.Executed) : run.Punctual := by
  intro n c action head late
  by_contra unremoved
  push Not at unremoved
  obtain ⟨rest, first⟩ : ∃ rest, (run.states n).mainQueue = c :: rest := by
    rw [List.head?_eq_some_iff] at head
    exact head
  have member : c ∈ inFlight (run.states n) := by
    rw [inFlight, first]
    simp
  obtain ⟨m, before, scheduled⟩ := run.inFlight_scheduled n c member
  obtain ⟨m', after, begun⟩ := executed c unremoved m (.inl scheduled)
  obtain ⟨-, head', live⟩ := executes_cases begun
  rcases Nat.lt_or_ge n m' with past | upto
  · have gone : ∀ c' ∈ inFlight (run.states (n + 1)), c'.tid ≠ c.tid := by
      intro c' there same
      have unique := (run.inv n).unique
      have taken := run.step_of action
      generalize run.states (n + 1) = s' at taken there
      cases taken with
      | dequeueLive idle first' found => 
          cases first.symm.trans first'
          exact ((run.inv n).late c.tid late).2 found
      | dequeueGone idle first' gone =>
          cases first.symm.trans first'
          simp only [inFlight, idle, first, Option.toList, ← Multiset.cons_coe, Multiset.cons_add,
            Multiset.map_cons, Multiset.coe_nil, zero_add, Multiset.nodup_cons] at unique
          apply unique.1
          rw [← same]
          apply Multiset.mem_map_of_mem
          simpa only [inFlight, idle, Option.toList, Multiset.coe_nil, zero_add] using there
    have issued : c.tid ≤ (run.states (n + 1)).timerId :=
      ((run.inv n).issued c member).trans (run.timerId_mono (Nat.le_succ n))
    refine run.nowhere_later issued gone m' past c ?_ rfl
    have queued := List.mem_of_mem_head? head'
    simp [inFlight, queued]
  · have earlier := run.adding_before ((schedules_issued scheduled).trans (run.timerId_mono after)) upto late
    exact ((run.inv m').late c.tid earlier).2 live

/-- A run executes all that is scheduled, and leaves nothing in the table, exactly when no call is
taken before its registration and idle callbacks and those that raise are removed. -/
theorem scheduler_correct_iff (run : Run F) (fair : run.Fair) :
    run.Executed ∧ run.NotAgain ∧ run.NoEntry ↔ run.Punctual ∧ run.Tidy := by
  constructor
  · rintro ⟨executed, -, cleared⟩
    exact ⟨punctual_of_executed executed, run.noEntry_iff.mp cleared⟩
  · rintro ⟨punctual, tidy⟩
    refine ⟨?_, run.notAgain, run.noEntry_iff.mpr tidy⟩
    rintro c unremoved n (scheduled | ended)
    · exact schedules_executed unremoved fair punctual scheduled
    · exact ends_executed unremoved fair punctual ended

end Run

/-! ### Runs that come to rest -/

def following (actions : List (Action F)) (n : Nat) : Scheduler F :=
  (actions.take n).foldl (fun s a => (step s a).getD s) initial

theorem following_past {actions : List (Action F)} {n : Nat} (past : actions.length ≤ n) :
    following actions n = following actions actions.length := by
  rw [following, List.take_of_length_le past, following, List.take_length]

theorem following_succ {actions : List (Action F)} {n : Nat} (inside : n < actions.length) :
    following actions (n + 1) = (step (following actions n) actions[n]).getD (following actions n) := by
  rw [following, List.take_succ_eq_append_getElem inside, List.foldl_append]
  rfl

/-- These steps, and then none. -/
def Run.ofActions (actions : List (Action F))
    (possible : ∀ i : Fin actions.length, (step (following actions i) actions[i]).isSome = true) : Run F where
  states := following actions
  actions n := actions[n]?
  starts := rfl
  steps := by
    intro n
    split
    · rename_i past
      rw [List.getElem?_eq_none_iff] at past
      rw [following_past past, following_past (Nat.le_succ_of_le past)]
    · rename_i a action
      obtain ⟨inside, rfl⟩ := List.getElem?_eq_some_iff.mp action
      obtain ⟨s, taken⟩ := Option.isSome_iff_exists.mp (possible ⟨n, inside⟩)
      have taken' : step (following actions n) actions[n] = some s := taken
      rw [following_succ inside, taken']
      rfl

/-- A run that comes to rest with nothing on its way was fair, if it finished what it began. -/
theorem Run.ofActions_fair {actions : List (Action F)}
    {possible : ∀ i : Fin actions.length, (step (following actions i) actions[i]).isSome = true}
    (rests : inFlight (following actions actions.length) = 0)
    (finishes : ∀ i : Fin actions.length, (following actions i).running ≠ none →
      ∃ j : Fin actions.length, i ≤ j ∧ ∃ outcome, actions[j] = .finish outcome)
    (takes : ∀ i : Fin actions.length, (following actions i).mainQueue ≠ [] →
      ∃ j : Fin actions.length, i ≤ j ∧ actions[j] = .dequeue) :
    (Run.ofActions actions possible).Fair := by
  have rest : ∀ n ≥ actions.length, inFlight (following actions n) = 0 := by
    intro n past
    rw [following_past past]
    exact rests
  have nowhere : ∀ n (c : Callback F), ∃ m ≥ n, c ∉ (following actions m).armed ∧
      c ∉ (following actions m).due ∧ c ∉ (following actions m).passed := by
    intro n c
    refine ⟨max n actions.length, le_max_left _ _, ?_⟩
    have none := rest _ (le_max_right n actions.length)
    have absent : c ∉ inFlight (following actions (max n actions.length)) := by
      rw [none]
      exact Multiset.notMem_zero c
    simp only [inFlight, Multiset.mem_add, Multiset.mem_coe, not_or] at absent
    exact absent.2.2
  constructor
  · intro n runs
    rcases Nat.lt_or_ge n actions.length with inside | past
    · obtain ⟨j, later, outcome, action⟩ := finishes ⟨n, inside⟩ runs
      exact ⟨j, later, outcome, List.getElem?_eq_some_iff.mpr ⟨j.isLt, action⟩⟩
    · have none := rest n past
      cases running : (following actions n).running with
      | none => exact absurd running runs
      | some c => simp [inFlight, running] at none
  · intro n _ queued
    rcases Nat.lt_or_ge n actions.length with inside | past
    · obtain ⟨j, later, action⟩ := takes ⟨n, inside⟩ queued
      exact ⟨j, later, List.getElem?_eq_some_iff.mpr ⟨j.isLt, action⟩⟩
    · obtain ⟨c, member⟩ : ∃ c, c ∈ (following actions n).mainQueue := List.exists_mem_of_ne_nil _ queued
      have there : c ∈ inFlight (following actions n) := by simp [inFlight, member]
      rw [rest n past] at there
      exact absurd there (Multiset.notMem_zero c)
  · intro n c _
    obtain ⟨m, upto, unarmed, -, -⟩ := nowhere n c
    exact ⟨m, upto, unarmed⟩
  · intro n c _
    obtain ⟨m, upto, -, undue, -⟩ := nowhere n c
    exact ⟨m, upto, undue⟩
  · intro n c _
    obtain ⟨m, upto, -, -, unpassed⟩ := nowhere n c
    exact ⟨m, upto, unpassed⟩

/-- Its first call is taken from the queue before it is registered. -/
def earlyRun : Run Unit := .ofActions [.idlePut (), .dequeue, .idleRegister 1] (by decide)

theorem earlyRun_fair : earlyRun.Fair := by
  apply Run.ofActions_fair
  · rfl
  · intro i runs
    fin_cases i <;> exact absurd rfl runs
  · intro i queued
    fin_cases i
    · exact absurd rfl queued
    · exact ⟨1, le_rfl, rfl⟩
    · exact absurd rfl queued

theorem not_scheduler_correct :
    ¬ ∀ run : Run Unit, run.Fair → run.Executed ∧ run.NotAgain ∧ run.NoEntry := by
  intro claim
  obtain ⟨executed, -, -⟩ := claim earlyRun earlyRun_fair
  obtain ⟨m, removed⟩ := Run.punctual_of_executed executed 1 ⟨1, none, ()⟩ rfl rfl (by decide)
  rcases m with _ | _ | _ | m
  all_goals cases removed

/-- A timer that is called twice. -/
def timerRun : Run Unit :=
  .ofActions [.timeoutAdd 10 (), .expire 0, .check 0, .put 0, .dequeue, .finish (.returned true),
    .expire 0, .check 0, .put 0, .dequeue, .finish (.returned false)] (by decide)

theorem timerRun_fair : timerRun.Fair := by
  apply Run.ofActions_fair
  · rfl
  · intro i _
    exact ⟨10, Fin.le_last i, .returned false, rfl⟩
  · intro i queued
    by_cases before : i ≤ 9
    · exact ⟨9, before, rfl⟩
    · have last : i = 10 := by
        fin_cases i <;> first | rfl | exact absurd (by decide) before
      rw [last] at queued
      exact absurd rfl queued

theorem scheduler_correct_timer : timerRun.Executed ∧ timerRun.NotAgain ∧ timerRun.NoEntry := by
  refine (Run.scheduler_correct_iff timerRun timerRun_fair).mpr ⟨?_, ?_⟩
  · intro n c action _ late
    rcases n with _ | _ | _ | _ | _ | _ | _ | _ | _ | _ | _ | n
    case succ.succ.succ.succ.succ.succ.succ.succ.succ.succ.succ => cases action
    all_goals cases late
  · rintro n c outcome ⟨action, runs⟩ last kind
    rcases n with _ | _ | _ | _ | _ | _ | _ | _ | _ | _ | _ | n
    case succ.succ.succ.succ.succ.zero =>
      cases action
      exact absurd rfl last
    case succ.succ.succ.succ.succ.succ.succ.succ.succ.succ.zero =>
      cases action
      cases runs
      rcases kind with idle | raised
      · cases idle
      · cases raised
    all_goals cases action

end Catlink.Server.QueueScheduler
