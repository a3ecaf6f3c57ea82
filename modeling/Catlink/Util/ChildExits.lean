import Catlink.Util.ChildFates

/-! Every exit is reported once, and the quit callback is called when nobody is left. -/

namespace Catlink.Children

open Relation Runs Trace

variable {polls : Polls} {s : ChildReaper} {sequence : Nat}

/-- `process.poll()` does not take an exit back. -/
def StaysDead (polls : Polls) (sequence : Nat) : Prop :=
  ∀ t t', t ≤ t' → polls t sequence ≠ none → polls t' sequence ≠ none

/-- The actions that poll every process. -/
def Action.looks : Action → Bool
  | .addProcess .. | .setQuitCallback => false
  | _ => true

/-! ### Exits are seen -/

theorem Turn.notAlive {s' : ChildReaper} (turn : Turn polls s s') (gone : NotAlive s sequence) :
    NotAlive s' sequence := by
  cases turn with
  | tick => exact gone
  | @running other procinfo found runs =>
      intro entry here
      have get : Dict.get (s.setProcInfo other { procinfo with returncode := none, dead := false }).procInfo
          sequence = if other = sequence then some { procinfo with returncode := none, dead := false }
            else Dict.get s.procInfo sequence := Dict.get_set _ _ _ _
      rw [get] at here
      split at here
      · next same =>
          subst same
          have dead := gone procinfo found
          rw [runs] at dead
          cases dead
      · exact gone entry here
  | @bury other procinfo code found runs exited =>
      by_cases same : other = sequence
      · subst same
        exact bury_notAlive s other procinfo code
      · intro entry here
        rw [bury_get same] at here
        exact gone entry here
  | quit => exact gone

theorem Turn.clock {s' : ChildReaper} (turn : Turn polls s s') : s.clock ≤ s'.clock := by
  cases turn with
  | tick => exact Nat.le_succ _
  | _ => exact le_refl _

/-- A turn tells of no process that is dropped. -/
theorem Turn.dropped {s' : ChildReaper} (turn : Turn polls s s') :
    s'.log.count (.dropped sequence) = s.log.count (.dropped sequence) := by
  cases turn with
  | tick other =>
      have none : [Event.polled other s.clock].count (.dropped sequence) = 0 := rfl
      exact (List.count_append ..).trans (by rw [none, Nat.add_zero])
  | running => rfl
  | @bury other procinfo code found runs exited =>
      have none : (obituary other procinfo.callback).count (.dropped sequence) = 0 := by
        cases procinfo.callback <;> simp [obituary]
      rw [bury_log, List.count_append, none, Nat.add_zero]
  | quit =>
      have none : [Event.quit].count (.dropped sequence) = 0 := rfl
      rw [List.count_append, none, Nat.add_zero]

/-- The log only grows. -/
theorem Turn.logged {s' : ChildReaper} (turn : Turn polls s s') {e : Event} (member : e ∈ s.log) :
    e ∈ s'.log := by
  cases turn with
  | tick other => exact List.mem_append_left _ member
  | running => exact member
  | bury =>
      rw [bury_log]
      exact List.mem_append_left _ member
  | quit => exact List.mem_append_left _ member

/-- What the turns of a check leave alone. -/
structure Later (s s' : ChildReaper) : Prop where
  notAlive : ∀ sequence, NotAlive s sequence → NotAlive s' sequence
  clock : s.clock ≤ s'.clock
  dropped : ∀ sequence, s'.log.count (.dropped sequence) = s.log.count (.dropped sequence)
  logged : ∀ e ∈ s.log, e ∈ s'.log

theorem Turns.later {s' : ChildReaper} (turns : Turns polls s s') : Later s s' := by
  induction turns with
  | refl => exact ⟨fun _ gone => gone, le_refl _, fun _ => rfl, fun _ member => member⟩
  | tail _ turn ih =>
      refine ⟨?_, le_trans ih.clock turn.clock, ?_, fun e member => turn.logged (ih.logged e member)⟩
      · exact fun sequence gone => turn.notAlive (ih.notAlive sequence gone)
      · exact fun sequence => turn.dropped.trans (ih.dropped sequence)

section

variable {recheck : ChildReaper → ChildReaper}

theorem addDeadWith_gone (rechecks : ∀ s, Turns polls s (recheck s)) (sound : Sound polls s)
    (exited : polls s.clock sequence ≠ none) : NotAlive (addDeadWith polls recheck s sequence) sequence := by
  unfold addDeadWith
  split
  · next absent =>
      intro entry found
      rw [absent] at found
      cases found
  · next procinfo found =>
      split
      · next going =>
          intro entry here
          rw [found] at here
          cases here
          by_contra runs
          rw [Bool.not_eq_true] at runs
          obtain ⟨-, -, -, -, process, -⟩ := sound.waits found runs
          rw [runs, process] at going
          exact absurd going (by decide)
      · split
        · next absent => exact absurd absent exited
        · next code _ =>
            exact (Turns.later (rechecks _)).notAlive sequence (bury_notAlive (s.tick sequence) sequence procinfo code)

theorem pollProcess_gone (rechecks : ∀ s, Turns polls s (recheck s)) (sound : Sound polls s)
    (stays : StaysDead polls sequence) (exited : polls s.clock sequence ≠ none) :
    NotAlive (pollProcess polls recheck s sequence) sequence := by
  unfold pollProcess
  split
  · next absent =>
      intro entry found
      rw [absent] at found
      cases found
  · next procinfo found =>
      split
      · rw [if_pos (Option.isSome_iff_ne_none.mpr exited)]
        exact addDeadWith_gone rechecks (sound.turn (.tick s sequence)) (stays _ _ (Nat.le_succ _) exited)
      · next going =>
          intro entry here
          rw [found] at here
          cases here
          by_contra runs
          rw [Bool.not_eq_true] at runs
          obtain ⟨-, -, -, -, process, -⟩ := sound.waits found runs
          rw [runs, process] at going
          exact going rfl

/-- A process that has exited is found by its turn in the loop. -/
theorem pollWith_gone (rechecks : ∀ s, Turns polls s (recheck s)) (sound : Sound polls s)
    (stays : StaysDead polls sequence) (exited : polls s.clock sequence ≠ none) :
    NotAlive (pollWith polls recheck s) sequence := by
  have folds (sequences : List Nat) : ∀ t : ChildReaper, Sound polls t → polls t.clock sequence ≠ none →
      (NotAlive t sequence ∨ sequence ∈ sequences) →
        NotAlive (sequences.foldl (pollProcess polls recheck) t) sequence := by
    induction sequences with
    | nil => exact fun t _ _ there => there.resolve_right List.not_mem_nil
    | cons other sequences ih =>
        intro t sound exited there
        have turns := pollProcess_turns rechecks t other
        have later := Turns.later turns
        refine ih _ (sound.turns turns) (stays _ _ later.clock exited) ?_
        rw [List.mem_cons] at there
        rcases there with gone | rfl | member
        · exact .inl (later.notAlive sequence gone)
        · exact .inl (pollProcess_gone rechecks sound stays exited)
        · exact .inr member
  refine folds _ s sound exited ?_
  by_cases listed : sequence ∈ s.procInfo.map Prod.fst
  · exact .inr listed
  · refine .inl ?_
    intro entry found
    exact absurd (Dict.mem_keys_of_get found) listed

end

theorem poll_gone (sound : Sound polls s) (stays : StaysDead polls sequence)
    (exited : polls s.clock sequence ≠ none) : NotAlive (poll polls s) sequence :=
  pollWith_gone check_turns sound stays exited

theorem reap_gone (sound : Sound polls s) (stays : StaysDead polls sequence)
    (exited : polls s.clock sequence ≠ none) (waited : List Int) :
    NotAlive (reap polls s waited) sequence :=
  (Turns.later (foldl_turns addDeadPid_turns waited _)).notAlive sequence (poll_gone sound stays exited)

theorem check_gone (sound : Sound polls s) (stays : StaysDead polls sequence)
    (exited : polls s.clock sequence ≠ none) : NotAlive (check polls s) sequence := by
  have turns : Turns polls (poll polls s) (poll polls s).conclude := conclude_turns _
  rw [check_eq]
  exact (Turns.later turns).notAlive sequence (poll_gone sound stays exited)

/-- After a poll, and before anything is dropped. -/
theorem looked {a : Action} {s' : ChildReaper} (sound : Sound polls s) (step : Step polls s a s')
    (looks : a.looks = true) (stays : StaysDead polls sequence) (exited : polls s.clock sequence ≠ none) :
    ∃ t, Turns polls s t ∧ NotAlive t sequence ∧ (NotAlive t sequence →
      ∀ e, e = .exited sequence ∨ e = .dropped sequence → s'.log.count e = t.log.count e) := by
  cases step with
  | addProcess => cases looks
  | setQuitCallback => cases looks
  | check => exact ⟨_, check_turns s, check_gone sound stays exited, fun _ _ _ => rfl⟩
  | pollTimer => exact ⟨_, check_turns s, check_gone sound stays exited, fun _ _ _ => rfl⟩
  | poll => exact ⟨_, poll_turns s, poll_gone sound stays exited, fun _ _ _ => rfl⟩
  | sigchld waited => exact ⟨_, reap_turns s waited, reap_gone sound stays exited waited, fun _ _ _ => rfl⟩
  | cleanup waited =>
      have turns : Turns polls s (poll polls (reap polls s waited)) :=
        (reap_turns s waited).trans (poll_turns _)
      have gone : NotAlive (poll polls (reap polls s waited)) sequence :=
        (Turns.later (poll_turns _)).notAlive sequence (reap_gone sound stays exited waited)
      refine ⟨_, turns, gone, ?_⟩
      intro gone e which
      have quiet := (dropped_marks (sound.turns turns).distinct sequence).1 gone
      unfold cleanup dropAll
      rw [List.count_append]
      rcases which with rfl | rfl
      · rw [quiet.exited, Nat.add_zero]
      · rw [quiet.dropped, Nat.add_zero]

/-- In every run, the callback of a process is scheduled at most once, and only where `poll()` has just
returned its code. Any poll, check, SIGCHLD or cleanup sees all the processes that have exited: each one that has a
callback, ran when it was added and was not dropped has had its callback scheduled. A process that was
dead when it was added never has. -/
theorem exit_reported_once (run : Reachable Starts (Step polls) s) :
    (∀ sequence, s.log.count (.exited sequence) ≤ 1) ∧
      (∀ sequence before after, s.log = before ++ .exited sequence :: after →
        ∃ t, before.getLast? = some (.polled sequence t) ∧ polls t sequence ≠ none) ∧
      ∀ a s' sequence first, Step polls s a s' → a.looks = true → .added sequence first ∈ s.log →
        StaysDead polls sequence → polls s.clock sequence ≠ none →
        s'.log.count (.exited sequence) =
          if first.callback = true ∧ first.dead = false ∧ .dropped sequence ∉ s.log then 1 else 0 := by
  have sound := sound_of_reachable run
  refine ⟨?_, ?_, ?_⟩
  · intro sequence
    by_cases known : ∃ first, .added sequence first ∈ s.log
    · obtain ⟨first, added⟩ := known
      obtain ⟨a, b, c, marks, small⟩ := (sound.fates sequence first added).marks
      rw [marks.exited]
      exact small
    · rw [not_exists] at known
      rw [(sound.stranger sequence known).1.exited]
      exact Nat.zero_le 1
  · exact fun sequence before after here => sound.tells.allows before here
  · intro a s' sequence first step looks added stays exited
    obtain ⟨t, turns, gone, same⟩ := looked sound step looks stays exited
    have later := Turns.later turns
    rw [same gone _ (.inl rfl)]
    -- what is known of the process before anything is dropped
    cases (sound.turns turns).fates sequence first (later.logged _ added) with
    | unseen dead marks _ =>
        rw [marks.exited, if_neg]
        rintro ⟨-, runs, -⟩
        rw [dead] at runs
        cases runs
    | alive _ found listed _ _ _ =>
        have dead := gone _ found
        rw [listed] at dead
        cases dead
    | terminated runs marks _ =>
        have kept : .dropped sequence ∉ s.log := by
          rw [← List.count_eq_zero, ← later.dropped]
          exact marks.dropped
        rw [marks.exited]
        by_cases callback : first.callback = true
        · rw [if_pos callback, if_pos ⟨callback, runs, kept⟩]
        · rw [if_neg callback, if_neg fun all => callback all.1]
    | dropped runs marks _ =>
        rw [marks.exited, if_neg]
        rintro ⟨-, -, kept⟩
        rw [← List.count_eq_zero, ← later.dropped, marks.dropped] at kept
        cases kept

/-- A child that runs, and exits before SIGCHLD; another one that is dead when it is added. -/
theorem exit_reported_once_child :
    let polls : Polls := fun t sequence => if sequence = 2 ∨ 2 ≤ t then some 0 else none
    ∃ s s' : ChildReaper, Reachable Starts (Step polls) s ∧ Step polls s (.sigchld [100]) s' ∧
      s'.log.count (.exited 1) = 1 ∧ s'.log.count (.exited 2) = 0 := by
  intro polls
  let start : ChildReaper := ⟨false, [], 0, false, 0, []⟩
  let one : ChildReaper := ⟨false, [(1, ⟨100, false, true, false, none, true, true⟩)], 1, false, 1,
    [.polled 1 0, .added 1 ⟨100, false, true, false, none, true, true⟩]⟩
  let two : ChildReaper := ⟨false, [(1, ⟨100, false, true, false, none, true, true⟩),
    (2, ⟨101, false, true, true, some 0, true, true⟩)], 2, false, 2,
    [.polled 1 0, .added 1 ⟨100, false, true, false, none, true, true⟩,
      .polled 2 1, .added 2 ⟨101, false, true, true, some 0, true, true⟩]⟩
  have first : Step polls start (.addProcess "one" 100 false true true) one := .addProcess (by decide)
  have second : Step polls one (.addProcess "two" 101 false true true) two := .addProcess (by decide)
  have run : Reachable Starts (Step polls) two :=
    .next (a := Action.addProcess "two" 101 false true true)
      (.next (a := Action.addProcess "one" 100 false true true) (.start ⟨rfl, rfl⟩) first) second
  have step : Step polls two (.sigchld [100]) (reap polls two [100]) := .sigchld two [100]
  have stays (sequence : Nat) : StaysDead polls sequence := by
    intro t t' later exited
    dsimp only [polls] at exited ⊢
    split at exited
    · next early =>
        rw [if_pos (early.imp_right fun late => le_trans late later)]
        exact Option.some_ne_none 0
    · exact absurd rfl exited
  obtain ⟨-, -, reported⟩ := exit_reported_once run
  refine ⟨two, _, run, step, ?_, ?_⟩
  · exact reported _ _ 1 _ step rfl (List.mem_cons_of_mem _ List.mem_cons_self) (stays 1) (by decide)
  · have told : .added 2 ⟨101, false, true, true, some 0, true, true⟩ ∈ two.log := by decide
    exact reported _ _ 2 _ step rfl told (stays 2) (by decide)

/-! ### Quitting -/

/-- The quit callback is set, and there is nobody left to wait for. -/
def ChildReaper.due (s : ChildReaper) : Bool := s.allDead && s.quit

theorem conclude_due (s : ChildReaper) : s.conclude.due = false := by
  unfold ChildReaper.conclude
  split
  · unfold ChildReaper.due
    exact Bool.and_false _
  · next undue => exact Bool.eq_false_iff.mpr undue

theorem check_due (s : ChildReaper) : (check polls s).due = false := by
  rw [check_eq]
  exact conclude_due _

theorem allDead_iff (distinct : (s.procInfo.map Prod.fst).Nodup) : s.allDead = true ↔
    (∃ sequence procinfo, Dict.get s.procInfo sequence = some procinfo ∧ procinfo.ignore = false) ∧
      ∀ sequence procinfo, Dict.get s.procInfo sequence = some procinfo → procinfo.ignore = false →
        procinfo.dead = true := by
  unfold ChildReaper.allDead ChildReaper.alive ChildReaper.watched
  rw [Bool.and_eq_true, Bool.not_eq_true', List.isEmpty_eq_false_iff_exists_mem, List.isEmpty_iff,
    List.filter_eq_nil_iff]
  constructor
  · rintro ⟨⟨entry, member⟩, dead⟩
    rw [List.mem_filter] at member
    refine ⟨⟨entry.1, entry.2, Dict.mem_get distinct member.1, by simpa using member.2⟩, ?_⟩
    intro sequence procinfo found unignored
    have here := dead (sequence, procinfo) (List.mem_filter.mpr ⟨Dict.get_mem found, by simp [unignored]⟩)
    simpa using here
  · rintro ⟨⟨sequence, procinfo, found, unignored⟩, dead⟩
    refine ⟨⟨(sequence, procinfo), List.mem_filter.mpr ⟨Dict.get_mem found, by simp [unignored]⟩⟩, ?_⟩
    intro entry member
    rw [List.mem_filter] at member
    have here := dead entry.1 entry.2 (Dict.mem_get distinct member.1) (by simpa using member.2)
    simpa using here

/-- Where the quit callback is due, it was before, and nothing has ended since. -/
def Undue (s s' : ChildReaper) : Prop :=
  s'.due = true → s.due = true ∧ ∀ sequence, .terminated sequence ∈ s'.log → .terminated sequence ∈ s.log

theorem Undue.refl (s : ChildReaper) : Undue s s := fun due => ⟨due, fun _ told => told⟩

theorem Undue.trans {s' s'' : ChildReaper} (first : Undue s s') (second : Undue s' s'') : Undue s s'' := by
  intro due
  obtain ⟨due', told'⟩ := second due
  obtain ⟨due, told⟩ := first due'
  exact ⟨due, fun sequence here => told sequence (told' sequence here)⟩

theorem tick_undue (s : ChildReaper) (other : Nat) : Undue s (s.tick other) := by
  refine fun due => ⟨due, fun sequence told => ?_⟩
  unfold ChildReaper.tick at told
  simpa using told

theorem running_undue (sound : Sound polls s) {procinfo : ProcInfo}
    (found : Dict.get s.procInfo sequence = some procinfo) (runs : procinfo.dead = false) :
    Undue s (s.setProcInfo sequence { procinfo with returncode := none, dead := false }) := by
  have get (other : Nat) :
      Dict.get (s.setProcInfo sequence { procinfo with returncode := none, dead := false }).procInfo other =
        if sequence = other then some { procinfo with returncode := none, dead := false }
        else Dict.get s.procInfo other := Dict.get_set _ _ _ _
  intro due
  unfold ChildReaper.due at due ⊢
  rw [Bool.and_eq_true] at due
  refine ⟨?_, fun _ told => told⟩
  obtain ⟨⟨other, entry, here, unignored⟩, dead⟩ := (allDead_iff (sound.running found runs).distinct).mp due.1
  -- the running process is not a watched one
  have ignored : procinfo.ignore = true := by
    by_contra watched
    rw [Bool.not_eq_true] at watched
    have now := get sequence
    rw [if_pos rfl] at now
    have dead' := dead sequence _ now watched
    cases dead'
  have all : s.allDead = true := by
    rw [allDead_iff sound.distinct]
    constructor
    · rw [get] at here
      split at here
      · cases here
        rw [ignored] at unignored
        cases unignored
      · exact ⟨other, entry, here, unignored⟩
    · intro one before listed watched
      by_cases same : sequence = one
      · subst same
        rw [found] at listed
        cases listed
        rw [ignored] at watched
        cases watched
      · have now := get one
        rw [if_neg same, listed] at now
        exact dead one before now watched
  rw [all]
  exact due.2

theorem addDeadProcess_undue (sound : Sound polls s) (sequence : Nat) :
    Undue s (addDeadProcess polls s sequence) := by
  unfold addDeadProcess addDeadWith
  split
  · exact .refl s
  · next procinfo found =>
      split
      · exact .refl s
      · next going =>
          have runs : procinfo.dead = false := by
            rw [Bool.or_eq_true, not_or, Bool.not_eq_true] at going
            exact going.1
          split
          · exact (tick_undue s sequence).trans
              (running_undue (s := s.tick sequence) (sound.tick sequence) found runs)
          · intro due
            rw [check_due] at due
            cases due

theorem pollProcess_undue (sound : Sound polls s) (sequence : Nat) :
    Undue s (pollProcess polls (check polls) s sequence) := by
  unfold pollProcess
  split
  · exact .refl s
  · split
    · split
      · exact (tick_undue s sequence).trans
          (addDeadProcess_undue (s := s.tick sequence) (sound.tick sequence) sequence)
      · exact tick_undue s sequence
    · exact .refl s

theorem foldl_undue {ι : Type} {f : ChildReaper → ι → ChildReaper}
    (turns : ∀ s i, Turns polls s (f s i)) (each : ∀ s i, Sound polls s → Undue s (f s i)) (items : List ι)
    (sound : Sound polls s) : Undue s (items.foldl f s) := by
  induction items generalizing s with
  | nil => exact .refl s
  | cons i items ih => exact (each s i sound).trans (ih (sound.turns (turns s i)))

theorem poll_undue (sound : Sound polls s) : Undue s (poll polls s) :=
  foldl_undue (pollProcess_turns check_turns) (fun _ sequence sound => pollProcess_undue sound sequence) _ sound

theorem addDeadPid_undue (sound : Sound polls s) (pid : Int) : Undue s (addDeadPid polls s pid) :=
  foldl_undue (addDeadWith_turns check_turns)
    (fun _ sequence sound => addDeadProcess_undue sound sequence) _ sound

theorem reap_undue (sound : Sound polls s) (waited : List Int) : Undue s (reap polls s waited) :=
  (poll_undue sound).trans
    (foldl_undue addDeadPid_turns (fun _ pid sound => addDeadPid_undue sound pid) waited
      (sound.turns (poll_turns s)))

/-- In every run, each quit callback that is set is called at most once, and only where some process was
watched and no watched process is running. No check leaves it set while everybody is dead, nor does
anything else that has found a process dead. -/
theorem quit_when_all_dead (run : Reachable Starts (Step polls) s) :
    s.log.count .quit ≤ s.log.count .quitSet ∧
      (∀ before after, s.log = before ++ .quit :: after → (∀ sequence, ¬ Running before sequence) ∧
        ∃ sequence first, .added sequence first ∈ before ∧ first.ignore = false) ∧
      ∀ a s', Step polls s a s' →
        (a = .check ∨ a = .pollTimer ∨
          ∃ sequence, .terminated sequence ∈ s'.log ∧ .terminated sequence ∉ s.log) → s'.due = false := by
  have sound := sound_of_reachable run
  refine ⟨le_trans (Nat.le_add_right _ _) sound.asked, ?_, ?_⟩
  · exact fun before after here => sound.tells.allows before here
  · intro a s' step why
    by_contra due
    rw [Bool.not_eq_false] at due
    have undue (undue : Undue s s') (other : a ≠ .check ∧ a ≠ .pollTimer) : False := by
      rcases why with same | same | ⟨sequence, told, new⟩
      · exact other.1 same
      · exact other.2 same
      · exact new ((undue due).2 sequence told)
    cases step with
    | addProcess done =>
        obtain ⟨procinfo, -, rfl⟩ := addProcess_appends sound.fresh done
        rcases why with same | same | ⟨sequence, told, new⟩
        · cases same
        · cases same
        · exact new (by simpa [ChildReaper.append] using told)
    | setQuitCallback =>
        rcases why with same | same | ⟨sequence, told, new⟩
        · cases same
        · cases same
        · exact new (by simpa [Children.setQuitCallback] using told)
    | check =>
        rw [check_due] at due
        cases due
    | pollTimer =>
        have none : (check polls s).due = true := due
        rw [check_due] at none
        cases none
    | poll => exact undue (poll_undue sound) ⟨nofun, nofun⟩
    | sigchld waited => exact undue (reap_undue sound waited) ⟨nofun, nofun⟩
    | cleanup waited =>
        have none : (cleanup polls s waited).due = false := rfl
        rw [none] at due
        cases due

/-- A server that waits for one child, checked once after the child has exited. -/
theorem quit_when_all_dead_child :
    let polls : Polls := fun t _ => if 1 ≤ t then some 0 else none
    ∃ s : ChildReaper, Reachable Starts (Step polls) s ∧ (check polls s).due = false ∧
      (check polls s).log.count .quit ≤ 1 ∧ .quit ∈ (check polls s).log := by
  intro polls
  let start : ChildReaper := ⟨true, [], 0, false, 0, [.quitSet]⟩
  let one : ChildReaper := ⟨true, [(1, ⟨100, false, false, false, none, false, true⟩)], 1, false, 1,
    [.quitSet, .polled 1 0, .added 1 ⟨100, false, false, false, none, false, true⟩]⟩
  have first : Step polls start (.addProcess "one" 100 false false false) one := .addProcess (by decide)
  have run : Reachable Starts (Step polls) one :=
    .next (a := Action.addProcess "one" 100 false false false) (.start ⟨rfl, rfl⟩) first
  have step : Step polls one .check (check polls one) := .check one
  have after : Reachable Starts (Step polls) (check polls one) := .next (a := Action.check) run step
  obtain ⟨-, -, settled⟩ := quit_when_all_dead run
  obtain ⟨few, -, -⟩ := quit_when_all_dead after
  exact ⟨one, run, settled .check _ step (.inl rfl), le_trans few (by decide), by decide⟩

end Catlink.Children
