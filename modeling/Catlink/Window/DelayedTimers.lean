import Catlink.Lib.Runs
import Catlink.Window.DelayedRegions
import Mathlib.Tactic

/-! A region that is delayed has a timer, and what the timer does answers it. -/

namespace Catlink.Delayed

open MainLoop Runs

/-! ### What is claimed -/

/-- One of the three timers of a region is armed. -/
def Armed (s : WindowSource) : Prop :=
  ∃ callback, (callback.kind = .expire ∨ callback.kind = .soft ∨ callback.kind = .timeout) ∧
    (s.number callback.kind, callback) ∈ s.timers.sources

/-- The region is sent, itself or with the whole window, or it still waits for a timer. -/
inductive Answered (s : WindowSource) (delayed : DelayedRegions) (s' : WindowSource) : Prop
  | sent (taken : s'.damageDelayed = none) (update : Sent) (added : s'.sent = s.sent ++ [update])
      (region : update.regions = delayed.regions ∨ ∃ env, update.regions = [wholeWindow env])
  | waits (after : DelayedRegions) (kept : s'.damageDelayed = some after)
      (same : after.regions = delayed.regions ∧ after.damageTime = delayed.damageTime)
      (unsent : s'.sent = s.sent) (armed : Armed s')

/-- A window without damage. -/
structure Opens (s : WindowSource) : Prop where
  number : s.number = fun _ => 0
  timers : s.timers = .start
  damageDelayed : s.damageDelayed = none

def Happens (s : WindowSource) (event : Env × Event) (s' : WindowSource) : Prop :=
  Enabled s event.2 ∧ s' = handle s event.1 event.2

/-! ### The timers -/

/-- The timers whose numbers are never replaced. -/
def Kind.single (kind : Kind) : Prop := kind = .soft ∨ kind = .timeout

/-- What holds of the timers in every state. -/
structure Timed (s : WindowSource) : Prop where
  tracked : s.timers.Tracked Callback.kind Kind.single s.number
  region : ∀ source delayedRegionTime, (source, .delayedRegionTimeout delayedRegionTime) ∈ s.timers.sources →
    ∃ delayed, s.damageDelayed = some delayed ∧ delayed.damageTime = delayedRegionTime

/-- The timeout is for a region after one that was soft expired. -/
def Counted (s : WindowSource) : Prop :=
  s.timeoutTimer ≠ 0 → 1 ≤ s.maxSoftExpired → 1 ≤ s.softExpired

/-- The region of a state has the number of a timer. -/
def Numbered (s : WindowSource) : Prop :=
  s.expireTimer ≠ 0 ∨ s.softTimer ≠ 0 ∨ s.timeoutTimer ≠ 0

/-- Only numbers and sources of timers change. -/
structure Frame (s s' : WindowSource) : Prop where
  maxSoftExpired : s'.maxSoftExpired = s.maxSoftExpired
  damageDelayed : s'.damageDelayed = s.damageDelayed
  softExpired : s'.softExpired = s.softExpired
  damageCancelled : s'.damageCancelled = s.damageCancelled
  sent : s'.sent = s.sent

section Timers

variable {s s' : WindowSource} {kind : Kind} {source : Nat} {callback : Callback} {env : Env}

theorem Frame.trans {s'' : WindowSource} (first : Frame s s') (second : Frame s' s'') : Frame s s'' :=
  ⟨second.maxSoftExpired.trans first.maxSoftExpired, second.damageDelayed.trans first.damageDelayed,
    second.softExpired.trans first.softExpired, second.damageCancelled.trans first.damageCancelled,
    second.sent.trans first.sent⟩

theorem number_setNumber (s : WindowSource) (number : Nat) (stored : kind ≠ .acked) :
    (s.setNumber kind number).number = Function.update s.number kind number := by
  funext other
  cases kind <;> cases other <;> first | rfl | exact absurd rfl stored

theorem setNumber_frame (s : WindowSource) (kind : Kind) (number : Nat) (timers : Sources Callback) :
    Frame s { s.setNumber kind number with timers := timers } := by
  cases kind
  all_goals exact ⟨rfl, rfl, rfl, rfl, rfl⟩

theorem Timed.armed (timed : Timed s) (numbered : Numbered s) : Armed s := by
  rcases numbered with expire | soft | timeout
  · obtain ⟨callback, own, member⟩ := timed.tracked.armed .expire expire
    exact ⟨callback, .inl own, own ▸ member⟩
  · obtain ⟨callback, own, member⟩ := timed.tracked.armed .soft soft
    exact ⟨callback, .inr (.inl own), own ▸ member⟩
  · obtain ⟨callback, own, member⟩ := timed.tracked.armed .timeout timeout
    exact ⟨callback, .inr (.inr own), own ▸ member⟩

/-- A source is removed, with the number of its kind. -/
theorem Timed.dropped (timed : Timed s) (here : (source, callback) ∈ s.timers.sources) :
    Timed { s.setNumber callback.kind 0 with timers := s.timers.remove source } := by
  have frame := setNumber_frame s callback.kind 0 (s.timers.remove source)
  have tracked := timed.tracked.drop here
  refine ⟨?_, fun source' time member => ?_⟩
  · by_cases stored : callback.kind = .acked
    · have same : Function.update s.number callback.kind 0 = s.number := by
        rw [stored]
        exact Function.update_eq_self Kind.acked s.number
      rw [same] at tracked
      rw [stored]
      exact tracked
    · have numbers := number_setNumber s 0 stored
      rw [← numbers] at tracked
      exact tracked
  · obtain ⟨member, -⟩ := Sources.mem_remove.mp member
    rw [frame.damageDelayed]
    exact timed.region source' time member

theorem cancelTimer_frame (kind : Kind) (s : WindowSource) : Frame s (cancelTimer kind s) := by
  unfold cancelTimer
  split
  · exact ⟨rfl, rfl, rfl, rfl, rfl⟩
  · exact setNumber_frame s kind 0 _

theorem Timed.cancelTimer (timed : Timed s) (kind : Kind) : Timed (cancelTimer kind s) := by
  unfold Delayed.cancelTimer
  split
  · exact timed
  · rename_i armed
    obtain ⟨callback, rfl, member⟩ := timed.tracked.armed kind armed
    exact timed.dropped member

theorem number_cancelTimer (s : WindowSource) (kind : Kind) :
    (Delayed.cancelTimer kind s).number = Function.update s.number kind 0 := by
  unfold Delayed.cancelTimer
  split
  · rename_i free
    rw [← free, Function.update_eq_self]
  · rename_i armed
    have stored : kind ≠ .acked := fun same => armed (by rw [same]; rfl)
    exact number_setNumber s 0 stored

/-- A new source; the number of its kind is overwritten. -/
theorem Timed.started (timed : Timed s) (stored : callback.kind ≠ .acked)
    (free : callback.kind.single → s.number callback.kind = 0)
    (region : ∀ time, callback = .delayedRegionTimeout time →
      ∃ delayed, s.damageDelayed = some delayed ∧ delayed.damageTime = time) : Timed (startTimer callback s) := by
  have frame := setNumber_frame s callback.kind s.timers.next (s.timers.add callback)
  have numbers := number_setNumber s s.timers.next stored
  have tracked := timed.tracked.arm callback free
  rw [← numbers] at tracked
  refine ⟨tracked, fun source time member => ?_⟩
  rcases Sources.mem_add.mp member with old | new
  · obtain ⟨delayed, known, same⟩ := timed.region source time old
    exact ⟨delayed, frame.damageDelayed.trans known, same⟩
  · obtain ⟨delayed, known, same⟩ := region time (congrArg Prod.snd new).symm
    exact ⟨delayed, frame.damageDelayed.trans known, same⟩

theorem startTimer_number (callback : Callback) (s : WindowSource) (stored : callback.kind ≠ .acked) :
    (startTimer callback s).number = Function.update s.number callback.kind s.timers.next :=
  number_setNumber s s.timers.next stored

theorem startTimer_frame (callback : Callback) (s : WindowSource) : Frame s (startTimer callback s) :=
  setNumber_frame s callback.kind s.timers.next (s.timers.add callback)

/-! ### Sending -/

/-- What a state that lost its region keeps. -/
structure Taken (s s' : WindowSource) : Prop where
  timed : Timed s'
  taken : s'.damageDelayed = none
  timeoutTimer : s'.timeoutTimer = 0
  maxSoftExpired : s'.maxSoftExpired = s.maxSoftExpired

/-- A region is given to `send_regions` while the window is there. -/
theorem sendDelayedRegions_eq (s : WindowSource) (env : Env) (delayed : DelayedRegions) :
    ∃ updates, sendDelayedRegions s env delayed = { s with sent := s.sent ++ updates } ∧
      updates = if env.managed = true ∧ s.isCancelled = false then
        [⟨delayed.damageTime, delayed.regions, delayed.encoding, delayed.options⟩] else [] := by
  unfold sendDelayedRegions
  cases env.managed with
  | false => exact ⟨[], by rw [List.append_nil, if_pos rfl], rfl⟩
  | true =>
      cases s.isCancelled with
      | true => exact ⟨[], by rw [List.append_nil]; rfl, rfl⟩
      | false => exact ⟨_, rfl, rfl⟩

/-- Without a region, no timeout is armed. -/
theorem Timed.withoutRegion (timed : Timed s) (free : s.timeoutTimer = 0) :
    Timed { s with damageDelayed := none } := by
  refine ⟨timed.tracked, fun source time member => ?_⟩
  obtain ⟨known, armed⟩ := timed.tracked.only source _ member (.inr rfl)
  exact absurd (known.trans free) armed

theorem Timed.unarmed (timed : Timed s) (free : s.damageDelayed = none) : s.timeoutTimer = 0 := by
  by_contra armed
  obtain ⟨callback, own, member⟩ := timed.tracked.armed .timeout armed
  cases callback with
  | delayedRegionTimeout time =>
      obtain ⟨delayed, known, -⟩ := timed.region _ time member
      rw [free] at known
      cases known
  | _ => cases own

/-- The soft timer and the timeout are cancelled, and the region is taken. -/
theorem doSendDelayed_sends (env : Env) (timed : Timed s) {delayed : DelayedRegions}
    (known : s.damageDelayed = some delayed) :
    Taken s (doSendDelayed s env) ∧ (env.managed = true → s.isCancelled = false →
      (doSendDelayed s env).sent =
        s.sent ++ [⟨delayed.damageTime, delayed.regions, delayed.encoding, delayed.options⟩]) := by
  have first := timed.cancelTimer .timeout
  have second := first.cancelTimer .soft
  have frame := (cancelTimer_frame .timeout s).trans (cancelTimer_frame .soft (cancelTimer .timeout s))
  have numbers := number_cancelTimer (cancelTimer .timeout s) .soft
  rw [number_cancelTimer s .timeout] at numbers
  unfold doSendDelayed cancelSoftTimer cancelTimeoutTimer
  dsimp only
  generalize Delayed.cancelTimer .soft (Delayed.cancelTimer .timeout s) = stopped
    at second frame numbers ⊢
  have timeout : stopped.timeoutTimer = 0 := congrFun numbers .timeout
  have cancelled : stopped.isCancelled = s.isCancelled := by
    rw [WindowSource.isCancelled, frame.damageCancelled, WindowSource.isCancelled]
  obtain ⟨updates, same, which⟩ := sendDelayedRegions_eq { stopped with damageDelayed := none } env delayed
  simp only [frame.damageDelayed.trans known]
  rw [same]
  have timed' := second.withoutRegion timeout
  refine ⟨⟨⟨timed'.tracked, timed'.region⟩, rfl, timeout, frame.maxSoftExpired⟩, fun managed going => ?_⟩
  rw [← cancelled] at going
  rw [if_pos ⟨managed, going⟩] at which
  rw [which, ← frame.sent]

theorem doSendDelayed_none (env : Env) (timed : Timed s) (known : s.damageDelayed = none) :
    Taken s (doSendDelayed s env) := by
  have first := timed.cancelTimer .timeout
  have second := first.cancelTimer .soft
  have frame := (cancelTimer_frame .timeout s).trans (cancelTimer_frame .soft (cancelTimer .timeout s))
  unfold doSendDelayed cancelSoftTimer cancelTimeoutTimer
  dsimp only
  generalize Delayed.cancelTimer .soft (Delayed.cancelTimer .timeout s) = stopped at second frame ⊢
  have free := frame.damageDelayed.trans known
  simp only [free]
  exact ⟨second, free, second.unarmed free, frame.maxSoftExpired⟩

/-- What `may_send_delayed` does: the region waits, or it is taken and sent. -/
inductive MaySend (s : WindowSource) (env : Env) (s' : WindowSource) : Prop
  | waits (timed : Timed s') (frame : Frame s s')
      (numbers : ∀ kind, kind ≠ .maySend → s'.number kind = s.number kind)
  | sends (delayed : DelayedRegions) (known : s.damageDelayed = some delayed) (taken : Taken s s')
      (sent : env.managed = true → s.isCancelled = false → s'.sent =
        s.sent ++ [⟨delayed.damageTime, delayed.regions, delayed.encoding, delayed.options⟩])

theorem MaySend.same (env : Env) (timed : Timed s) : MaySend s env s :=
  .waits timed ⟨rfl, rfl, rfl, rfl, rfl⟩ fun _ _ => rfl

theorem MaySend.again (env : Env) (timed : Timed s) : MaySend s env (checkAgain s) := by
  have numbers : (checkAgain s).number = _ := startTimer_number .maySendDelayed s nofun
  refine .waits ?_ (startTimer_frame .maySendDelayed s) fun kind other => ?_
  · refine timed.started nofun (fun single => ?_) nofun
    rcases single with soft | timeout
    · cases soft
    · cases timeout
  · rw [numbers]
    exact Function.update_of_ne other _ _

theorem maySendDelayed_maySend (env : Env) (timed : Timed s) : MaySend s env (maySendDelayed s env) := by
  cases known : s.damageDelayed with
  | none =>
      have same : maySendDelayed s env = s := by
        unfold maySendDelayed
        simp only [known]
      rw [same]
      exact .same env timed
  | some delayed =>
      have unexpired : Timed { s with softExpired := 0 } := ⟨timed.tracked, timed.region⟩
      have sends := doSendDelayed_sends env timed known
      have clears := doSendDelayed_sends env unexpired known
      unfold maySendDelayed
      simp only [known] at clears ⊢
      split
      · exact .same env timed
      · split
        · exact .same env timed
        · split
          · split
            · exact .again env timed
            · exact .sends delayed known sends.1 sends.2
          · split
            · exact .again env timed
            · split
              · split
                · exact .again env timed
                · exact .same env timed
              · obtain ⟨⟨timed', taken, timeout, most⟩, sent⟩ := clears
                exact .sends delayed known ⟨timed', taken, timeout, most⟩ sent

/-! ### What every function keeps -/

/-- What holds between the functions of the main loop. -/
structure Sound (s : WindowSource) : Prop where
  timed : Timed s
  counted : Counted s
  numbered : s.damageDelayed ≠ none → Numbered s

theorem Taken.sound (taken : Taken s s') : Sound s' :=
  ⟨taken.timed, fun armed => absurd taken.timeoutTimer armed, fun known => absurd taken.taken known⟩

theorem Timed.marked (timed : Timed s) {delayed after : DelayedRegions}
    (known : s.damageDelayed = some delayed) (same : after.damageTime = delayed.damageTime) :
    Timed { s with damageDelayed := some after } := by
  refine ⟨timed.tracked, fun source time member => ?_⟩
  obtain ⟨delayed', known', rfl⟩ := timed.region source time member
  rw [known] at known'
  cases known'
  exact ⟨after, rfl, same⟩

theorem Timed.next_ne (timed : Timed s) : s.timers.next ≠ 0 := Nat.ne_of_gt timed.tracked.numbered

theorem MaySend.sound (maySend : MaySend s env s') (counted : Counted s)
    (numbered : s.damageDelayed ≠ none → Numbered s) : Sound s' := by
  cases maySend with
  | waits timed frame numbers =>
      have expire : s'.expireTimer = s.expireTimer := numbers .expire nofun
      have soft : s'.softTimer = s.softTimer := numbers .soft nofun
      have timeout : s'.timeoutTimer = s.timeoutTimer := numbers .timeout nofun
      refine ⟨timed, ?_, ?_⟩
      · unfold Counted
        rw [timeout, frame.maxSoftExpired, frame.softExpired]
        exact counted
      · unfold Numbered
        rw [frame.damageDelayed, expire, soft, timeout]
        exact numbered
  | sends delayed known taken sent => exact taken.sound

/-- A region that is not sent has a timer again. -/
theorem delayAgain_sound (env : Env) (delayed : DelayedRegions) (due : Int) (timed : Timed s)
    (counted : Counted s) (known : s.damageDelayed = some delayed) (free : s.softTimer = 0) :
    Sound (delayAgain s env delayed due) ∧ (delayAgain s env delayed due).damageDelayed = some delayed ∧
      (delayAgain s env delayed due).sent = s.sent := by
  unfold delayAgain
  split
  · refine ⟨⟨timed.started nofun (fun single => ?_) nofun, counted, fun _ => .inl timed.next_ne⟩,
      known, rfl⟩
    rcases single with soft | timeout
    · cases soft
    · cases timeout
  · split
    · have more : Timed { s with softExpired := s.softExpired + 1 } := ⟨timed.tracked, timed.region⟩
      exact ⟨⟨more.started nofun (fun _ => free) nofun, fun _ _ => Nat.le_add_left 1 _,
        fun _ => .inr (.inl timed.next_ne)⟩, known, rfl⟩
    · rename_i limit
      split
      · rename_i unarmed
        refine ⟨⟨timed.started nofun (fun _ => unarmed) fun time same => ?_, fun _ some => ?_,
          fun _ => .inr (.inr timed.next_ne)⟩, known, rfl⟩
        · cases same
          exact ⟨delayed, known, rfl⟩
        · change 1 ≤ s.softExpired
          change 1 ≤ s.maxSoftExpired at some
          omega
      · rename_i armed
        exact ⟨⟨timed, counted, fun _ => .inr (.inr armed)⟩, known, rfl⟩

theorem expireDelayedRegion_answers (env : Env) (due : Int) (timed : Timed { s with expireTimer := 0 })
    (counted : Counted s) : Sound (expireDelayedRegion s env due) ∧
      ∀ delayed, s.damageDelayed = some delayed → env.managed = true → s.isCancelled = false →
        Answered s delayed (expireDelayedRegion s env due) := by
  unfold expireDelayedRegion
  dsimp only
  split
  · next known =>
      refine ⟨⟨timed, counted, fun some => absurd known some⟩, fun delayed there => ?_⟩
      rw [known] at there
      cases there
  · next delayed known =>
      by_cases soft : s.softTimer ≠ 0
      · rw [if_pos soft]
        have numbered : Numbered { s with expireTimer := 0 } := .inr (.inl soft)
        refine ⟨⟨timed, counted, fun _ => numbered⟩, fun d same _ _ => ?_⟩
        cases known.symm.trans same
        exact .waits delayed known ⟨rfl, rfl⟩ rfl (timed.armed numbered)
      · rw [if_neg soft]
        have marked : Timed { s with
            expireTimer := 0, damageDelayed := some { delayed with expired := true } } :=
          timed.marked known rfl
        have timed' := marked.cancelTimer .maySend
        have frame := cancelTimer_frame .maySend { s with
          expireTimer := 0, damageDelayed := some { delayed with expired := true } }
        have numbers := number_cancelTimer { s with
          expireTimer := 0, damageDelayed := some { delayed with expired := true } } .maySend
        unfold cancelMaySendTimer
        generalize cancelTimer .maySend _ = ready at timed' frame numbers ⊢
        have cancelled : ready.isCancelled = s.isCancelled := by
          rw [WindowSource.isCancelled, frame.damageCancelled, WindowSource.isCancelled]
        cases maySendDelayed_maySend env timed' with
        | waits timed'' frame' numbers' =>
            have both := frame.trans frame'
            have softTimer : (maySendDelayed ready env).softTimer = 0 :=
              (numbers' .soft nofun).trans ((congrFun numbers .soft).trans (not_not.mp soft))
            have timeout : (maySendDelayed ready env).timeoutTimer = s.timeoutTimer :=
              (numbers' .timeout nofun).trans (congrFun numbers .timeout)
            have counted' : Counted (maySendDelayed ready env) := by
              unfold Counted
              rw [timeout, both.maxSoftExpired, both.softExpired]
              exact counted
            have waiting := both.damageDelayed
            dsimp only at waiting
            simp only [waiting]
            obtain ⟨sound, kept, unsent⟩ :=
              delayAgain_sound env { delayed with expired := true } due timed'' counted' waiting softTimer
            refine ⟨sound, fun d same _ _ => ?_⟩
            cases known.symm.trans same
            refine .waits _ kept ⟨rfl, rfl⟩ (unsent.trans both.sent) (sound.timed.armed (sound.numbered ?_))
            rw [kept]
            exact Option.some_ne_none _
        | sends delayed' known' taken sent =>
            simp only [taken.taken]
            refine ⟨taken.sound, fun d same managed going => ?_⟩
            cases known.symm.trans same
            rw [frame.damageDelayed] at known'
            cases known'
            have added := sent managed (cancelled.trans going)
            rw [frame.sent] at added
            exact .sent taken.taken _ added (.inl rfl)

theorem delayedRegionSoftTimeout_answers (env : Env) (timed : Timed { s with softTimer := 0 }) :
    Sound (delayedRegionSoftTimeout s env) ∧
      ∀ delayed, s.damageDelayed = some delayed → env.managed = true → s.isCancelled = false →
        Answered s delayed (delayedRegionSoftTimeout s env) := by
  unfold delayedRegionSoftTimeout
  by_cases idle : s.damageDelayed = none
  · refine ⟨(doSendDelayed_none env timed idle).sound, fun delayed known => ?_⟩
    rw [idle] at known
    cases known
  · obtain ⟨delayed, known⟩ := Option.ne_none_iff_exists'.mp idle
    obtain ⟨taken, sent⟩ := doSendDelayed_sends env timed known
    refine ⟨taken.sound, fun d same managed going => ?_⟩
    cases known.symm.trans same
    exact .sent taken.taken _ (sent managed going) (.inl rfl)

theorem cancelDamage_taken (env : Env) (limit : Nat) (timed : Timed s) :
    Taken s (cancelDamage s env limit) ∧ (cancelDamage s env limit).sent = s.sent ∧
      (cancelDamage s env limit).damageCancelled = if limit ≠ 0 then limit else env.sequence := by
  unfold cancelDamage cancelExpireTimer cancelMaySendTimer cancelSoftTimer cancelTimeoutTimer
  dsimp only
  generalize (if limit ≠ 0 then limit else env.sequence) = upTo
  have first : Timed { s with damageCancelled := upTo } := ⟨timed.tracked, timed.region⟩
  have stopped := (((first.cancelTimer .expire).cancelTimer .maySend).cancelTimer .soft).cancelTimer .timeout
  have frame := (((cancelTimer_frame .expire { s with damageCancelled := upTo }).trans
    (cancelTimer_frame .maySend _)).trans (cancelTimer_frame .soft _)).trans (cancelTimer_frame .timeout _)
  have numbers := number_cancelTimer (cancelTimer .soft (cancelTimer .maySend
    (cancelTimer .expire { s with damageCancelled := upTo }))) .timeout
  have free := congrFun numbers .timeout
  rw [Function.update_self] at free
  exact ⟨⟨stopped.withoutRegion free, rfl, free, frame.maxSoftExpired⟩, frame.sent, frame.damageCancelled⟩

/-- A refresh of the whole window, when there is an encoding for it. -/
theorem fullQualityRefresh_eq (s : WindowSource) (env : Env) (options : Options) :
    ∃ updates, fullQualityRefresh s env options = { s with sent := s.sent ++ updates } ∧
      (env.autoRefreshEncodings = [] → updates = []) ∧
      (env.autoRefreshEncodings ≠ [] → env.managed = true → s.isCancelled = false →
        ∃ update, updates = [update] ∧ update.regions = [wholeWindow env]) := by
  have nothing : { s with sent := s.sent ++ [] } = s := by rw [List.append_nil]
  unfold fullQualityRefresh
  split
  · next unmanaged => exact ⟨[], nothing.symm, fun _ => rfl, fun _ managed =>
      absurd (unmanaged.symm.trans managed) Bool.false_ne_true⟩
  · split
    · next encodings => exact ⟨[], nothing.symm, fun _ => rfl, fun some => absurd encodings some⟩
    · next encoding others encodings =>
        split
        · next cancelled =>
            refine ⟨[], nothing.symm, fun _ => rfl, fun _ _ going => ?_⟩
            exact absurd (going.symm.trans cancelled) Bool.false_ne_true
        · obtain ⟨updates, same, which⟩ := sendDelayedRegions_eq s env ⟨env.now, encoding,
            (refreshOptions env).foldl (fun d entry => Dict.set d entry.1 entry.2) options,
            [wholeWindow env], false⟩
          refine ⟨updates, same, fun none => ?_, fun _ managed going => ?_⟩
          · rw [encodings] at none
            cases none
          · rw [if_pos ⟨managed, going⟩] at which
            exact ⟨_, which, rfl⟩

/-- Past the timeout the region is dropped, and the whole window refreshed in its place. -/
theorem delayedRegionTimeout_answers (env : Env) (time : Int) (timed : Timed { s with timeoutTimer := 0 })
    {delayed : DelayedRegions} (known : s.damageDelayed = some delayed)
    (same : delayed.damageTime = time) : Sound (delayedRegionTimeout s env time) ∧
      (env.managed = true → env.sequence < maxSequence →
        (Answered s delayed (delayedRegionTimeout s env time) ↔ env.autoRefreshEncodings ≠ [])) := by
  have given : delayedRegionTimeout s env time = fullQualityRefresh
      { cancelTimer .soft (cancelTimer .expire (cancelDamage { s with timeoutTimer := 0 } env 0)) with
        damageDelayed := none } env delayed.options := by
    unfold delayedRegionTimeout
    simp only [known]
    rw [if_neg (not_not.mpr same)]
    rfl
  obtain ⟨taken, unsent, cancelled⟩ := cancelDamage_taken env 0 timed
  have stopped := (taken.timed.cancelTimer .expire).cancelTimer .soft
  have frame := (cancelTimer_frame .expire (cancelDamage { s with timeoutTimer := 0 } env 0)).trans
    (cancelTimer_frame .soft _)
  rw [given]
  generalize cancelTimer .soft (cancelTimer .expire _) = dropped at stopped frame ⊢
  have idle := frame.damageDelayed.trans taken.taken
  have free := stopped.unarmed idle
  obtain ⟨updates, is, none, one⟩ :=
    fullQualityRefresh_eq { dropped with damageDelayed := .none } env delayed.options
  rw [is]
  have timed' := stopped.withoutRegion free
  have taken' : Taken s { dropped with damageDelayed := .none, sent := dropped.sent ++ updates } :=
    ⟨⟨timed'.tracked, timed'.region⟩, rfl, free, frame.maxSoftExpired.trans taken.maxSoftExpired⟩
  refine ⟨taken'.sound, fun managed fits => ⟨fun answered empty => ?_, fun some => ?_⟩⟩
  · have quiet : dropped.sent ++ updates = s.sent := by
      rw [none empty, List.append_nil, frame.sent, unsent]
    cases answered with
    | sent taken update added region =>
        have more := congrArg List.length (added.symm.trans quiet)
        rw [List.length_append, List.length_singleton] at more
        omega
    | waits after kept same unsent armed => cases kept
  · have going : ({ dropped with damageDelayed := .none } : WindowSource).isCancelled = false := by
      have below : ¬ maxSequence ≤ env.sequence := Nat.not_le.mpr fits
      rw [WindowSource.isCancelled]
      dsimp only
      rw [frame.damageCancelled, cancelled, if_neg (not_not.mpr rfl), decide_eq_false below]
    obtain ⟨update, rfl, whole⟩ := one some managed going
    refine .sent rfl update ?_ (.inr ⟨env, whole⟩)
    dsimp only
    rw [frame.sent, unsent]

/-! ### Runs -/

theorem Opens.sound (opens : Opens s) : Sound s := by
  refine ⟨⟨?_, fun source time member => ?_⟩, fun armed => ?_, fun known => absurd opens.damageDelayed known⟩
  · rw [opens.timers, opens.number]
    exact .start
  · rw [opens.timers] at member
    exact absurd member List.not_mem_nil
  · exact absurd (congrFun opens.number .timeout) armed

theorem doDamage_sound (env : Env) (region : Util.Rectangle) (options : Options)
    (expireDelay targetDelay : Int) (sound : Sound s) :
    Sound (doDamage s env region options expireDelay targetDelay) := by
  have many (due delay : Int) : ¬ (Callback.expireDelayedRegion due delay).kind.single := by
    rintro (soft | timeout)
    · cases soft
    · cases timeout
  unfold doDamage
  split
  · next delayed known =>
      have marked : Timed { s with
          damageDelayed := some (mergeDamage s env delayed region options) } :=
        sound.timed.marked known rfl
      have numbered := sound.numbered (by rw [known]; exact Option.some_ne_none _)
      dsimp only
      split
      · exact ⟨marked.started nofun (fun single => absurd single (many _ _)) nofun, sound.counted,
          fun _ => .inl marked.next_ne⟩
      · exact ⟨marked, sound.counted, fun _ => numbered⟩
  · next idle =>
      have free := sound.timed.unarmed idle
      have opened (delayed : DelayedRegions) : Timed { s with damageDelayed := some delayed } := by
        have without := sound.timed.withoutRegion free
        refine ⟨without.tracked, fun source time member => ?_⟩
        obtain ⟨_, known, -⟩ := without.region source time member
        cases known
      exact ⟨(opened _).started nofun (fun single => absurd single (many _ _)) nofun,
        fun armed => absurd free armed, fun _ => .inl sound.timed.next_ne⟩

theorem damagePacketAcked_sound (sound : Sound s) : Sound (damagePacketAcked s) := by
  unfold damagePacketAcked
  split
  · next idle =>
      have free := sound.timed.unarmed idle
      exact ⟨⟨sound.timed.tracked, sound.timed.region⟩, fun armed => absurd free armed,
        fun known => absurd idle known⟩
  · split
    · have many : ¬ Callback.acked.kind.single := by
        rintro (soft | timeout)
        · cases soft
        · cases timeout
      refine ⟨⟨sound.timed.tracked.add many, fun source time member => ?_⟩, sound.counted, sound.numbered⟩
      rcases Sources.mem_add.mp member with old | new
      · exact sound.timed.region source time old
      · cases new
    · exact sound

theorem fullQualityRefresh_sound (env : Env) (options : Options) (sound : Sound s) :
    Sound (fullQualityRefresh s env options) := by
  obtain ⟨updates, same, -, -⟩ := fullQualityRefresh_eq s env options
  rw [same]
  exact ⟨⟨sound.timed.tracked, sound.timed.region⟩, sound.counted, sound.numbered⟩

/-- The repair of `do_damage` is not reached. -/
theorem Sound.reached (sound : Sound s) {delayed : DelayedRegions} (known : s.damageDelayed = some delayed)
    (most : 1 ≤ s.maxSoftExpired) : ¬ Stranded s := by
  rintro ⟨-, expire, soft, counter⟩
  have timeout : s.timeoutTimer ≠ 0 := by
    rcases sound.numbered (by rw [known]; exact Option.some_ne_none _) with armed | armed | armed
    · exact absurd expire armed
    · exact absurd soft armed
    · exact armed
  have counted := sound.counted timeout most
  omega

theorem Answered.of_sent {s₁ : WindowSource} {delayed : DelayedRegions}
    (answered : Answered s delayed s') (same : s.sent = s₁.sent) : Answered s₁ delayed s' := by
  cases answered with
  | sent taken update added region => exact .sent taken update (same ▸ added) region
  | waits after kept own unsent armed => exact .waits after kept own (same ▸ unsent) armed

/-- What the function of a source does, when it is called. -/
theorem fire_answers (env : Env) (sound : Sound s) (here : (source, callback) ∈ s.timers.sources) :
    Sound (s.fire env source callback) ∧
      ∀ delayed, s.damageDelayed = some delayed →
        callback.kind = .expire ∨ callback.kind = .soft ∨ callback.kind = .timeout →
        env.managed = true → s.isCancelled = false → env.sequence < maxSequence →
        (Answered s delayed (s.fire env source callback) ↔
          (callback.kind = .timeout → env.autoRefreshEncodings ≠ [])) := by
  have dropped := sound.timed.dropped here
  cases callback with
  | expireDelayedRegion due targetDelay =>
      obtain ⟨kept, answers⟩ := expireDelayedRegion_answers env due
        (s := { s with timers := s.timers.remove source }) dropped sound.counted
      refine ⟨kept, fun delayed known _ managed going _ => ⟨fun _ => nofun, fun _ => ?_⟩⟩
      exact (answers delayed known managed going).of_sent rfl
  | delayedRegionSoftTimeout =>
      obtain ⟨kept, answers⟩ := delayedRegionSoftTimeout_answers env
        (s := { s with timers := s.timers.remove source }) dropped
      refine ⟨kept, fun delayed known _ managed going _ => ⟨fun _ => nofun, fun _ => ?_⟩⟩
      exact (answers delayed known managed going).of_sent rfl
  | delayedRegionTimeout time =>
      obtain ⟨delayed, known, same⟩ := sound.timed.region source time here
      obtain ⟨kept, answers⟩ := delayedRegionTimeout_answers env time
        (s := { s with timers := s.timers.remove source }) dropped known same
      refine ⟨kept, fun delayed' known' _ managed _ fits => ?_⟩
      cases known.symm.trans known'
      have refreshes := answers managed fits
      exact ⟨fun answered _ => refreshes.mp (answered.of_sent rfl),
        fun some => (refreshes.mpr (some rfl)).of_sent rfl⟩
  | maySendDelayed =>
      have maySend := maySendDelayed_maySend env dropped
      refine ⟨maySend.sound sound.counted sound.numbered, fun delayed _ waited => ?_⟩
      rcases waited with expire | soft | timeout
      · cases expire
      · cases soft
      · cases timeout
  | acked =>
      have removed : Timed { s with timers := s.timers.remove source } := dropped
      have maySend := maySendDelayed_maySend env (removed.cancelTimer .maySend)
      have frame := cancelTimer_frame .maySend { s with timers := s.timers.remove source }
      have numbers := number_cancelTimer { s with timers := s.timers.remove source } .maySend
      have timeout : (cancelTimer .maySend { s with timers := s.timers.remove source }).timeoutTimer =
          s.timeoutTimer := congrFun numbers .timeout
      have soft : (cancelTimer .maySend { s with timers := s.timers.remove source }).softTimer =
          s.softTimer := congrFun numbers .soft
      have expire : (cancelTimer .maySend { s with timers := s.timers.remove source }).expireTimer =
          s.expireTimer := congrFun numbers .expire
      refine ⟨maySend.sound ?_ ?_, fun delayed _ waited => ?_⟩
      · unfold Counted
        rw [frame.maxSoftExpired, frame.softExpired]
        exact fun armed => sound.counted (timeout ▸ armed)
      · unfold Numbered
        rw [frame.damageDelayed]
        rw [expire, soft, timeout]
        exact sound.numbered
      · rcases waited with expire | soft | timeout
        · cases expire
        · cases soft
        · cases timeout

theorem handle_sound (env : Env) (event : Event) (sound : Sound s) (enabled : Enabled s event) :
    Sound (handle s env event) := by
  cases event with
  | damage region options expireDelay targetDelay =>
      exact doDamage_sound env region options expireDelay targetDelay sound
  | acked => exact damagePacketAcked_sound sound
  | refresh options => exact fullQualityRefresh_sound env options sound
  | cancel limit => exact (cancelDamage_taken env limit sound.timed).1.sound
  | fire source callback => exact (fire_answers env sound enabled).1

theorem sound_of_reachable (reachable : Reachable Opens Happens s) : Sound s := by
  refine reachable.invariant (fun s opens => opens.sound) fun s event s' sound happens => ?_
  obtain ⟨enabled, rfl⟩ := happens
  exact handle_sound event.1 event.2 sound enabled

end Timers

/-- In every state of every run a delayed region has a timer, the repair of `do_damage` is not
reached, and a timer that fires answers the region; the timeout only with an encoding for the
refresh. -/
theorem delayed_region_answered {s : WindowSource} (reachable : Reachable Opens Happens s)
    {delayed : DelayedRegions} (known : s.damageDelayed = some delayed) :
    Armed s ∧ (1 ≤ s.maxSoftExpired → ¬ Stranded s) ∧
      ∀ (env : Env) (source : Nat) (callback : Callback), (source, callback) ∈ s.timers.sources →
        callback.kind = .expire ∨ callback.kind = .soft ∨ callback.kind = .timeout →
        env.managed = true → s.isCancelled = false → env.sequence < maxSequence →
        (Answered s delayed (s.fire env source callback) ↔
          (callback.kind = .timeout → env.autoRefreshEncodings ≠ [])) := by
  have sound := sound_of_reachable reachable
  have numbered := sound.numbered (by rw [known]; exact Option.some_ne_none _)
  exact ⟨sound.timed.armed numbered, sound.reached known, fun env source callback here waited managed going fits =>
    (fire_answers env sound here).2 delayed known waited managed going fits⟩

/-- A window of a client with `mmap`, which has no encoding for refreshes, and late acknowledgements. -/
def late : Env where
  now := 0
  later := 1000
  batchConfig := ⟨50, 16, 500, 250, 15000, false⟩
  packetsBacklog := 1
  bandwidthLimit := 0
  bitrate := 0
  pixelsEncodingBacklog := 0
  encBacklogCount := 0
  acksPending := 1
  damageEventsCount := 0
  windowDimensions := (100, 100)
  managed := true
  autoRefreshEncodings := []
  refreshQuality := 100
  refreshSpeed := 50
  encoding := "mmap"
  sequence := 1

def idle : WindowSource where
  maxSoftExpired := 5
  fullFramesOnly := false
  maxSmallRegions := 40

theorem idle_opens : Opens idle := by
  refine ⟨?_, rfl, rfl⟩
  funext kind
  cases kind
  all_goals rfl

def change : Event := .damage ⟨0, 0, 10, 10, Refresh.square_valid⟩ [] 0 50

/-- A region, and its timer fires while acknowledgements are late. -/
theorem delayed_region_answered_change :
    Armed (handle idle late change) ∧ ¬ Stranded (handle idle late change) ∧
      Answered (handle idle late change)
        ⟨0, "mmap", [], [⟨0, 0, 10, 10, Refresh.square_valid⟩], false⟩
        ((handle idle late change).fire late 1 (.expireDelayedRegion 0 50)) := by
  obtain ⟨armed, reached, answers⟩ := delayed_region_answered
    ((Reachable.start idle_opens).next (a := (late, change)) ⟨trivial, rfl⟩) rfl
  refine ⟨armed, reached (by decide), ?_⟩
  exact (answers late 1 _ (List.mem_singleton.mpr rfl) (.inl rfl) rfl rfl (by decide)).mpr nofun

/-- The first region is soft expired, and the second one waits for the timeout. -/
def waiting : WindowSource :=
  [change, .fire 1 (.expireDelayedRegion 0 50), .fire 2 .delayedRegionSoftTimeout, change,
    .fire 3 (.expireDelayedRegion 0 50)].foldl (handle · late ·) idle

theorem waiting_reachable : Reachable Opens Happens waiting := by
  have first : Enabled (handle idle late change) (.fire 1 (.expireDelayedRegion 0 50)) :=
    List.mem_singleton.mpr rfl
  have second : Enabled ([change, .fire 1 (.expireDelayedRegion 0 50)].foldl (handle · late ·) idle)
      (.fire 2 .delayedRegionSoftTimeout) := List.mem_singleton.mpr rfl
  have third : Enabled ([change, .fire 1 (.expireDelayedRegion 0 50),
      .fire 2 .delayedRegionSoftTimeout, change].foldl (handle · late ·) idle)
      (.fire 3 (.expireDelayedRegion 0 50)) := List.mem_singleton.mpr rfl
  exact (((((Reachable.start idle_opens).next (a := (late, change)) ⟨trivial, rfl⟩).next
    (a := (late, _)) ⟨first, rfl⟩).next (a := (late, _)) ⟨second, rfl⟩).next
    (a := (late, change)) ⟨trivial, rfl⟩).next (a := (late, _)) ⟨third, rfl⟩

end Catlink.Delayed
