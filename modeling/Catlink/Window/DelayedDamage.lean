import Catlink.Window.DelayedTimers
import Catlink.Window.SendRegions
import Mathlib.Tactic

/-! What is damaged is sent, or waits for a timer, in every run without a cancel. -/

namespace Catlink.Delayed

open Cover MainLoop Runs Util

/-! ### What is claimed -/

/-- The pixel is in the region that waits. -/
def Waits (p : Int × Int) (s : WindowSource) : Prop :=
  ∃ delayed, s.damageDelayed = some delayed ∧ p ∈ covered pixels delayed.regions

/-- The pixel is one of a window's. -/
structure Inside (dimensions : Nat × Nat) (p : Int × Int) : Prop where
  column : 0 ≤ p.1 ∧ p.1 < dimensions.1
  row : 0 ≤ p.2 ∧ p.2 < dimensions.2

/-- `do_send_regions` passes the pixel on, whatever the options and the encodings are. -/
def Passes (dimensions : Nat × Nat) (p : Int × Int) (update : Sent) : Prop :=
  ∀ (source : SendRegions.WindowSource) (iteration : SendRegions.SetOrder)
    (getEncoding : SendRegions.GetEncoding), source.windowDimensions = dimensions →
    getEncoding 0 dimensions.1 dimensions.2 ≠ "" →
    ∃ passed, SendRegions.doSendRegions source iteration getEncoding update.regions none = .ok passed ∧
      p ∈ covered (fun x : SendRegions.Passed => pixels x.region) passed

/-- The window is neither resized nor unmanaged, nothing is cancelled, and there is an encoding for
the refreshes. -/
structure Steady (dimensions : Nat × Nat) (event : Env × Event) : Prop where
  managed : event.1.managed = true
  dimensions : event.1.windowDimensions = dimensions
  sequence : event.1.sequence < maxSequence
  refreshes : event.1.autoRefreshEncodings ≠ []
  keeps : ∀ limit, event.2 ≠ .cancel limit

/-! ### Steps -/

/-- A pixel that waits still does, or it is in what the step sends. -/
structure Keeps (p : Int × Int) (s s' : WindowSource) : Prop where
  sends : ∃ updates, s'.sent = s.sent ++ updates ∧
    (Waits p s → Waits p s' ∨ ∃ update ∈ updates, p ∈ covered pixels update.regions)
  going : s'.isCancelled = false

section Steps

variable {s s' : WindowSource} {env : Env} {p : Int × Int} {dimensions : Nat × Nat}

theorem mem_wholeWindow : p ∈ pixels (wholeWindow env) ↔ Inside env.windowDimensions p := by
  rw [mem_pixels]
  unfold wholeWindow
  dsimp only
  constructor
  · rintro ⟨left, right, top, bottom⟩
    exact ⟨⟨left, by omega⟩, top, by omega⟩
  · rintro ⟨⟨left, right⟩, top, bottom⟩
    exact ⟨left, by omega, top, by omega⟩

theorem Keeps.same (going : s.isCancelled = false) : Keeps p s s :=
  ⟨⟨[], (List.append_nil _).symm, .inl⟩, going⟩

theorem Keeps.trans {s'' : WindowSource} (first : Keeps p s s') (second : Keeps p s' s'') :
    Keeps p s s'' := by
  obtain ⟨updates, sent, kept⟩ := first.sends
  obtain ⟨others, sent', kept'⟩ := second.sends
  refine ⟨⟨updates ++ others, ?_, fun waits => ?_⟩, second.going⟩
  · rw [sent', sent, List.append_assoc]
  · rcases kept waits with still | ⟨update, member, inside⟩
    · rcases kept' still with still | ⟨update, member, inside⟩
      · exact .inl still
      · exact .inr ⟨update, List.mem_append_right _ member, inside⟩
    · exact .inr ⟨update, List.mem_append_left _ member, inside⟩

/-- The regions that wait are the same, and nothing is sent. -/
theorem Keeps.of_eq (waits : Waits p s → Waits p s') (sent : s'.sent = s.sent)
    (cancelled : s'.damageCancelled = s.damageCancelled) (going : s.isCancelled = false) :
    Keeps p s s' := by
  refine ⟨⟨[], ?_, fun waited => .inl (waits waited)⟩, ?_⟩
  · rw [sent, List.append_nil]
  · rw [WindowSource.isCancelled, cancelled]
    exact going

theorem Frame.keeps (frame : Frame s s') (going : s.isCancelled = false) : Keeps p s s' := by
  refine Keeps.of_eq (fun waits => ?_) frame.sent frame.damageCancelled going
  obtain ⟨delayed, known, inside⟩ := waits
  exact ⟨delayed, frame.damageDelayed.trans known, inside⟩

theorem doSendDelayed_keeps (managed : env.managed = true) (going : s.isCancelled = false) :
    Keeps p s (doSendDelayed s env) := by
  have frame := (cancelTimer_frame .timeout s).trans (cancelTimer_frame .soft (cancelTimer .timeout s))
  have stops : Keeps p s _ := frame.keeps going
  refine stops.trans ?_
  have going' := stops.going
  unfold doSendDelayed cancelSoftTimer cancelTimeoutTimer
  dsimp only
  generalize Delayed.cancelTimer .soft (Delayed.cancelTimer .timeout s) = stopped at going'
  split
  · exact Keeps.same going'
  · rename_i delayed known
    obtain ⟨updates, same, which⟩ := sendDelayedRegions_eq { stopped with damageDelayed := none } env delayed
    rw [if_pos ⟨managed, going'⟩] at which
    rw [same]
    refine ⟨⟨updates, rfl, fun waits => .inr ?_⟩, going'⟩
    obtain ⟨delayed', known', inside⟩ := waits
    cases known.symm.trans known'
    rw [which]
    exact ⟨_, List.mem_singleton.mpr rfl, inside⟩

theorem maySendDelayed_keeps (managed : env.managed = true) (going : s.isCancelled = false) :
    Keeps p s (maySendDelayed s env) := by
  have again : Keeps p s (checkAgain s) := (startTimer_frame _ s).keeps going
  have sends : Keeps p s (doSendDelayed s env) := doSendDelayed_keeps managed going
  have softer : Keeps p s { s with softExpired := 0 } := Keeps.of_eq id rfl rfl going
  unfold maySendDelayed
  split
  · exact Keeps.same going
  split
  · exact Keeps.same going
  split
  · exact Keeps.same going
  split
  · split
    · exact again
    · exact sends
  split
  · exact again
  split
  · split
    · exact again
    · exact Keeps.same going
  · exact softer.trans (doSendDelayed_keeps managed softer.going)

theorem delayAgain_keeps (delayed : DelayedRegions) (due : Int) (going : s.isCancelled = false) :
    Keeps p s (delayAgain s env delayed due) := by
  unfold delayAgain
  split
  · exact (startTimer_frame _ s).keeps going
  split
  · have softer : Keeps p s { s with softExpired := s.softExpired + 1 } := Keeps.of_eq id rfl rfl going
    exact softer.trans ((startTimer_frame _ _).keeps softer.going)
  split
  · exact (startTimer_frame _ s).keeps going
  · exact Keeps.same going

theorem expireDelayedRegion_keeps (due : Int) (managed : env.managed = true)
    (going : s.isCancelled = false) : Keeps p s (expireDelayedRegion s env due) := by
  have fired : Keeps p s { s with expireTimer := 0 } := Keeps.of_eq id rfl rfl going
  unfold expireDelayedRegion
  dsimp only
  split
  · exact fired
  · rename_i delayed known
    split
    · exact fired
    · have marked : Keeps p s { s with expireTimer := 0, damageDelayed := some { delayed with expired := true } } := by
        refine Keeps.of_eq (fun waits => ?_) rfl rfl going
        obtain ⟨delayed', known', inside⟩ := waits
        cases known.symm.trans known'
        exact ⟨_, rfl, inside⟩
      have stopped := marked.trans ((cancelTimer_frame .maySend _).keeps marked.going)
      have tried := stopped.trans (maySendDelayed_keeps managed stopped.going)
      unfold cancelMaySendTimer
      split
      · exact tried
      · exact tried.trans (delayAgain_keeps _ due tried.going)

theorem fullQualityRefresh_keeps (options : Options) (going : s.isCancelled = false) :
    Keeps p s (fullQualityRefresh s env options) := by
  obtain ⟨updates, same, -⟩ := fullQualityRefresh_eq s env options
  rw [same]
  exact ⟨⟨updates, rfl, .inl⟩, going⟩

theorem delayedRegionTimeout_keeps (time : Int) (steady : Steady dimensions (env, .fire 0 .acked))
    (inside : p ∈ pixels (wholeWindow env)) (going : s.isCancelled = false) :
    Keeps p s (delayedRegionTimeout s env time) := by
  have fired : Keeps p s { s with timeoutTimer := 0 } := Keeps.of_eq id rfl rfl going
  unfold delayedRegionTimeout
  dsimp only
  split
  · exact fired
  · rename_i delayed known
    split
    · exact fired
    · have cancels : (cancelDamage { s with timeoutTimer := 0 } env 0).sent = s.sent ∧
          (cancelDamage { s with timeoutTimer := 0 } env 0).damageCancelled = env.sequence := by
        have frame := (((cancelTimer_frame .expire { s with timeoutTimer := 0, damageCancelled := env.sequence }).trans
          (cancelTimer_frame .maySend _)).trans (cancelTimer_frame .soft _)).trans
            (cancelTimer_frame .timeout _)
        exact ⟨frame.sent, frame.damageCancelled⟩
      have frame := (cancelTimer_frame .expire (cancelDamage { s with timeoutTimer := 0 } env 0)).trans
        (cancelTimer_frame .soft _)
      have sent := frame.sent.trans cancels.1
      have cancelled := frame.damageCancelled.trans cancels.2
      unfold cancelSoftTimer cancelExpireTimer
      generalize cancelTimer .soft (cancelTimer .expire _) = stopped at sent cancelled ⊢
      have going' : stopped.isCancelled = false := by
        rw [WindowSource.isCancelled, cancelled, decide_eq_false_iff_not, Nat.not_le]
        exact steady.sequence
      obtain ⟨updates, same, -, some⟩ := fullQualityRefresh_eq { stopped with damageDelayed := none } env
        delayed.options
      obtain ⟨update, single, whole⟩ := some steady.refreshes steady.managed going'
      rw [same]
      refine ⟨⟨updates, ?_, fun _ => .inr ⟨update, ?_, ?_⟩⟩, going'⟩
      · dsimp only
        rw [sent]
      · rw [single]
        exact List.mem_singleton.mpr rfl
      · rw [whole, covered_cons]
        exact Finset.mem_union_left _ inside

/-! ### Damage -/

/-- The region of a damage is added to those that wait, or they become the whole window. -/
theorem mem_mergeDamage (delayed : DelayedRegions) (region : Rectangle) (options : Options)
    (inside : p ∈ pixels (wholeWindow env)) (either : p ∈ covered pixels delayed.regions ∨ p ∈ pixels region) :
    p ∈ covered pixels (mergeDamage s env delayed region options).regions := by
  unfold mergeDamage
  dsimp only
  split
  · rw [covered_cons]
    exact Finset.mem_union_left _ inside
  · rw [Refresh.covered_addTo]
    exact Finset.mem_union.mpr either

theorem doDamage_keeps (region : Rectangle) (options : Options) (expireDelay targetDelay : Int)
    (inside : p ∈ pixels (wholeWindow env)) (going : s.isCancelled = false) :
    Keeps p s (doDamage s env region options expireDelay targetDelay) ∧
      (p ∈ pixels region → Waits p (doDamage s env region options expireDelay targetDelay)) := by
  unfold doDamage
  split
  · rename_i delayed known
    dsimp only
    have merged : Keeps p s { s with damageDelayed := some (mergeDamage s env delayed region options) } := by
      refine Keeps.of_eq (fun waits => ?_) rfl rfl going
      obtain ⟨delayed', known', waited⟩ := waits
      cases known.symm.trans known'
      exact ⟨_, rfl, mem_mergeDamage delayed region options inside (.inl waited)⟩
    have added : p ∈ pixels region →
        Waits p { s with damageDelayed := some (mergeDamage s env delayed region options) } :=
      fun damaged => ⟨_, rfl, mem_mergeDamage delayed region options inside (.inr damaged)⟩
    split
    · exact ⟨merged.trans ((startTimer_frame _ _).keeps merged.going), added⟩
    · exact ⟨merged, added⟩
  · rename_i idle
    dsimp only
    have opened (after : DelayedRegions) : Keeps p s { s with damageDelayed := some after } := by
      refine Keeps.of_eq (fun waits => ?_) rfl rfl going
      obtain ⟨delayed, known, -⟩ := waits
      rw [idle] at known
      cases known
    refine ⟨(opened _).trans ((startTimer_frame _ _).keeps (opened _).going), fun damaged => ⟨_, rfl, ?_⟩⟩
    rw [covered_cons]
    exact Finset.mem_union_left _ damaged

theorem damagePacketAcked_keeps (going : s.isCancelled = false) : Keeps p s (damagePacketAcked s) := by
  unfold damagePacketAcked
  split
  · exact Keeps.of_eq id rfl rfl going
  · split
    · exact Keeps.of_eq id rfl rfl going
    · exact Keeps.same going

theorem call_keeps (callback : Callback) {event : Event} (steady : Steady dimensions (env, event))
    (inside : p ∈ pixels (wholeWindow env)) (going : s.isCancelled = false) :
    Keeps p s (call s env callback) := by
  cases callback with
  | expireDelayedRegion due targetDelay => exact expireDelayedRegion_keeps due steady.managed going
  | delayedRegionSoftTimeout =>
      have fired : Keeps p s { s with softTimer := 0 } := Keeps.of_eq id rfl rfl going
      exact fired.trans (doSendDelayed_keeps steady.managed fired.going)
  | delayedRegionTimeout time =>
      exact delayedRegionTimeout_keeps time ⟨steady.managed, steady.dimensions, steady.sequence,
        steady.refreshes, nofun⟩ inside going
  | maySendDelayed =>
      have fired : Keeps p s { s with maySendTimer := 0 } := Keeps.of_eq id rfl rfl going
      exact fired.trans (maySendDelayed_keeps steady.managed fired.going)
  | acked =>
      have stopped : Keeps p s (cancelMaySendTimer s) := (cancelTimer_frame .maySend s).keeps going
      exact stopped.trans (maySendDelayed_keeps steady.managed stopped.going)

theorem handle_keeps (event : Event) (steady : Steady dimensions (env, event))
    (inside : p ∈ pixels (wholeWindow env)) (going : s.isCancelled = false) :
    Keeps p s (handle s env event) := by
  cases event with
  | damage region options expireDelay targetDelay =>
      exact (doDamage_keeps region options expireDelay targetDelay inside going).1
  | acked => exact damagePacketAcked_keeps going
  | refresh options => exact fullQualityRefresh_keeps options going
  | cancel limit => exact absurd rfl (steady.keeps limit)
  | fire source callback =>
      have removed : Keeps p s { s with timers := s.timers.remove source } := Keeps.of_eq id rfl rfl going
      exact removed.trans (call_keeps callback steady inside removed.going)

/-- Since a state, the pixel is sent, or it waits. -/
def Owed (p : Int × Int) (before : List Sent) (s : WindowSource) : Prop :=
  s.isCancelled = false ∧ ∃ updates, s.sent = before ++ updates ∧
    (Waits p s ∨ ∃ update ∈ updates, p ∈ covered pixels update.regions)

theorem Owed.step {before : List Sent} (owed : Owed p before s) (keeps : Keeps p s s') : Owed p before s' := by
  obtain ⟨-, updates, sent, either⟩ := owed
  obtain ⟨others, sent', kept⟩ := keeps.sends
  refine ⟨keeps.going, updates ++ others, ?_, ?_⟩
  · rw [sent', sent, List.append_assoc]
  · rcases either with waits | ⟨update, member, inside⟩
    · rcases kept waits with still | ⟨update, member, inside⟩
      · exact .inl still
      · exact .inr ⟨update, List.mem_append_right _ member, inside⟩
    · exact .inr ⟨update, List.mem_append_left _ member, inside⟩

theorem mem_window {source : SendRegions.WindowSource} (inside : Inside source.windowDimensions p) :
    p ∈ pixels source.window := by
  rw [mem_pixels]
  unfold SendRegions.WindowSource.window
  dsimp only
  obtain ⟨⟨left, right⟩, top, bottom⟩ := inside
  exact ⟨left, by omega, top, by omega⟩

/-- The regions that are chosen have the pixels, or the whole window is sent. -/
theorem doSendRegions_whole {source : SendRegions.WindowSource} (iteration : SendRegions.SetOrder)
    (getEncoding : SendRegions.GetEncoding) {regions : List Rectangle} {excludeRegion : Option Rectangle}
    {area : Finset (Int × Int)} (within : area ⊆ pixels source.window)
    (listed : area ⊆ SendRegions.without (covered pixels regions) excludeRegion) :
    SendRegions.Covers source getEncoding area
      (SendRegions.doSendRegions source iteration getEncoding regions excludeRegion) := by
  have full : SendRegions.Covers source getEncoding area (SendRegions.sendFullWindowUpdate source getEncoding) :=
    SendRegions.sendFullWindowUpdate_covers source getEncoding within
  have passes (chosen : List Rectangle) (kept : area ⊆ covered pixels chosen) :
      area ⊆ covered (fun x : SendRegions.Passed => pixels x.region)
        (SendRegions.queueRegions source getEncoding chosen) :=
    SendRegions.queueRegions_covers source getEncoding chosen area within kept
  have kept := SendRegions.chooseRegions_keeps source iteration regions excludeRegion
  unfold SendRegions.doSendRegions
  cases chosen : SendRegions.chooseRegions source iteration regions excludeRegion with
  | error e =>
      rw [chosen] at kept
      exact kept.elim
  | ok choice =>
      rw [chosen] at kept
      dsimp only [bind, Except.bind]
      split
      · exact full
      · split
        · exact full
        · exact passes _ (listed.trans kept)
      · exact passes _ (listed.trans kept)

theorem doSendRegions_passes {source : SendRegions.WindowSource} (iteration : SendRegions.SetOrder)
    {getEncoding : SendRegions.GetEncoding} {regions : List Rectangle} {excludeRegion : Option Rectangle}
    {area : Finset (Int × Int)}
    (encoded : getEncoding 0 source.windowDimensions.1 source.windowDimensions.2 ≠ "")
    (within : area ⊆ pixels source.window)
    (listed : area ⊆ SendRegions.without (covered pixels regions) excludeRegion) :
    ∃ passed, SendRegions.doSendRegions source iteration getEncoding regions excludeRegion = .ok passed ∧
      area ⊆ covered (fun x : SendRegions.Passed => pixels x.region) passed := by
  have whole := doSendRegions_whole iteration getEncoding within listed
  cases sent : SendRegions.doSendRegions source iteration getEncoding regions excludeRegion with
  | ok passed =>
      rw [sent] at whole
      exact ⟨passed, rfl, whole⟩
  | error e =>
      rw [sent] at whole
      exact absurd whole encoded

theorem passes_of_mem {update : Sent} (inside : Inside dimensions p)
    (listed : p ∈ covered pixels update.regions) : Passes dimensions p update := by
  intro source iteration getEncoding same encoded
  subst same
  obtain ⟨passed, sent, covers⟩ := @doSendRegions_passes _ iteration _ _ none _ encoded
    (Finset.singleton_subset_iff.mpr (mem_window inside)) (Finset.singleton_subset_iff.mpr listed)
  exact ⟨passed, sent, Finset.singleton_subset_iff.mp covers⟩

end Steps

/-- In every run, from a damage on, every pixel of it either waits for a timer that is armed, or it
is in an update that is sent after the damage, and passed on. -/
theorem damage_sent {log earlier later : List (Transition WindowSource (Env × Event))} {s : WindowSource}
    {t : Transition WindowSource (Env × Event)} (history : History Opens Happens log s)
    (here : log = earlier ++ t :: later) {env : Env} {region : Rectangle} {options : Options}
    {expireDelay targetDelay : Int} (damage : t.action = (env, .damage region options expireDelay targetDelay))
    (going : t.before.isCancelled = false) (steady : ∀ u ∈ t :: later, Steady env.windowDimensions u.action)
    {p : Int × Int} (damaged : p ∈ pixels region) (inside : Inside env.windowDimensions p) :
    Waits p s ∧ Armed s ∨ ∃ update ∈ s.sent.drop t.before.sent.length,
      p ∈ covered pixels update.regions ∧ Passes env.windowDimensions p update := by
  obtain ⟨-, -, same⟩ := history.split here
  rw [damage] at same
  obtain ⟨keeps, added⟩ := doDamage_keeps region options expireDelay targetDelay
    (mem_wholeWindow.mpr inside) going
  have starts : Owed p t.before.sent t.after := by
    obtain ⟨updates, sent, -⟩ := keeps.sends
    rw [same]
    exact ⟨keeps.going, updates, sent, .inl (added damaged)⟩
  have ends : Owed p t.before.sent s := by
    refine history.since here starts fun u member happens owed => ?_
    obtain ⟨-, does⟩ := happens
    have still := steady u (List.mem_cons_of_mem _ member)
    have whole : p ∈ pixels (wholeWindow u.action.1) := mem_wholeWindow.mpr (still.dimensions ▸ inside)
    rw [does]
    exact owed.step (handle_keeps u.action.2 still whole owed.1)
  obtain ⟨-, updates, sent, waits | ⟨update, member, listed⟩⟩ := ends
  · left
    have sound := sound_of_reachable history.reachable
    have known : s.damageDelayed ≠ none := by
      obtain ⟨delayed, known, -⟩ := waits
      rw [known]
      exact Option.some_ne_none _
    have numbered := sound.numbered known
    exact ⟨waits, sound.timed.armed numbered⟩
  · right
    refine ⟨update, ?_, listed, passes_of_mem inside listed⟩
    rw [sent, List.drop_left]
    exact member

/-- A window whose client acknowledges in time. -/
def prompt : Env := { late with packetsBacklog := 0, autoRefreshEncodings := ["png"] }

theorem prompt_steady (event : Event) (keeps : ∀ limit, event ≠ .cancel limit) :
    Steady (100, 100) (prompt, event) :=
  ⟨rfl, rfl, Nat.one_lt_two_pow (by decide), nofun, keeps⟩

def damaged : WindowSource := handle idle prompt change

/-- The timer of the damage. -/
def timer : Event := .fire 1 (.expireDelayedRegion 0 50)

def expired : WindowSource := handle damaged prompt timer

def promptLog : List (Transition WindowSource (Env × Event)) :=
  [⟨idle, (prompt, change), damaged⟩, ⟨damaged, (prompt, timer), expired⟩]

theorem promptLog_history : History Opens Happens promptLog expired := by
  have first : History Opens Happens [⟨idle, (prompt, change), damaged⟩] damaged :=
    (History.start idle_opens).next ⟨trivial, rfl⟩
  exact first.next ⟨List.mem_singleton.mpr rfl, rfl⟩

theorem expired_sent : expired.damageDelayed = none ∧
    expired.sent = [⟨0, [⟨0, 0, 10, 10, Refresh.square_valid⟩], "mmap", []⟩] := ⟨rfl, rfl⟩

theorem damage_sent_change : ∃ update ∈ expired.sent, (5, 5) ∈ covered pixels update.regions ∧
    Passes (100, 100) (5, 5) update := by
  have middle : ((5, 5) : Int × Int) ∈ pixels ⟨0, 0, 10, 10, Refresh.square_valid⟩ :=
    mem_pixels.mpr (by decide)
  have whole : Inside prompt.windowDimensions (5, 5) := ⟨by decide, by decide⟩
  have steady : ∀ u ∈ promptLog, Steady prompt.windowDimensions u.action :=
    List.forall_mem_cons.mpr ⟨prompt_steady _ nofun, List.forall_mem_singleton.mpr (prompt_steady _ nofun)⟩
  have sent := @damage_sent promptLog [] _ _ ⟨idle, (prompt, change), damaged⟩ promptLog_history rfl prompt
    ⟨0, 0, 10, 10, Refresh.square_valid⟩ [] 0 50 rfl rfl steady (5, 5) middle whole
  rcases sent with ⟨⟨delayed, known, -⟩, -⟩ | ⟨update, member, listed, passes⟩
  · rw [expired_sent.1] at known
    cases known
  · exact ⟨update, member, listed, passes⟩

end Catlink.Delayed
