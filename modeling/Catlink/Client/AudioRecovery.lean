import Catlink.Client.Audio
import Catlink.Lib.Runs

/-! While the speaker recovers from a device change, one of its two timers is armed. -/

namespace Catlink.Audio

open MainLoop Runs

/-! ### The timers -/

/-- The sources whose number the client keeps. -/
inductive Slot
  | restart
  | stable
  | monitorRetry
  | start
  deriving DecidableEq

def Callback.slot : Callback → Option Slot
  | .restart => some .restart
  | .stable => some .stable
  | .monitorRetry => some .monitorRetry
  | .start _ => some .start
  | .stopMonitor _ => none
  | .drain _ => none

def AudioClient.timer (s : AudioClient) : Slot → Nat
  | .restart => s.audioRestartTimer
  | .stable => s.audioStableTimer
  | .monitorRetry => s.audioMonitorRetryTimer
  | .start => s.audioStartIdle

theorem initial_le_max : deviceRestartInitialMs ≤ deviceRestartMaxMs := by decide

/-- The timers, in the middle of a handler too. -/
structure Timed (s : AudioClient) : Prop where
  slots : s.timers.Slotted Callback.slot s.timer
  starts : ∀ source generation, (source, .start generation) ∈ s.timers.sources →
    generation = s.audioStartGeneration
  delay : s.audioRestartDelay ≤ deviceRestartMaxMs

/-- The recovery, in the middle of a handler too. -/
structure Sound (s : AudioClient) : Prop extends Timed s where
  requested : s.audioDeviceRecovering = true → s.exitCode = none → s.speakerRequested = true
  failures : s.audioDeviceRecovering = true →
    s.audioGenericFailures < deviceRecoveryGenericFailures
  single : s.audioRestartTimer = 0 ∨ s.audioStableTimer = 0
  recovering : s.audioRestartTimer ≠ 0 ∨ s.audioStableTimer ≠ 0 → s.audioDeviceRecovering = true

/-- A restart is due. -/
def Restarting (s : AudioClient) : Prop :=
  s.audioDeviceRecovering = true → s.exitCode = none → s.audioRestartTimer ≠ 0

/-- One of the two timers is armed. -/
def Armed (s : AudioClient) : Prop :=
  s.audioDeviceRecovering = true → s.exitCode = none →
    s.audioRestartTimer ≠ 0 ∨ s.audioStableTimer ≠ 0

theorem Restarting.armed {s : AudioClient} (restarting : Restarting s) : Armed s := by
  intro recovering running
  exact .inl (restarting recovering running)

/-- What no recovery step changes. -/
structure Advances (s s' : AudioClient) : Prop where
  exitCode : s'.exitCode = s.exitCode
  sequence : s.audioSinkSequence ≤ s'.audioSinkSequence

theorem Advances.refl (s : AudioClient) : Advances s s := ⟨rfl, Nat.le_refl _⟩

theorem Advances.trans {s s' s'' : AudioClient} (one : Advances s s') (two : Advances s' s'') :
    Advances s s'' :=
  ⟨two.exitCode.trans one.exitCode, Nat.le_trans one.sequence two.sequence⟩

/-- The recovery is left as it is. -/
structure Steady (s s' : AudioClient) : Prop extends Advances s s' where
  recovering : s'.audioDeviceRecovering = s.audioDeviceRecovering
  failures : s'.audioGenericFailures = s.audioGenericFailures
  restart : s'.audioRestartTimer = s.audioRestartTimer
  stable : s'.audioStableTimer = s.audioStableTimer
  requested : s.speakerRequested = true → s'.speakerRequested = true

theorem Steady.trans {s s' s'' : AudioClient} (one : Steady s s') (two : Steady s' s'') :
    Steady s s'' where
  toAdvances := one.toAdvances.trans two.toAdvances
  recovering := two.recovering.trans one.recovering
  failures := two.failures.trans one.failures
  restart := two.restart.trans one.restart
  stable := two.stable.trans one.stable
  requested asked := two.requested (one.requested asked)

theorem Sound.steady {s s' : AudioClient} (sound : Sound s) (steady : Steady s s')
    (timed : Timed s') : Sound s' := by
  constructor
  · exact timed
  · intro recovering running
    rw [steady.recovering] at recovering
    rw [steady.exitCode] at running
    exact steady.requested (sound.requested recovering running)
  · intro recovering
    rw [steady.recovering] at recovering
    rw [steady.failures]
    exact sound.failures recovering
  · rw [steady.restart, steady.stable]
    exact sound.single
  · rw [steady.restart, steady.stable, steady.recovering]
    exact sound.recovering

theorem Armed.steady {s s' : AudioClient} (armed : Armed s) (steady : Steady s s') : Armed s' := by
  intro recovering running
  rw [steady.recovering] at recovering
  rw [steady.exitCode] at running
  rw [steady.restart, steady.stable]
  exact armed recovering running

/-- Nor are the timers of the recovery. -/
structure Quiet (s s' : AudioClient) : Prop extends Steady s s' where
  timed : Timed s → Timed s'

theorem Quiet.trans {s s' s'' : AudioClient} (one : Quiet s s') (two : Quiet s' s'') : Quiet s s'' where
  toSteady := one.toSteady.trans two.toSteady
  timed before := two.timed (one.timed before)

theorem Sound.quiet {s s' : AudioClient} (sound : Sound s) (quiet : Quiet s s') : Sound s' :=
  sound.steady quiet.toSteady (quiet.timed sound.toTimed)

/-- Neither timer is armed. -/
structure Calm (s : AudioClient) : Prop where
  restart : s.audioRestartTimer = 0
  stable : s.audioStableTimer = 0

/-- Without a recovery, there is nothing but the timers. -/
theorem Timed.idle {s : AudioClient} (timed : Timed s) (calm : Calm s)
    (ended : s.audioDeviceRecovering = false) : Sound s ∧ Restarting s := by
  refine ⟨⟨timed, ?_, ?_, .inl calm.restart, ?_⟩, ?_⟩
  · intro recovering
    rw [ended] at recovering
    cases recovering
  · intro recovering
    rw [ended] at recovering
    cases recovering
  · rintro (restart | stable)
    · exact absurd calm.restart restart
    · exact absurd calm.stable stable
  · intro recovering
    rw [ended] at recovering
    cases recovering

/-- The timers depend on few fields. -/
theorem Timed.of_same {s s' : AudioClient} (timed : Timed s) (timers : s'.timers = s.timers)
    (slots : s'.timer = s.timer) (generation : s'.audioStartGeneration = s.audioStartGeneration)
    (delay : s'.audioRestartDelay = s.audioRestartDelay) : Timed s' := by
  constructor
  · rw [timers, slots]
    exact timed.slots
  · rw [timers, generation]
    exact timed.starts
  · rw [delay]
    exact timed.delay

/-- Other fields than those of the recovery are changed. -/
theorem Quiet.of_same {s s' : AudioClient} (timers : s'.timers = s.timers)
    (slots : s'.timer = s.timer) (generation : s'.audioStartGeneration = s.audioStartGeneration)
    (delay : s'.audioRestartDelay = s.audioRestartDelay)
    (recovering : s'.audioDeviceRecovering = s.audioDeviceRecovering)
    (failures : s'.audioGenericFailures = s.audioGenericFailures)
    (exitCode : s'.exitCode = s.exitCode) (sequence : s.audioSinkSequence ≤ s'.audioSinkSequence)
    (requested : s.speakerRequested = true → s'.speakerRequested = true) : Quiet s s' where
  exitCode := exitCode
  sequence := sequence
  recovering := recovering
  failures := failures
  restart := congrFun slots .restart
  stable := congrFun slots .stable
  requested := requested
  timed timed := timed.of_same timers slots generation delay

theorem Quiet.refl (s : AudioClient) : Quiet s s :=
  .of_same rfl rfl rfl rfl rfl rfl rfl (Nat.le_refl _) id

/-! ### Stopping -/

/-- A source is removed, and its number forgotten. -/
theorem Timed.release {s s' : AudioClient} (timed : Timed s) (slot : Slot)
    (timers : s'.timers = s.timers.remove (s.timer slot))
    (slots : s'.timer = Function.update s.timer slot 0)
    (generation : s'.audioStartGeneration = s.audioStartGeneration)
    (delay : s'.audioRestartDelay = s.audioRestartDelay) : Timed s' := by
  constructor
  · rw [timers, slots]
    exact timed.slots.release slot
  · intro source generation' member
    rw [timers] at member
    rw [generation]
    exact timed.starts source generation' (Sources.mem_remove.mp member).1
  · rw [delay]
    exact timed.delay

/-- A source is added, and its number kept. -/
theorem Timed.arm {s s' : AudioClient} (timed : Timed s) {callback : Callback} (slot : Slot)
    (own : callback.slot = some slot) (free : s.timer slot = 0)
    (timers : s'.timers = s.timers.add callback)
    (slots : s'.timer = Function.update s.timer slot s.timers.next)
    (generation : s'.audioStartGeneration = s.audioStartGeneration)
    (starts : ∀ generation', callback = .start generation' → generation' = s.audioStartGeneration)
    (delay : s'.audioRestartDelay ≤ deviceRestartMaxMs) : Timed s' := by
  constructor
  · rw [timers, slots]
    exact timed.slots.arm own free
  · intro source generation' member
    rw [timers] at member
    rw [generation]
    rcases Sources.mem_add.mp member with old | new
    · exact timed.starts source generation' old
    · cases new
      exact starts generation' rfl
  · exact delay

theorem removeRestart_timed {s : AudioClient} (timed : Timed s) :
    Timed { s.removeTimer s.audioRestartTimer with audioRestartTimer := 0 } := by
  refine timed.release .restart rfl ?_ rfl rfl
  funext slot
  cases slot <;> rfl

theorem removeStable_timed {s : AudioClient} (timed : Timed s) :
    Timed { s.removeTimer s.audioStableTimer with audioStableTimer := 0 } := by
  refine timed.release .stable rfl ?_ rfl rfl
  funext slot
  cases slot <;> rfl

theorem removeMonitorRetry_quiet (s : AudioClient) :
    Quiet s { s.removeTimer s.audioMonitorRetryTimer with audioMonitorRetryTimer := 0 } := by
  refine ⟨⟨⟨rfl, Nat.le_refl _⟩, rfl, rfl, rfl, rfl, id⟩, ?_⟩
  intro timed
  refine timed.release .monitorRetry rfl ?_ rfl rfl
  funext slot
  cases slot <;> rfl

/-- A callback is added whose number is not kept. -/
theorem add_quiet (s : AudioClient) (callback : Callback) (other : callback.slot = none) :
    Quiet s { s with timers := s.timers.add callback } := by
  refine ⟨⟨⟨rfl, Nat.le_refl _⟩, rfl, rfl, rfl, rfl, id⟩, ?_⟩
  intro timed
  refine ⟨timed.slots.add other, ?_, timed.delay⟩
  intro source generation member
  rcases Sources.mem_add.mp member with old | new
  · exact timed.starts source generation old
  · cases new
    cases other

theorem cancelDeviceRestart_timed {s : AudioClient} (timed : Timed s) :
    Timed (cancelDeviceRestart s) ∧ Calm (cancelDeviceRestart s) := by
  unfold cancelDeviceRestart
  by_cases restart : s.audioRestartTimer = 0
  · simp only [if_pos restart]
    by_cases stable : s.audioStableTimer = 0
    · rw [if_pos stable]
      exact ⟨timed, restart, stable⟩
    · rw [if_neg stable]
      exact ⟨removeStable_timed timed, restart, rfl⟩
  · simp only [if_neg restart]
    have removed := removeRestart_timed timed
    by_cases stable : s.audioStableTimer = 0
    · rw [if_pos (by exact stable)]
      exact ⟨removed, rfl, stable⟩
    · rw [if_neg (by exact stable)]
      exact ⟨removeStable_timed removed, rfl, rfl⟩

/-- Only the timers are changed. -/
theorem cancelDeviceRestart_eq (s : AudioClient) :
    cancelDeviceRestart s =
      { s with
        audioRestartTimer := 0
        audioStableTimer := 0
        timers := (cancelDeviceRestart s).timers } := by
  unfold cancelDeviceRestart
  by_cases restart : s.audioRestartTimer = 0
  · simp only [if_pos restart]
    by_cases stable : s.audioStableTimer = 0
    · rw [if_pos stable]
      cases s
      cases restart
      cases stable
      rfl
    · rw [if_neg stable]
      simp only [AudioClient.removeTimer, restart]
  · simp only [if_neg restart]
    by_cases stable : s.audioStableTimer = 0
    · rw [if_pos (by exact stable)]
      simp only [AudioClient.removeTimer, stable]
    · rw [if_neg (by exact stable)]
      rfl

theorem dropSink_eq (s : AudioClient) (tellServer : Bool) :
    dropSink s tellServer =
      { s with
        speakerEnabled := false
        audioSink := none
        audioSinkSequence := (dropSink s tellServer).audioSinkSequence
        sent := (dropSink s tellServer).sent } := by
  unfold dropSink
  cases sink : s.audioSink with
  | none =>
      cases s
      cases sink
      rfl
  | some ss =>
      by_cases tell : tellServer = true ∧ ss.sequence = s.audioSinkSequence
      · simp only [if_pos tell, AudioClient.send]
      · simp only [if_neg tell, AudioClient.send]

theorem dropSink_sequence (s : AudioClient) (tellServer : Bool) :
    s.audioSinkSequence ≤ (dropSink s tellServer).audioSinkSequence := by
  unfold dropSink
  cases sink : s.audioSink with
  | none => exact Nat.le_refl _
  | some ss =>
      by_cases tell : tellServer = true ∧ ss.sequence = s.audioSinkSequence
      · simp only [if_pos tell, AudioClient.send]
        exact Nat.le_succ _
      · simp only [if_neg tell, AudioClient.send]
        exact Nat.le_succ _

theorem dropSink_quiet (s : AudioClient) (tellServer : Bool) : Quiet s (dropSink s tellServer) := by
  have later := dropSink_sequence s tellServer
  rw [dropSink_eq] at later ⊢
  exact .of_same rfl rfl rfl rfl rfl rfl rfl later id

theorem stopForDeviceChange_spec {s : AudioClient} (timed : Timed s) :
    Timed (stopForDeviceChange s) ∧ Calm (stopForDeviceChange s) := by
  obtain ⟨cancelled, calm⟩ := cancelDeviceRestart_timed timed
  have dropped := dropSink_quiet (cancelDeviceRestart s) true
  exact ⟨dropped.timed cancelled, dropped.restart.trans calm.restart, dropped.stable.trans calm.stable⟩

theorem stopForDeviceChange_eq (s : AudioClient) :
    stopForDeviceChange s =
      { s with
        speakerEnabled := false
        audioSink := none
        audioSinkSequence := (stopForDeviceChange s).audioSinkSequence
        sent := (stopForDeviceChange s).sent
        audioRestartTimer := 0
        audioStableTimer := 0
        timers := (stopForDeviceChange s).timers } := by
  unfold stopForDeviceChange
  rw [dropSink_eq]
  simp only
  rw [cancelDeviceRestart_eq]

theorem stopForDeviceChange_advances (s : AudioClient) : Advances s (stopForDeviceChange s) := by
  have cancelled : Advances s (cancelDeviceRestart s) := by
    rw [cancelDeviceRestart_eq]
    exact ⟨rfl, Nat.le_refl _⟩
  exact cancelled.trans (dropSink_quiet _ true).toAdvances

/-! ### The device monitor -/

theorem cancelMonitorRetry_quiet (s : AudioClient) : Quiet s (cancelMonitorRetry s) := by
  have delayed (s : AudioClient) :
      Quiet s { s with audioMonitorRetryDelay := deviceRestartInitialMs } :=
    .of_same rfl rfl rfl rfl rfl rfl rfl (Nat.le_refl _) id
  unfold cancelMonitorRetry
  by_cases unarmed : s.audioMonitorRetryTimer = 0
  · simp only [if_pos unarmed]
    exact delayed s
  · simp only [if_neg unarmed]
    exact (removeMonitorRetry_quiet s).trans (delayed _)

theorem armMonitorRetry_timed {s : AudioClient} (timed : Timed s)
    (free : s.audioMonitorRetryTimer = 0) :
    Timed { s with
      audioMonitorRetryDelay := min (s.audioMonitorRetryDelay * 2) deviceRestartMaxMs
      audioMonitorRetryTimer := s.timers.next
      timers := s.timers.add .monitorRetry } := by
  refine timed.arm .monitorRetry rfl free rfl ?_ rfl nofun timed.delay
  funext slot
  cases slot <;> rfl

theorem runMonitor_quiet (o : Outside) (s : AudioClient) (monitor : Nat) :
    Quiet s (runMonitor o s monitor) := by
  have retry (s : AudioClient) : Quiet s
      (if s.audioMonitorRetryTimer ≠ 0 then s
      else
        { s with
          audioMonitorRetryDelay := min (s.audioMonitorRetryDelay * 2) deviceRestartMaxMs
          audioMonitorRetryTimer := s.timers.next
          timers := s.timers.add .monitorRetry }) := by
    by_cases unarmed : s.audioMonitorRetryTimer = 0
    · rw [if_neg (by rw [not_not]; exact unarmed)]
      refine ⟨⟨⟨rfl, Nat.le_refl _⟩, rfl, rfl, rfl, rfl, id⟩, ?_⟩
      intro timed
      exact armMonitorRetry_timed timed unarmed
    · rw [if_pos unarmed]
      exact .refl s
  unfold runMonitor
  cases o.monitorStart with
  | started =>
      refine Quiet.trans ?_ (cancelMonitorRetry_quiet _)
      exact .of_same rfl rfl rfl rfl rfl rfl rfl (Nat.le_refl _) id
  | failed => exact retry s
  | stuck =>
      refine Quiet.trans ?_ (retry _)
      exact .of_same rfl rfl rfl rfl rfl rfl rfl (Nat.le_refl _) id

theorem startDeviceMonitor_quiet (pf : Platform) (o : Outside) (s : AudioClient) :
    Quiet s (startDeviceMonitor pf o s) := by
  unfold startDeviceMonitor
  split
  · split
    · split
      · exact .refl s
      · exact runMonitor_quiet o s _
    · refine Quiet.trans ?_ (runMonitor_quiet o _ _)
      exact .of_same rfl rfl rfl rfl rfl rfl rfl (Nat.le_refl _) id
  · exact .refl s

theorem stopDeviceMonitorOnMain_quiet (o : Outside) (s : AudioClient) (monitor : Nat) :
    Quiet s (stopDeviceMonitorOnMain o s monitor) := by
  unfold stopDeviceMonitorOnMain
  split
  · exact .refl s
  · split
    · exact .of_same rfl rfl rfl rfl rfl rfl rfl (Nat.le_refl _) id
    · exact .of_same rfl rfl rfl rfl rfl rfl rfl (Nat.le_refl _) id

theorem stopDeviceMonitor_quiet (pf : Platform) (o : Outside) (main : Bool) (s : AudioClient) :
    Quiet s (stopDeviceMonitor pf o main s) := by
  have cancelled := cancelMonitorRetry_quiet s
  unfold stopDeviceMonitor
  generalize cancelMonitorRetry s = s' at cancelled ⊢
  refine cancelled.trans ?_
  simp only
  split
  · exact .refl s'
  · split
    · exact add_quiet s' _ rfl
    · exact stopDeviceMonitorOnMain_quiet o s' _

/-! ### Stopping for good -/

theorem removeStart_quiet (s : AudioClient) :
    Quiet s { s.removeTimer s.audioStartIdle with audioStartIdle := 0 } := by
  refine ⟨⟨⟨rfl, Nat.le_refl _⟩, rfl, rfl, rfl, rfl, id⟩, ?_⟩
  intro timed
  refine timed.release .start rfl ?_ rfl rfl
  funext slot
  cases slot <;> rfl

theorem cancelAudioStart_timed {s : AudioClient} (timed : Timed s) : Timed (cancelAudioStart s) := by
  have slots : (cancelAudioStart s).timers.Slotted Callback.slot (cancelAudioStart s).timer := by
    unfold cancelAudioStart
    by_cases idle : 0 < s.audioStartIdle
    · simp only [if_pos idle]
      exact ((removeStart_quiet s).timed timed).slots
    · simp only [if_neg idle]
      have free : s.audioStartIdle = 0 := Nat.eq_zero_of_not_pos idle
      have same : AudioClient.timer { s with audioStartIdle := 0 } = s.timer := by
        funext slot
        cases slot <;> first | rfl | exact free.symm
      exact same ▸ timed.slots
  refine ⟨slots, ?_, timed.delay⟩
  intro source generation member
  exact absurd member (slots.absent (i := .start) rfl rfl source)

/-- Nothing is left of the recovery. -/
structure Stopped (s : AudioClient) : Prop extends Calm s where
  ended : s.audioDeviceRecovering = false
  unrequested : s.speakerRequested = false

theorem Stopped.sound {s : AudioClient} (stopped : Stopped s) (timed : Timed s) :
    Sound s ∧ Restarting s := timed.idle stopped.toCalm stopped.ended

/-- The flags of the recovery, and its delay. -/
def clearRecovery (s : AudioClient) : AudioClient :=
  { s with
    audioDeviceRecovering := false
    audioGenericFailures := 0
    audioRestartDelay := deviceRestartInitialMs }

theorem clearRecovery_timed {s : AudioClient} (timed : Timed s) : Timed (clearRecovery s) :=
  ⟨timed.slots, timed.starts, initial_le_max⟩

theorem endRecovery_eq (pf : Platform) (o : Outside) (main preserveStartPackets : Bool)
    (s : AudioClient) :
    endRecovery pf o main preserveStartPackets s =
      stopDeviceMonitor pf o main (cancelDeviceRestart (clearRecovery
        (if preserveStartPackets = true then { s with speakerRequested := false }
          else cancelAudioStart s))) := rfl

theorem stopDeviceMonitor_requested (pf : Platform) (o : Outside) (main : Bool) (s : AudioClient) :
    (stopDeviceMonitor pf o main s).speakerRequested = s.speakerRequested := by
  have cancelled : (cancelMonitorRetry s).speakerRequested = s.speakerRequested := by
    unfold cancelMonitorRetry
    split <;> rfl
  unfold stopDeviceMonitor stopDeviceMonitorOnMain
  rw [← cancelled]
  generalize cancelMonitorRetry s = s'
  simp only
  split
  · rfl
  · split
    · rfl
    · split
      · rfl
      · split <;> rfl

theorem endRecovery_spec (pf : Platform) (o : Outside) (main preserveStartPackets : Bool)
    {s : AudioClient} (timed : Timed s) :
    Timed (endRecovery pf o main preserveStartPackets s) ∧
      Stopped (endRecovery pf o main preserveStartPackets s) := by
  rw [endRecovery_eq]
  have unrequested : Timed (if preserveStartPackets = true then { s with speakerRequested := false }
      else cancelAudioStart s) ∧
      (if preserveStartPackets = true then { s with speakerRequested := false }
        else cancelAudioStart s).speakerRequested = false := by
    split
    · exact ⟨timed.of_same rfl rfl rfl rfl, rfl⟩
    · exact ⟨cancelAudioStart_timed timed, rfl⟩
  generalize (if preserveStartPackets = true then { s with speakerRequested := false }
    else cancelAudioStart s) = s' at unrequested ⊢
  obtain ⟨cancelled, calm⟩ := cancelDeviceRestart_timed (clearRecovery_timed unrequested.1)
  have quiet := stopDeviceMonitor_quiet pf o main (cancelDeviceRestart (clearRecovery s'))
  refine ⟨quiet.timed cancelled, ⟨?_, ?_⟩, ?_, ?_⟩
  · exact quiet.restart.trans calm.restart
  · exact quiet.stable.trans calm.stable
  · rw [quiet.recovering, cancelDeviceRestart_eq]
    rfl
  · rw [stopDeviceMonitor_requested, cancelDeviceRestart_eq]
    exact unrequested.2

theorem endRecovery_advances (pf : Platform) (o : Outside) (main preserveStartPackets : Bool)
    (s : AudioClient) : Advances s (endRecovery pf o main preserveStartPackets s) := by
  rw [endRecovery_eq]
  refine Advances.trans ?_ (stopDeviceMonitor_quiet _ _ _ _).toAdvances
  rw [cancelDeviceRestart_eq]
  split <;> exact ⟨rfl, Nat.le_refl _⟩

theorem stopReceivingAudio_spec (pf : Platform) (o : Outside)
    (main tellServer preserveStartPackets : Bool) {s : AudioClient} (timed : Timed s) :
    Timed (stopReceivingAudio pf o main tellServer preserveStartPackets s) ∧
      Stopped (stopReceivingAudio pf o main tellServer preserveStartPackets s) := by
  obtain ⟨ended, stopped⟩ := endRecovery_spec pf o main preserveStartPackets timed
  have quiet := dropSink_quiet (endRecovery pf o main preserveStartPackets s) tellServer
  refine ⟨quiet.timed ended, ⟨?_, ?_⟩, ?_, ?_⟩
  · exact quiet.restart.trans stopped.restart
  · exact quiet.stable.trans stopped.stable
  · exact quiet.recovering.trans stopped.ended
  · rw [stopReceivingAudio, dropSink_eq]
    exact stopped.unrequested

theorem stopReceivingAudio_advances (pf : Platform) (o : Outside)
    (main tellServer preserveStartPackets : Bool) (s : AudioClient) :
    Advances s (stopReceivingAudio pf o main tellServer preserveStartPackets s) :=
  (endRecovery_advances pf o main preserveStartPackets s).trans (dropSink_quiet _ _).toAdvances

theorem stopReceivingAudio_sink (pf : Platform) (o : Outside)
    (main tellServer preserveStartPackets : Bool) (s : AudioClient) :
    (stopReceivingAudio pf o main tellServer preserveStartPackets s).audioSink = none := by
  rw [stopReceivingAudio, dropSink_eq]

/-! ### Restarts -/

theorem armRestart_timed {s : AudioClient} (timed : Timed s) (free : s.audioRestartTimer = 0) :
    Timed { s with
      audioRestartDelay := min (s.audioRestartDelay * 2) deviceRestartMaxMs
      audioRestartTimer := s.timers.next
      timers := s.timers.add .restart } := by
  refine timed.arm .restart rfl free rfl ?_ rfl nofun (Nat.min_le_right _ _)
  funext slot
  cases slot <;> rfl

theorem scheduleDeviceRestart_spec {s : AudioClient} (timed : Timed s)
    (recovering : s.audioDeviceRecovering = true) (requested : s.speakerRequested = true)
    (failures : s.audioGenericFailures < deviceRecoveryGenericFailures) :
    Sound (scheduleDeviceRestart s) ∧ Restarting (scheduleDeviceRestart s) := by
  obtain ⟨cancelled, calm⟩ := cancelDeviceRestart_timed timed
  have same := cancelDeviceRestart_eq s
  unfold scheduleDeviceRestart
  generalize cancelDeviceRestart s = s' at cancelled calm same ⊢
  have recovering' : s'.audioDeviceRecovering = true := by rw [same]; exact recovering
  have requested' : s'.speakerRequested = true := by rw [same]; exact requested
  have failures' : s'.audioGenericFailures < deviceRecoveryGenericFailures := by
    rw [same]
    exact failures
  simp only
  split
  · next refused =>
      refine ⟨⟨cancelled, fun _ _ => requested', fun _ => failures', .inl calm.restart, ?_⟩, ?_⟩
      · exact fun _ => recovering'
      · intro _ running
        rcases refused with unrequested | exiting
        · rw [requested'] at unrequested
          cases unrequested
        · exact absurd running exiting
  · refine ⟨⟨?_, fun _ _ => requested', fun _ => failures', .inr calm.stable, ?_⟩, ?_⟩
    · exact armRestart_timed cancelled calm.restart
    · exact fun _ => recovering'
    · intro _ _
      exact Nat.ne_of_gt cancelled.slots.numbered

theorem scheduleDeviceRestart_advances (s : AudioClient) : Advances s (scheduleDeviceRestart s) := by
  unfold scheduleDeviceRestart
  rw [cancelDeviceRestart_eq]
  simp only
  split <;> exact ⟨rfl, Nat.le_refl _⟩

theorem scheduleDeviceRestart_sink (s : AudioClient) :
    (scheduleDeviceRestart s).audioSink = s.audioSink := by
  unfold scheduleDeviceRestart
  rw [cancelDeviceRestart_eq]
  simp only
  split <;> rfl

theorem retryRecoveryOrNotify_spec {s : AudioClient} (deviceError : Bool) (timed : Timed s)
    (recovering : s.audioDeviceRecovering = true) (requested : s.speakerRequested = true) :
    Sound (retryRecoveryOrNotify s deviceError) ∧ Restarting (retryRecoveryOrNotify s deviceError) := by
  unfold retryRecoveryOrNotify
  split
  · apply scheduleDeviceRestart_spec
    · exact timed.of_same rfl rfl rfl rfl
    · exact recovering
    · exact requested
    · change 0 < deviceRecoveryGenericFailures
      decide
  · simp only
    split
    · obtain ⟨cancelled, calm⟩ := cancelDeviceRestart_timed
        (s := { s with audioGenericFailures := s.audioGenericFailures + 1,
                       audioDeviceRecovering := false }) (timed.of_same rfl rfl rfl rfl)
      apply cancelled.idle calm
      rw [cancelDeviceRestart_eq]
    · next few =>
        apply scheduleDeviceRestart_spec
        · exact timed.of_same rfl rfl rfl rfl
        · exact recovering
        · exact requested
        · exact Nat.lt_of_not_le few

theorem retryRecoveryOrNotify_advances (s : AudioClient) (deviceError : Bool) :
    Advances s (retryRecoveryOrNotify s deviceError) := by
  unfold retryRecoveryOrNotify
  split
  · refine Advances.trans ?_ (scheduleDeviceRestart_advances _)
    exact ⟨rfl, Nat.le_refl _⟩
  · simp only
    split
    · rw [cancelDeviceRestart_eq]
      exact ⟨rfl, Nat.le_refl _⟩
    · refine Advances.trans ?_ (scheduleDeviceRestart_advances _)
      exact ⟨rfl, Nat.le_refl _⟩

theorem retryRecoveryOrNotify_sink (s : AudioClient) (deviceError : Bool) :
    (retryRecoveryOrNotify s deviceError).audioSink = s.audioSink := by
  unfold retryRecoveryOrNotify
  split
  · exact scheduleDeviceRestart_sink _
  · simp only
    split
    · rw [cancelDeviceRestart_eq]
    · exact scheduleDeviceRestart_sink _

/-! ### The sink -/

/-- Either a restart is due and there is no sink, or the recovery is as before. -/
structure Settled (s s' : AudioClient) : Prop extends Advances s s' where
  sound : Sound s'
  settled : (Restarting s' ∧ s'.audioSink = none) ∨ Steady s s'

theorem Settled.armed {s s' : AudioClient} (settled : Settled s s') (armed : Armed s) : Armed s' := by
  rcases settled.settled with ⟨restarting, _⟩ | steady
  · exact restarting.armed
  · exact armed.steady steady

theorem Settled.of_quiet {s s' : AudioClient} (sound : Sound s) (quiet : Quiet s s') : Settled s s' :=
  ⟨quiet.toAdvances, sound.quiet quiet, .inr quiet.toSteady⟩

/-- What was quiet before does not matter. -/
theorem Quiet.settled {s s' s'' : AudioClient} (quiet : Quiet s s') (settled : Settled s' s'') :
    Settled s s'' := by
  refine ⟨quiet.toAdvances.trans settled.toAdvances, settled.sound, ?_⟩
  rcases settled.settled with restarting | steady
  · exact .inl restarting
  · exact .inr (quiet.toSteady.trans steady)

theorem settled_of_stopped (pf : Platform) (o : Outside) (main tellServer preserveStartPackets : Bool)
    {s : AudioClient} (timed : Timed s) :
    Settled s (stopReceivingAudio pf o main tellServer preserveStartPackets s) := by
  obtain ⟨timed', stopped⟩ := stopReceivingAudio_spec pf o main tellServer preserveStartPackets timed
  obtain ⟨sound, restarting⟩ := stopped.sound timed'
  refine ⟨stopReceivingAudio_advances _ _ _ _ _ _, sound, .inl ⟨restarting, ?_⟩⟩
  exact stopReceivingAudio_sink _ _ _ _ _ _

/-- The sink is dropped, and its restart scheduled. -/
theorem settled_of_retry {s s' : AudioClient} (deviceError : Bool) (timed : Timed s')
    (advances : Advances s s') (recovering : s'.audioDeviceRecovering = true)
    (requested : s'.speakerRequested = true) :
    Settled s (retryRecoveryOrNotify (stopForDeviceChange s') deviceError) := by
  obtain ⟨stopped, _⟩ := stopForDeviceChange_spec timed
  have same := stopForDeviceChange_eq s'
  have later := stopForDeviceChange_advances s'
  generalize stopForDeviceChange s' = s'' at stopped same later ⊢
  have recovering' : s''.audioDeviceRecovering = true := by rw [same]; exact recovering
  have requested' : s''.speakerRequested = true := by rw [same]; exact requested
  obtain ⟨sound, restarting⟩ := retryRecoveryOrNotify_spec _ stopped recovering' requested'
  refine ⟨(advances.trans later).trans (retryRecoveryOrNotify_advances _ _), sound, .inl ⟨restarting, ?_⟩⟩
  rw [retryRecoveryOrNotify_sink, same]

theorem audioDeviceChanged_settled {s : AudioClient} (sound : Sound s) :
    Settled s (audioDeviceChanged s) := by
  unfold audioDeviceChanged
  split
  · exact .of_quiet sound (.refl s)
  · next usable =>
      rw [not_or] at usable
      have requested : s.speakerRequested = true := by
        cases asked : s.speakerRequested with
        | false => exact absurd asked usable.1
        | true => rfl
      have changed : Timed { s with
          audioDeviceRecovering := true
          audioGenericFailures := 0
          audioRestartDelay := deviceRestartInitialMs } :=
        ⟨sound.slots, sound.starts, initial_le_max⟩
      obtain ⟨stopped, _⟩ := stopForDeviceChange_spec changed
      have same := stopForDeviceChange_eq { s with
        audioDeviceRecovering := true
        audioGenericFailures := 0
        audioRestartDelay := deviceRestartInitialMs }
      have later := stopForDeviceChange_advances { s with
        audioDeviceRecovering := true
        audioGenericFailures := 0
        audioRestartDelay := deviceRestartInitialMs }
      simp only
      generalize stopForDeviceChange _ = s' at stopped same later ⊢
      have scheduled := scheduleDeviceRestart_spec stopped (by rw [same])
        (by rw [same]; exact requested) (by rw [same]; exact Nat.succ_pos 2)
      refine ⟨Advances.trans ?_ (scheduleDeviceRestart_advances s'), scheduled.1,
        .inl ⟨scheduled.2, ?_⟩⟩
      · exact ⟨later.exitCode, later.sequence⟩
      · rw [scheduleDeviceRestart_sink, same]

theorem audioSinkError_settled (pf : Platform) (o : Outside) (sink : Option Nat) (error : String)
    {s : AudioClient} (sound : Sound s) : Settled s (audioSinkError pf o sink error s) := by
  unfold audioSinkError
  split
  · exact .of_quiet sound (.refl s)
  · split
    · next recover =>
        refine settled_of_retry _ ?_ ?_ rfl recover.1
        · exact sound.toTimed.of_same rfl rfl rfl rfl
        · exact ⟨rfl, Nat.le_refl _⟩
    · exact settled_of_stopped pf o true true false sound.toTimed

theorem audioSinkGone_settled (pf : Platform) (o : Outside) (sink : Option Nat)
    {s : AudioClient} (sound : Sound s) : Settled s (audioSinkGone pf o sink s) := by
  unfold audioSinkGone
  split
  · exact .of_quiet sound (.refl s)
  · split
    · next recover => exact settled_of_retry _ sound.toTimed (.refl s) recover.1 recover.2
    · exact settled_of_stopped pf o true true false sound.toTimed

theorem withSink_quiet (s : AudioClient) (codec : String) : Quiet s (withSink s codec) :=
  .of_same rfl rfl rfl rfl rfl rfl rfl (Nat.le_refl _) id

theorem startAudioSink_settled (pf : Platform) (o : Outside) {s : AudioClient} (sound : Sound s)
    (codec : String) : Settled s (startAudioSink pf o s codec).1 := by
  unfold startAudioSink
  split
  · exact .of_quiet sound (.refl s)
  · cases o.sinkStart with
    | nothing => exact .of_quiet sound (.refl s)
    | failed error => exact audioSinkError_settled pf o none error sound
    | broken error =>
        have quiet := withSink_quiet s codec
        exact quiet.settled (audioSinkError_settled pf o _ error (sound.quiet quiet))
    | started => exact .of_quiet sound (withSink_quiet s codec)

/-! ### Starting -/

theorem requested_quiet (s : AudioClient) : Quiet s { s with speakerRequested := true } :=
  .of_same rfl rfl rfl rfl rfl rfl rfl (Nat.le_refl _) fun _ => rfl

theorem tryReceivingAudio_settled (pf : Platform) (o : Outside) {s : AudioClient} (sound : Sound s) :
    Settled s (tryReceivingAudio pf o s).1 := by
  unfold tryReceivingAudio
  by_cases present : s.audioSink.isSome = true
  · rw [if_pos present]
    exact .of_quiet sound (.refl s)
  · rw [if_neg present]
    by_cases unsupported : s.serverAudioSend = false
    · rw [if_pos unsupported]
      exact .of_quiet sound (.refl s)
    · rw [if_neg unsupported]
      by_cases loop : o.loopCheck = false
      · rw [if_pos loop]
        exact .of_quiet sound (.refl s)
      · rw [if_neg loop]
        cases getMatchingCodecs s.speakerCodecs s.serverAudioEncoders with
        | nil => exact .of_quiet sound (.refl s)
        | cons codec _ =>
            have monitored := (requested_quiet s).trans
              (startDeviceMonitor_quiet pf o { s with speakerRequested := true })
            simp only
            generalize startDeviceMonitor pf o { s with speakerRequested := true } = s' at monitored ⊢
            have ready : Quiet s { s' with onSinkReady := some codec } :=
              monitored.trans (.of_same rfl rfl rfl rfl rfl rfl rfl (Nat.le_refl _) id)
            exact ready.settled (startAudioSink_settled pf o (sound.quiet ready) codec)

/-- Something failed, and no recovery deals with it. -/
theorem Settled.stop {s s' : AudioClient} (settled : Settled s s') (pf : Platform) (o : Outside)
    (main tellServer preserveStartPackets : Bool) :
    Settled s (stopReceivingAudio pf o main tellServer preserveStartPackets s') := by
  have stopped := settled_of_stopped pf o main tellServer preserveStartPackets settled.sound.toTimed
  refine ⟨settled.toAdvances.trans stopped.toAdvances, stopped.sound, ?_⟩
  obtain ⟨timed', stopped⟩ := stopReceivingAudio_spec pf o main tellServer preserveStartPackets
    settled.sound.toTimed
  refine .inl ⟨(stopped.sound timed').2, ?_⟩
  exact stopReceivingAudio_sink _ _ _ _ _ _

theorem Settled.enabled {s s' : AudioClient} (settled : Settled s s') (speakerEnabled : Bool) :
    Settled s { s' with speakerEnabled } := by
  have quiet : Quiet s' { s' with speakerEnabled } :=
    .of_same rfl rfl rfl rfl rfl rfl rfl (Nat.le_refl _) id
  refine ⟨settled.toAdvances.trans quiet.toAdvances, settled.sound.quiet quiet, ?_⟩
  rcases settled.settled with restarting | steady
  · exact .inl restarting
  · exact .inr (steady.trans quiet.toSteady)

theorem startReceivingAudio_settled (pf : Platform) (o : Outside) {s : AudioClient}
    (sound : Sound s) : Settled s (startReceivingAudio pf o s) := by
  have tried := tryReceivingAudio_settled pf o sound
  unfold startReceivingAudio
  simp only
  split
  · exact (tried.stop pf o true true false).enabled _
  · exact tried.enabled _

/-! ### Between events -/

/-- The client between events. -/
structure Recovers (s : AudioClient) : Prop extends Sound s where
  armed : Armed s

/-- What an event may do. -/
structure Handled (s s' : AudioClient) : Prop where
  sequence : s.audioSinkSequence ≤ s'.audioSinkSequence
  recovers : Recovers s → Recovers s'

theorem Handled.trans {s s' s'' : AudioClient} (one : Handled s s') (two : Handled s' s'') :
    Handled s s'' :=
  ⟨Nat.le_trans one.sequence two.sequence, fun before => two.recovers (one.recovers before)⟩

theorem Settled.handled {s s' : AudioClient} (settled : Settled s s') : Handled s s' :=
  ⟨settled.sequence, fun before => ⟨settled.sound, settled.armed before.armed⟩⟩

theorem Quiet.handled {s s' : AudioClient} (quiet : Quiet s s') : Handled s s' :=
  ⟨quiet.sequence, fun before => ⟨before.toSound.quiet quiet, before.armed.steady quiet.toSteady⟩⟩

theorem armStart_timed {s : AudioClient} (timed : Timed s) (free : s.audioStartIdle = 0) :
    Timed { s with
      audioStartIdle := s.timers.next
      timers := s.timers.add (.start s.audioStartGeneration) } := by
  refine timed.arm .start rfl free rfl ?_ rfl ?_ timed.delay
  · funext slot
    cases slot <;> rfl
  · intro generation same
    cases same
    rfl

theorem startReceivingAudioLater_quiet (s : AudioClient) : Quiet s (startReceivingAudioLater s) := by
  refine (requested_quiet s).trans ?_
  unfold startReceivingAudioLater
  simp only
  split
  · exact .refl _
  · next unarmed =>
      rw [not_not] at unarmed
      refine ⟨⟨⟨rfl, Nat.le_refl _⟩, rfl, rfl, rfl, rfl, id⟩, ?_⟩
      intro timed
      exact armStart_timed timed unarmed

theorem parseServerCapabilities_settled (pf : Platform) (o : Outside) (main : Bool) {s : AudioClient}
    (sound : Sound s) (serverAudioSend : Bool) (serverAudioEncoders : List String)
    (serverAvSync : Bool) :
    Settled s
      (parseServerCapabilities pf o main s serverAudioSend serverAudioEncoders serverAvSync) := by
  have parsed : Quiet s { s with serverAudioSend, serverAudioEncoders, serverAvSync } :=
    .of_same rfl rfl rfl rfl rfl rfl rfl (Nat.le_refl _) id
  unfold parseServerCapabilities
  simp only
  split
  · split
    · exact .of_quiet sound (parsed.trans (startReceivingAudioLater_quiet _))
    · exact parsed.settled (startReceivingAudio_settled pf o (sound.quiet parsed))
  · exact .of_quiet sound parsed

theorem suspend_settled (pf : Platform) (o : Outside) {s : AudioClient} (sound : Sound s) :
    Settled s (suspend pf o s) := by
  have noted : Quiet s { s with audioResumeRestart := s.speakerRequested || s.audioSink.isSome } :=
    .of_same rfl rfl rfl rfl rfl rfl rfl (Nat.le_refl _) id
  unfold suspend
  simp only
  split
  · exact noted.settled (settled_of_stopped pf o true true false (noted.timed sound.toTimed))
  · exact .of_quiet sound noted

theorem resume_settled (pf : Platform) (o : Outside) {s : AudioClient} (sound : Sound s) :
    Settled s (resume pf o s) := by
  have noted : Quiet s { s with audioResumeRestart := false } :=
    .of_same rfl rfl rfl rfl rfl rfl rfl (Nat.le_refl _) id
  unfold resume
  split
  · exact noted.settled (startReceivingAudio_settled pf o (sound.quiet noted))
  · exact .of_quiet sound (.refl s)

theorem audioSinkStateChanged_quiet (s : AudioClient) (sink : Option Nat) (state : String) :
    Quiet s (audioSinkStateChanged s sink state) := by
  unfold audioSinkStateChanged
  split
  · exact .refl s
  · split
    · split
      · exact .of_same rfl rfl rfl rfl rfl rfl rfl (Nat.le_refl _) id
      · exact .refl s
    · exact .refl s

/-! ### Packets -/

theorem startSpeakerFromServer_settled (pf : Platform) (o : Outside) (main : Bool) {s : AudioClient}
    (sound : Sound s) (codec : String) (generation : Option Nat) :
    Settled s (startSpeakerFromServer pf o main s codec generation).1 := by
  unfold startSpeakerFromServer
  split
  · exact .of_quiet sound (.refl s)
  · split
    · exact settled_of_stopped pf o main true false sound.toTimed
    · have monitored : Quiet s { startDeviceMonitor pf o
          { s with speakerEnabled := true, speakerRequested := true } with onSinkReady := none } := by
        refine Quiet.trans (.trans ?_ (startDeviceMonitor_quiet pf o
          { s with speakerEnabled := true, speakerRequested := true })) ?_
        · exact .of_same rfl rfl rfl rfl rfl rfl rfl (Nat.le_refl _) fun _ => rfl
        · exact .of_same rfl rfl rfl rfl rfl rfl rfl (Nat.le_refl _) id
      have started := monitored.settled
        (startAudioSink_settled pf o (sound.quiet monitored) codec)
      simp only
      split
      · exact started.stop pf o main true false
      · exact started

theorem playAudioData_handled (pf : Platform) (o : Outside) (main : Bool) {s : AudioClient}
    (sound : Sound s) (ss : Sink) (codec : String) (data : Bytes) (metadata : Metadata)
    (packetMetadata : List Bytes) (startGeneration : Option Nat) :
    Handled s (playAudioData pf o main s ss codec data metadata packetMetadata startGeneration) := by
  unfold playAudioData
  split
  · exact (settled_of_stopped pf o main false _ sound.toTimed).handled
  · split
    · exact (settled_of_stopped pf o main true false sound.toTimed).handled
    · split
      · exact (settled_of_stopped pf o main true false sound.toTimed).handled
      · have heard : Quiet s
            (if (data ≠ [] ∨ packetMetadata ≠ []) ∧ s.audioDeviceRecovering = true then
              { s with audioRecoveryData := true }
            else s) := by
          split
          · exact .of_same rfl rfl rfl rfl rfl rfl rfl (Nat.le_refl _) id
          · exact .refl s
        refine heard.handled.trans ?_
        generalize (if (data ≠ [] ∨ packetMetadata ≠ []) ∧ s.audioDeviceRecovering = true then
          { s with audioRecoveryData := true } else s) = s'
        apply Quiet.handled
        simp only
        split
        · exact .of_same rfl rfl rfl rfl rfl rfl rfl (Nat.le_refl _) id
        · exact .refl s'

theorem processAudioData_handled (pf : Platform) (o : Outside) (main : Bool) {s : AudioClient}
    (sound : Sound s) (p : AudioPacket) (startGeneration : Option Nat) :
    Handled s (processAudioData pf o main s p startGeneration).1 := by
  unfold processAudioData
  split
  · next codec data metadata packetMetadata _ _ _ _ =>
      have counted : Quiet s { s with audioInBytecount := s.audioInBytecount + data.length } :=
        .of_same rfl rfl rfl rfl rfl rfl rfl (Nat.le_refl _) id
      refine counted.handled.trans ?_
      have sound := sound.quiet counted
      generalize { s with audioInBytecount := s.audioInBytecount + data.length } = s at sound ⊢
      simp only
      split
      · exact (Quiet.refl s).handled
      · have started : Settled s
            (if s.speakerEnabled = true then (s, Outcome.started)
            else if metadata.startOfStream = true then
              startSpeakerFromServer pf o main s metadata.codec startGeneration
            else (s, Outcome.refused)).1 := by
          split
          · exact .of_quiet sound (.refl s)
          · split
            · exact startSpeakerFromServer_settled pf o main sound _ _
            · exact .of_quiet sound (.refl s)
        generalize (if s.speakerEnabled = true then (s, Outcome.started)
            else if metadata.startOfStream = true then
              startSpeakerFromServer pf o main s metadata.codec startGeneration
            else (s, Outcome.refused)) = result at started ⊢
        split
        · split
          · exact started.handled
          · exact started.handled.trans (playAudioData_handled pf o main started.sound _ _ _ _ _ _)
        · exact started.handled
  · exact (Quiet.refl s).handled

/-! ### Sources of the main loop -/

theorem startReceivingAudioOnMain_settled (pf : Platform) (o : Outside) {s : AudioClient}
    {generation : Nat} (current : generation = s.audioStartGeneration)
    (sound : Sound { s with audioStartIdle := 0 }) :
    Settled { s with audioStartIdle := 0 } (startReceivingAudioOnMain pf o s generation) := by
  unfold startReceivingAudioOnMain
  rw [if_neg (by rw [not_not]; exact current)]
  simp only
  split
  · exact startReceivingAudio_settled pf o sound
  · exact .of_quiet sound (.refl _)

theorem armStable_timed {s : AudioClient} (timed : Timed s) (free : s.audioStableTimer = 0) :
    Timed { s with audioStableTimer := s.timers.next, timers := s.timers.add .stable } := by
  refine timed.arm .stable rfl free rfl ?_ rfl nofun timed.delay
  funext slot
  cases slot <;> rfl

theorem arm_stable {s : AudioClient} (sound : Sound s) (calm : Calm s)
    (recovering : s.audioDeviceRecovering = true) :
    Recovers { s with audioStableTimer := s.timers.next, timers := s.timers.add .stable } := by
  have armed : s.timers.next ≠ 0 := Nat.ne_of_gt sound.slots.numbered
  refine ⟨⟨?_, sound.requested, sound.failures, .inl calm.restart, ?_⟩, ?_⟩
  · exact armStable_timed sound.toTimed calm.stable
  · exact fun _ => recovering
  · exact fun _ _ => .inr armed

/-- No timer is left, and the handler arms one unless the recovery is over. -/
theorem restartAfterDeviceChange_spec (pf : Platform) (o : Outside) {s : AudioClient}
    (sound : Sound { s with audioRestartTimer := 0 }) (stable : s.audioStableTimer = 0) :
    Recovers (restartAfterDeviceChange pf o s) ∧
      Advances s (restartAfterDeviceChange pf o s) := by
  have same : Advances s { s with audioRestartTimer := 0 } := ⟨rfl, Nat.le_refl _⟩
  unfold restartAfterDeviceChange
  simp only
  split
  · next refused =>
      refine ⟨⟨sound, ?_⟩, same⟩
      intro recovering running
      rcases refused with unrequested | exiting
      · rw [show s.speakerRequested = true from sound.requested recovering running] at unrequested
        cases unrequested
      · exact absurd running exiting
  · next usable =>
    rw [not_or, not_not] at usable
    split
    · have stopped := settled_of_stopped pf o true true false sound.toTimed
      obtain ⟨timed', off⟩ := stopReceivingAudio_spec pf o true true false sound.toTimed
      exact ⟨⟨stopped.sound, (off.sound timed').2.armed⟩, same.trans stopped.toAdvances⟩
    · have quiet : Quiet { s with audioRestartTimer := 0 }
          { s with audioRestartTimer := 0, audioRecoveryData := false } :=
        .of_same rfl rfl rfl rfl rfl rfl rfl (Nat.le_refl _) id
      have tried := quiet.settled (startReceivingAudio_settled pf o (sound.quiet quiet))
      generalize startReceivingAudio pf o
        { s with audioRestartTimer := 0, audioRecoveryData := false } = s' at tried ⊢
      have later := same.trans tried.toAdvances
      by_cases ended : s'.audioDeviceRecovering = false
      · rw [if_pos ended]
        refine ⟨⟨tried.sound, ?_⟩, later⟩
        intro recovering
        rw [ended] at recovering
        cases recovering
      · have recovering : s'.audioDeviceRecovering = true := by
          cases value : s'.audioDeviceRecovering with
          | false => exact absurd value ended
          | true => rfl
        rw [if_neg ended]
        by_cases failed : s'.audioSink.isNone = true ∨ s'.speakerEnabled = false
        · rw [if_pos failed]
          by_cases unarmed : s'.audioRestartTimer = 0
          · rw [if_pos unarmed]
            obtain ⟨sound', restarting⟩ := retryRecoveryOrNotify_spec false
              tried.sound.toTimed recovering
              (tried.sound.requested recovering (tried.exitCode.trans usable.2))
            exact ⟨⟨sound', restarting.armed⟩, later.trans (retryRecoveryOrNotify_advances _ _)⟩
          · rw [if_neg unarmed]
            exact ⟨⟨tried.sound, fun _ _ => .inl unarmed⟩, later⟩
        · rw [if_neg failed]
          rw [not_or] at failed
          have calm : Calm s' := by
            rcases tried.settled with ⟨_, gone⟩ | steady
            · exact absurd (Option.isNone_iff_eq_none.mpr gone) failed.1
            · exact ⟨steady.restart, steady.stable.trans stable⟩
          exact ⟨arm_stable tried.sound calm recovering, later.exitCode, later.sequence⟩

theorem finishDeviceRecovery_spec (o : Outside) {s : AudioClient}
    (sound : Sound { s with audioStableTimer := 0 }) (restart : s.audioRestartTimer = 0) :
    Recovers (finishDeviceRecovery o s) ∧ Advances s (finishDeviceRecovery o s) := by
  have same : Advances s { s with audioStableTimer := 0 } := ⟨rfl, Nat.le_refl _⟩
  have calm : Calm { s with audioStableTimer := 0 } := ⟨restart, rfl⟩
  unfold finishDeviceRecovery
  generalize { s with audioStableTimer := 0 } = s' at sound same calm ⊢
  simp only
  by_cases idle : s'.audioDeviceRecovering = false ∨ s'.speakerRequested = false
  · rw [if_pos idle]
    refine ⟨⟨sound, ?_⟩, same⟩
    intro recovering running
    rcases idle with ended | unrequested
    · rw [ended] at recovering
      cases recovering
    · rw [sound.requested recovering running] at unrequested
      cases unrequested
  · rw [if_neg idle]
    rw [not_or, Bool.not_eq_false, Bool.not_eq_false] at idle
    generalize (if s'.audioSink.isSome = true ∧ s'.speakerEnabled = true then o.sinkState
      else "stopped") = state
    by_cases active : state = "active"
    · rw [if_pos active]
      have timed := clearRecovery_timed sound.toTimed
      obtain ⟨sound', restarting⟩ := timed.idle ⟨calm.restart, calm.stable⟩ rfl
      exact ⟨⟨sound', restarting.armed⟩, same.trans ⟨rfl, Nat.le_refl _⟩⟩
    · rw [if_neg active]
      by_cases waiting : (state = "paused" ∨ state = "ready") ∧ s'.audioRecoveryData = false
      · rw [if_pos waiting]
        exact ⟨arm_stable sound calm idle.1, same.trans ⟨rfl, Nat.le_refl _⟩⟩
      · rw [if_neg waiting]
        have retried := settled_of_retry false sound.toTimed same idle.1 idle.2
        refine ⟨⟨retried.sound, ?_⟩, retried.toAdvances⟩
        obtain ⟨stopped, _⟩ := stopForDeviceChange_spec sound.toTimed
        have fields := stopForDeviceChange_eq s'
        refine (retryRecoveryOrNotify_spec _ stopped ?_ ?_).2.armed
        · rw [fields]
          exact idle.1
        · rw [fields]
          exact idle.2

theorem retryDeviceMonitor_quiet (pf : Platform) (o : Outside) {s s' : AudioClient}
    (quiet : Quiet s { s' with audioMonitorRetryTimer := 0 }) :
    Quiet s (retryDeviceMonitor pf o s') := by
  refine quiet.trans ?_
  unfold retryDeviceMonitor
  simp only
  split
  · exact startDeviceMonitor_quiet pf o _
  · exact .refl _

theorem remove_quiet {s : AudioClient} {source : Nat} {callback : Callback}
    (member : (source, callback) ∈ s.timers.sources) (other : callback.slot = none) :
    Quiet s (s.removeTimer source) := by
  refine ⟨⟨⟨rfl, Nat.le_refl _⟩, rfl, rfl, rfl, rfl, id⟩, ?_⟩
  intro timed
  refine ⟨timed.slots.remove member other, ?_, timed.delay⟩
  intro source' generation member'
  exact timed.starts source' generation (Sources.mem_remove.mp member').1

/-- The number of a timer that is due is kept in one variable at most. -/
theorem fire_handled (pf : Platform) (o : Outside) {s : AudioClient} (recovers : Recovers s)
    (source : Nat) : Handled s (fire pf o s source) := by
  unfold fire
  cases found : Dict.get s.timers.sources source with
  | none => exact (Quiet.refl s).handled
  | some callback =>
      have member := Dict.get_mem found
      cases callback with
      | restart =>
          obtain ⟨rfl, armed⟩ := recovers.slots.only source .restart .restart member rfl
          have free : s.audioStableTimer = 0 := recovers.single.resolve_left armed
          have sound : Sound { s.removeTimer s.audioRestartTimer with audioRestartTimer := 0 } := by
            refine ⟨removeRestart_timed recovers.toTimed, recovers.requested, recovers.failures,
              .inl rfl, ?_⟩
            rintro (none | some)
            · exact absurd rfl none
            · exact absurd free some
          obtain ⟨after, later⟩ := restartAfterDeviceChange_spec pf o sound free
          exact ⟨later.sequence, fun _ => after⟩
      | stable =>
          obtain ⟨rfl, armed⟩ := recovers.slots.only source .stable .stable member rfl
          have free : s.audioRestartTimer = 0 := recovers.single.resolve_right armed
          have sound : Sound { s.removeTimer s.audioStableTimer with audioStableTimer := 0 } := by
            refine ⟨removeStable_timed recovers.toTimed, recovers.requested, recovers.failures,
              .inr rfl, ?_⟩
            rintro (some | none)
            · exact absurd free some
            · exact absurd rfl none
          obtain ⟨after, later⟩ := finishDeviceRecovery_spec o sound free
          exact ⟨later.sequence, fun _ => after⟩
      | monitorRetry =>
          obtain ⟨rfl, _⟩ := recovers.slots.only source .monitorRetry .monitorRetry member rfl
          exact (retryDeviceMonitor_quiet pf o (removeMonitorRetry_quiet s)).handled
      | start generation =>
          obtain ⟨rfl, _⟩ := recovers.slots.only source (.start generation) .start member rfl
          have current := recovers.starts _ generation member
          have quiet := removeStart_quiet s
          have started := startReceivingAudioOnMain_settled pf o
            (s := s.removeTimer s.audioStartIdle) current (recovers.toSound.quiet quiet)
          exact (quiet.settled started).handled
      | stopMonitor monitor =>
          have quiet : Quiet s (s.removeTimer source) := remove_quiet member rfl
          exact (quiet.trans (stopDeviceMonitorOnMain_quiet o _ monitor)).handled
      | drain generation => exact (remove_quiet member rfl).handled

/-- A client that quits has no timer left. -/
theorem quit_handled (pf : Platform) (o : Outside) {s : AudioClient} (sound : Sound s) (code : Int) :
    Handled s (handle pf o s (.quit code)) := by
  have exiting : Timed { s with exitCode := some (s.exitCode.getD code) } :=
    sound.toTimed.of_same rfl rfl rfl rfl
  obtain ⟨cancelled, calm⟩ := cancelDeviceRestart_timed (cancelAudioStart_timed exiting)
  have quiet := stopDeviceMonitor_quiet pf o true
    (cancelDeviceRestart (cancelAudioStart { s with exitCode := some (s.exitCode.getD code) }))
  have same := cancelDeviceRestart_eq
    (cancelAudioStart { s with exitCode := some (s.exitCode.getD code) })
  change Handled s (stopAllAudio pf o _)
  generalize cancelDeviceRestart (cancelAudioStart
    { s with exitCode := some (s.exitCode.getD code) }) = s' at cancelled calm quiet same ⊢
  have ended : s'.exitCode = some (s.exitCode.getD code) := by
    rw [same]
    rfl
  have later : s.audioSinkSequence = s'.audioSinkSequence := by
    rw [same]
    rfl
  have sound' : Sound s' := by
    refine ⟨cancelled, ?_, ?_, .inl calm.restart, ?_⟩
    · intro _ running
      rw [ended] at running
      cases running
    · rw [same]
      exact sound.failures
    · rintro (restart | stable)
      · exact absurd calm.restart restart
      · exact absurd calm.stable stable
  have stopped := sound'.quiet quiet
  have exited := quiet.exitCode.trans ended
  have sequence := quiet.sequence
  rw [← later] at sequence
  generalize stopDeviceMonitor pf o true s' = s'' at stopped exited sequence ⊢
  unfold stopAllAudio
  split
  · have settled := settled_of_stopped pf o true true false stopped.toTimed
    refine ⟨Nat.le_trans sequence settled.sequence, fun _ => ⟨settled.sound, ?_⟩⟩
    intro _ running
    rw [settled.exitCode, exited] at running
    cases running
  · refine ⟨sequence, fun _ => ⟨stopped, ?_⟩⟩
    intro _ running
    rw [exited] at running
    cases running

theorem handle_handled (pf : Platform) (o : Outside) {s : AudioClient} (recovers : Recovers s)
    (event : Event) : Handled s (handle pf o s event) := by
  have sound := recovers.toSound
  cases event with
  | deviceChanged => exact (audioDeviceChanged_settled sound).handled
  | sinkError sink error => exact (audioSinkError_settled pf o sink error sound).handled
  | sinkExit sink => exact (audioSinkGone_settled pf o sink sound).handled
  | processStopped sink => exact (audioSinkGone_settled pf o sink sound).handled
  | sinkState sink state => exact (audioSinkStateChanged_quiet s sink state).handled
  | start => exact (startReceivingAudio_settled pf o sound).handled
  | startLater => exact (startReceivingAudioLater_quiet s).handled
  | stop => exact (settled_of_stopped pf o true true false sound.toTimed).handled
  | suspend => exact (suspend_settled pf o sound).handled
  | resume => exact (resume_settled pf o sound).handled
  | capabilities main serverAudioSend serverAudioEncoders serverAvSync =>
      exact (parseServerCapabilities_settled pf o main sound _ _ _).handled
  | setAvSync delta =>
      apply Quiet.handled
      cases delta <;> exact .of_same rfl rfl rfl rfl rfl rfl rfl (Nat.le_refl _) id
  | exit code =>
      refine ⟨Nat.le_refl _, fun before => ⟨⟨before.toTimed.of_same rfl rfl rfl rfl, nofun,
        before.failures, before.single, before.recovering⟩, nofun⟩⟩
  | quit code => exact quit_handled pf o sound code
  | fire source => exact fire_handled pf o recovers source

/-! ### Runs of a client -/

/-- An event of the main loop, or an audio packet from the server, of a drain or not. -/
inductive Action
  | event (event : Event)
  | packet (main : Bool) (p : AudioPacket) (generation : Option Nat)

def act (pf : Platform) (o : Outside) (s : AudioClient) : Action → AudioClient
  | .event event => handle pf o s event
  | .packet main p generation => (processAudioData pf o main s p generation).1

def Step (pf : Platform) (s : AudioClient) (action : Outside × Action) (s' : AudioClient) : Prop :=
  s' = act pf action.1 s action.2

/-- A client that is not connected yet. -/
def AudioClient.create (speakerAllowed speakerEnabled : Bool) (speakerCodecs : List String)
    (avSync : Bool) (avSyncDelta : Int) : AudioClient :=
  { speakerAllowed
    speakerEnabled
    speakerCodecs
    serverAudioSend := false
    serverAudioEncoders := []
    exitCode := none
    avSync
    serverAvSync := false
    avSyncDelta }

def Created (s : AudioClient) : Prop :=
  ∃ speakerAllowed speakerEnabled speakerCodecs avSync avSyncDelta,
    s = .create speakerAllowed speakerEnabled speakerCodecs avSync avSyncDelta

theorem created_recovers {s : AudioClient} (created : Created s) : Recovers s := by
  obtain ⟨allowed, enabled, codecs, avSync, delta, rfl⟩ := created
  have timers : (AudioClient.create allowed enabled codecs avSync delta).timer = fun _ => 0 := by
    funext slot
    cases slot <;> rfl
  have timed : Timed (.create allowed enabled codecs avSync delta) := by
    refine ⟨?_, ?_, ?_⟩
    · rw [timers]
      exact Sources.Slotted.start
    · intro source generation member
      cases member
    · exact initial_le_max
  obtain ⟨sound, restarting⟩ := timed.idle ⟨rfl, rfl⟩ rfl
  exact ⟨sound, restarting.armed⟩

theorem act_handled (pf : Platform) (o : Outside) {s : AudioClient} (recovers : Recovers s)
    (action : Action) : Handled s (act pf o s action) := by
  cases action with
  | event event => exact handle_handled pf o recovers event
  | packet main p generation => exact processAudioData_handled pf o main recovers.toSound p generation

theorem reachable_recovers {pf : Platform} {s : AudioClient}
    (reachable : Reachable Created (Step pf) s) : Recovers s := by
  refine reachable.invariant (fun s created => created_recovers created) ?_
  intro s action s' recovers taken
  cases taken
  exact (act_handled pf action.1 recovers action.2).recovers recovers

/-- `restart` and `stable` are the callbacks of the recovery. -/
def Callback.recovery (callback : Callback) : Prop := callback = .restart ∨ callback = .stable

/-- No recovery is in progress, and neither timer is armed. -/
structure Idle (s : AudioClient) : Prop extends Calm s where
  ended : s.audioDeviceRecovering = false
  unarmed : ∀ source ∈ s.timers.sources, ¬ source.2.recovery

theorem Calm.unarmed {s : AudioClient} (calm : Calm s) (timed : Timed s) :
    ∀ source ∈ s.timers.sources, ¬ source.2.recovery := by
  rintro ⟨source, callback⟩ member (rfl | rfl)
  · exact timed.slots.absent (i := .restart) calm.restart rfl source member
  · exact timed.slots.absent (i := .stable) calm.stable rfl source member

theorem Recovers.idle {s : AudioClient} (recovers : Recovers s) (running : s.exitCode = none)
    (unrequested : s.speakerRequested = false) : Idle s := by
  have ended : s.audioDeviceRecovering = false := by
    cases recovering : s.audioDeviceRecovering with
    | false => rfl
    | true =>
        rw [recovers.requested recovering running] at unrequested
        cases unrequested
  have calm : Calm s := by
    constructor
    · by_contra armed
      rw [recovers.recovering (.inl armed)] at ended
      cases ended
    · by_contra armed
      rw [recovers.recovering (.inr armed)] at ended
      cases ended
  exact ⟨calm, ended, calm.unarmed recovers.toTimed⟩

theorem Recovers.one_timer {s : AudioClient} (recovers : Recovers s)
    (recovering : s.audioDeviceRecovering = true) (running : s.exitCode = none) :
    ∃! source, source ∈ s.timers.sources ∧ source.2.recovery := by
  have slots := recovers.slots
  rcases recovers.armed recovering running with restart | stable
  · obtain ⟨callback, kind, member⟩ := slots.armed .restart restart
    have free := recovers.single.resolve_left restart
    have same : callback = .restart := by cases callback <;> first | rfl | cases kind
    refine ⟨(s.audioRestartTimer, callback), ⟨member, .inl same⟩, ?_⟩
    rintro ⟨source', callback'⟩ ⟨member', rfl | rfl⟩
    · rw [same, (slots.only source' .restart .restart member' rfl).1]
      rfl
    · exact absurd member' (slots.absent (i := .stable) free rfl source')
  · obtain ⟨callback, kind, member⟩ := slots.armed .stable stable
    have free := recovers.single.resolve_right stable
    have same : callback = .stable := by cases callback <;> first | rfl | cases kind
    refine ⟨(s.audioStableTimer, callback), ⟨member, .inr same⟩, ?_⟩
    rintro ⟨source', callback'⟩ ⟨member', rfl | rfl⟩
    · exact absurd member' (slots.absent (i := .restart) free rfl source')
    · rw [same, (slots.only source' .stable .stable member' rfl).1]
      rfl

/-- A recovery always has one timer, its delay and its failures are bounded, sinks are numbered in
order, and an explicit stop ends the recovery until the speaker is requested again. -/
theorem device_recovery (pf : Platform) {s : AudioClient}
    (reachable : Reachable Created (Step pf) s) :
    (s.audioDeviceRecovering = true → s.speakerRequested = true → s.exitCode = none →
      ∃! source, source ∈ s.timers.sources ∧ source.2.recovery) ∧
    s.audioRestartDelay ≤ deviceRestartMaxMs ∧
    (s.audioDeviceRecovering = true → s.audioGenericFailures < deviceRecoveryGenericFailures) ∧
    (∀ o action, s.audioSinkSequence ≤ (act pf o s action).audioSinkSequence) ∧
    (∀ o, (handle pf o s .stop).speakerRequested = false ∧ Idle (handle pf o s .stop)) ∧
    (s.exitCode = none → s.speakerRequested = false → Idle s) := by
  have recovers := reachable_recovers reachable
  refine ⟨fun recovering _ running => recovers.one_timer recovering running, recovers.delay,
    recovers.failures, ?_, ?_, recovers.idle⟩
  · intro o action
    exact (act_handled pf o recovers action).sequence
  · intro o
    obtain ⟨timed, stopped⟩ := stopReceivingAudio_spec pf o true true false recovers.toTimed
    exact ⟨stopped.unrequested, stopped.toCalm, stopped.ended, stopped.toCalm.unarmed timed⟩

def windows : Platform := ⟨true, false⟩

/-- Every sink starts. -/
def working : Outside := ⟨true, .started, .started, true, "active", -1⟩

/-- A client of which the audio device has changed. -/
def changedClient : AudioClient :=
  act windows working
    (act windows working (.create true true ["opus"] false 0)
      (.event (.capabilities true true ["opus"] false)))
    (.event .deviceChanged)

theorem changedClient_reachable : Reachable Created (Step windows) changedClient := by
  have created : Reachable Created (Step windows) (.create true true ["opus"] false 0) :=
    .start ⟨_, _, _, _, _, rfl⟩
  have connected : Reachable Created (Step windows)
      (act windows working (.create true true ["opus"] false 0)
        (.event (.capabilities true true ["opus"] false))) :=
    created.next (a := (working, .event (.capabilities true true ["opus"] false))) rfl
  exact connected.next (a := (working, .event .deviceChanged)) rfl

theorem device_recovery_changed :
    changedClient.audioDeviceRecovering = true ∧
      ∃! source, source ∈ changedClient.timers.sources ∧ source.2.recovery := by
  have recovery := (device_recovery windows changedClient_reachable).1
  exact ⟨rfl, recovery rfl rfl rfl⟩

end Catlink.Audio
