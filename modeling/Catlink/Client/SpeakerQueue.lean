import Catlink.Client.AudioRecovery
import Mathlib.Algebra.Order.BigOperators.Group.List
import Mathlib.Algebra.Order.Group.Nat
import Mathlib.Tactic

/-! The packets that wait for the speaker are played in the order in which they arrive. -/

namespace Catlink.Audio

open MainLoop Runs

/-! ### Making room -/

/-- `_speaker_packet_size` of a packet that is queued. -/
def AudioPacket.bytes (p : AudioPacket) : Nat := p.size.getD 0

def totalBytes (queue : List AudioPacket) : Nat := (queue.map AudioPacket.bytes).sum

theorem totalBytes_cons (p : AudioPacket) (queue : List AudioPacket) :
    totalBytes (p :: queue) = p.bytes + totalBytes queue := by
  rw [totalBytes, List.map_cons, List.sum_cons]
  rfl

theorem totalBytes_concat (queue : List AudioPacket) (p : AudioPacket) :
    totalBytes (queue ++ [p]) = totalBytes queue + p.bytes := by
  simp [totalBytes]

theorem totalBytes_sublist {queue' queue : List AudioPacket} (fewer : queue'.Sublist queue) :
    totalBytes queue' ≤ totalBytes queue :=
  (fewer.map AudioPacket.bytes).sum_le_sum fun _ _ => Nat.zero_le _

/-- One packet is taken out, and it is no stream boundary. -/
structure Evicts (queue : List AudioPacket) (dropped : AudioPacket) (queue' : List AudioPacket) :
    Prop where
  sublist : queue'.Sublist queue
  length : queue'.length + 1 = queue.length
  bytes : totalBytes queue = totalBytes queue' + dropped.bytes
  boundaries : ∀ p ∈ queue, p.boundary = some true → p ∈ queue'

theorem evict_spec {queue queue' : List AudioPacket} {dropped : AudioPacket}
    (evicted : evict queue = some (dropped, queue')) : Evicts queue dropped queue' := by
  induction queue generalizing queue' with
  | nil => cases evicted
  | cons p queue ih =>
      rw [evict] at evicted
      cases boundary : p.boundary with
      | none =>
          rw [boundary] at evicted
          cases evicted
      | some marker =>
          rw [boundary] at evicted
          cases marker with
          | false =>
              cases evicted
              constructor
              · exact List.sublist_cons_self _ _
              · rfl
              · rw [totalBytes_cons, Nat.add_comm]
              · intro p' member kept
                rcases List.mem_cons.mp member with rfl | member
                · rw [boundary] at kept
                  cases kept
                · exact member
          | true =>
              obtain ⟨⟨found, rest⟩, inside, same⟩ := Option.map_eq_some_iff.mp evicted
              cases same
              have evicts := ih inside
              constructor
              · exact evicts.sublist.cons_cons p
              · rw [List.length_cons, List.length_cons, evicts.length]
              · rw [totalBytes_cons, totalBytes_cons, evicts.bytes, Nat.add_assoc]
              · intro p' member kept
                rcases List.mem_cons.mp member with rfl | member
                · exact List.mem_cons_self
                · exact List.mem_cons_of_mem _ (evicts.boundaries p' member kept)

/-- What is left of a queue when room is made in it. -/
structure MadeRoom (size : Nat) (queue queue' : List AudioPacket) (bytes' : Nat) (room : Bool) :
    Prop where
  sublist : queue'.Sublist queue
  bytes : bytes' = totalBytes queue'
  boundaries : ∀ p ∈ queue, p.boundary = some true → p ∈ queue'
  room : room = true → size ≤ maxSpeakerStartBytes →
    queue'.length < maxSpeakerStartPackets ∧ bytes' + size ≤ maxSpeakerStartBytes

theorem makeRoom_spec (size fuel : Nat) {queue : List AudioPacket} {bytes : Nat}
    (counted : bytes = totalBytes queue) :
    MadeRoom size queue (makeRoom size fuel queue bytes).1 (makeRoom size fuel queue bytes).2.1
      (makeRoom size fuel queue bytes).2.2 := by
  have untouched (room : Bool) (fits : room = true → size ≤ maxSpeakerStartBytes →
      queue.length < maxSpeakerStartPackets ∧ bytes + size ≤ maxSpeakerStartBytes) :
      MadeRoom size queue queue bytes room :=
    ⟨List.Sublist.refl _, counted, fun _ member _ => member, fits⟩
  induction fuel generalizing queue bytes with
  | zero => exact untouched false nofun
  | succ fuel ih =>
      rw [makeRoom]
      split
      · cases evicted : evict queue with
        | none => exact untouched false nofun
        | some found =>
            obtain ⟨dropped, rest⟩ := found
            have evicts := evict_spec evicted
            have counted' : bytes - dropped.bytes = totalBytes rest := by
              rw [counted, evicts.bytes, Nat.add_sub_cancel]
            have made := ih counted' fun room fits =>
              ⟨List.Sublist.refl _, counted', fun _ member _ => member, fits⟩
            constructor
            · exact made.sublist.trans evicts.sublist
            · exact made.bytes
            · intro p member boundary
              exact made.boundaries p (evicts.boundaries p member boundary) boundary
            · exact made.room
      · next fits =>
          apply untouched true
          intro _ small
          rw [not_and_or, not_not, not_or, Nat.not_le, Nat.not_lt] at fits
          rcases fits with empty | fits
          · rw [counted, empty]
            refine ⟨Nat.succ_pos 255, ?_⟩
            rw [totalBytes, List.map_nil, List.sum_nil, Nat.zero_add]
            exact small
          · exact fits

/-- The loop ends before its fuel does. -/
theorem makeRoom_fuel (size : Nat) {fuel : Nat} {queue : List AudioPacket} (bytes : Nat)
    (enough : queue.length < fuel) :
    makeRoom size (fuel + 1) queue bytes = makeRoom size fuel queue bytes := by
  induction fuel generalizing queue bytes with
  | zero => exact absurd enough (Nat.not_lt_zero _)
  | succ fuel ih =>
      rw [makeRoom, makeRoom]
      split
      · cases evicted : evict queue with
        | none => rfl
        | some found =>
            have shorter := (evict_spec evicted).length
            exact ih _ (by omega)
      · rfl

/-! ### The queue under the other handlers -/

/-- The queue is as before, or a later generation's and empty; drains are only added by arrivals. -/
structure Fenced (s s' : AudioClient) : Prop where
  drains : ∀ source generation, (source, .drain generation) ∈ s'.timers.sources ↔
    (source, .drain generation) ∈ s.timers.sources
  queue : (s'.audioStartGeneration = s.audioStartGeneration ∧
      s'.speakerStartPackets = s.speakerStartPackets ∧
      s'.speakerStartBytes = s.speakerStartBytes ∧ s'.speakerStartPending = s.speakerStartPending) ∨
    (s.audioStartGeneration < s'.audioStartGeneration ∧ s'.speakerStartPackets = [] ∧
      s'.speakerStartBytes = 0 ∧ s'.speakerStartPending = false)

theorem Fenced.trans {s s' s'' : AudioClient} (one : Fenced s s') (two : Fenced s' s'') :
    Fenced s s'' := by
  constructor
  · intro source generation
    exact (two.drains source generation).trans (one.drains source generation)
  · rcases two.queue with ⟨same, packets, bytes, pending⟩ | ⟨later, empty⟩
    · rw [same, packets, bytes, pending]
      exact one.queue
    · right
      refine ⟨?_, empty⟩
      rcases one.queue with ⟨same, _⟩ | ⟨before, _⟩
      · rw [← same]
        exact later
      · exact Nat.lt_trans before later

/-- So it is with all of the timers in place. -/
structure Keeps (s s' : AudioClient) : Prop where
  timed : Timed s → Timed s'
  fenced : Timed s → Fenced s s'

theorem Keeps.trans {s s' s'' : AudioClient} (one : Keeps s s') (two : Keeps s' s'') : Keeps s s'' :=
  ⟨fun before => two.timed (one.timed before),
    fun before => (one.fenced before).trans (two.fenced (one.timed before))⟩

/-- Neither the timers nor the queue are changed. -/
theorem Keeps.of_same {s s' : AudioClient} (timers : s'.timers = s.timers)
    (slots : s'.timer = s.timer) (generation : s'.audioStartGeneration = s.audioStartGeneration)
    (delay : s'.audioRestartDelay ≤ max s.audioRestartDelay deviceRestartMaxMs)
    (packets : s'.speakerStartPackets = s.speakerStartPackets)
    (bytes : s'.speakerStartBytes = s.speakerStartBytes)
    (pending : s'.speakerStartPending = s.speakerStartPending) : Keeps s s' := by
  constructor
  · intro timed
    refine ⟨?_, ?_, ?_⟩
    · rw [timers, slots]
      exact timed.slots
    · rw [timers, generation]
      exact timed.starts
    · rw [Nat.max_eq_right timed.delay] at delay
      exact delay
  · intro _
    refine ⟨?_, .inl ⟨generation, packets, bytes, pending⟩⟩
    rw [timers]
    exact fun _ _ => Iff.rfl

theorem Keeps.refl (s : AudioClient) : Keeps s s :=
  .of_same rfl rfl rfl (Nat.le_max_left _ _) rfl rfl rfl

/-- A source of another kind is removed. -/
theorem Keeps.release {s s' : AudioClient} (slot : Slot) (armed : s.timer slot ≠ 0)
    (timers : s'.timers = s.timers.remove (s.timer slot)) (timed : Timed s → Timed s')
    (generation : s'.audioStartGeneration = s.audioStartGeneration)
    (packets : s'.speakerStartPackets = s.speakerStartPackets)
    (bytes : s'.speakerStartBytes = s.speakerStartBytes)
    (pending : s'.speakerStartPending = s.speakerStartPending) : Keeps s s' := by
  refine ⟨timed, fun before => ⟨?_, .inl ⟨generation, packets, bytes, pending⟩⟩⟩
  obtain ⟨callback, kind, own⟩ := before.slots.armed slot armed
  intro source generation
  rw [timers, Sources.mem_remove]
  constructor
  · exact And.left
  · intro member
    refine ⟨member, ?_⟩
    intro same
    change source = s.timer slot at same
    rw [← same] at own
    rw [Sources.callback_unique own member] at kind
    cases kind

/-- A source that is no drain is added. -/
theorem Keeps.arm {s s' : AudioClient} {callback : Callback}
    (timers : s'.timers = s.timers.add callback) (other : ∀ generation, callback ≠ .drain generation)
    (timed : Timed s → Timed s')
    (generation : s'.audioStartGeneration = s.audioStartGeneration)
    (packets : s'.speakerStartPackets = s.speakerStartPackets)
    (bytes : s'.speakerStartBytes = s.speakerStartBytes)
    (pending : s'.speakerStartPending = s.speakerStartPending) : Keeps s s' := by
  refine ⟨timed, fun _ => ⟨?_, .inl ⟨generation, packets, bytes, pending⟩⟩⟩
  intro source generation
  rw [timers, Sources.mem_add]
  constructor
  · rintro (old | new)
    · exact old
    · cases new
      exact absurd rfl (other generation)
  · exact .inl

theorem cancelDeviceRestart_keeps (s : AudioClient) : Keeps s (cancelDeviceRestart s) := by
  unfold cancelDeviceRestart
  have first : Keeps s
      (if s.audioRestartTimer = 0 then s
      else { s.removeTimer s.audioRestartTimer with audioRestartTimer := 0 }) := by
    split
    · exact .refl s
    · next armed => exact .release .restart armed rfl removeRestart_timed rfl rfl rfl rfl
  refine first.trans ?_
  generalize (if s.audioRestartTimer = 0 then s
    else { s.removeTimer s.audioRestartTimer with audioRestartTimer := 0 }) = s'
  simp only
  split
  · exact .refl s'
  · next armed => exact .release .stable armed rfl removeStable_timed rfl rfl rfl rfl

theorem dropSink_keeps (s : AudioClient) (tellServer : Bool) : Keeps s (dropSink s tellServer) := by
  rw [dropSink_eq]
  exact .of_same rfl rfl rfl (Nat.le_max_left _ _) rfl rfl rfl

theorem stopForDeviceChange_keeps (s : AudioClient) : Keeps s (stopForDeviceChange s) :=
  (cancelDeviceRestart_keeps s).trans (dropSink_keeps _ true)

theorem cancelMonitorRetry_keeps (s : AudioClient) : Keeps s (cancelMonitorRetry s) := by
  unfold cancelMonitorRetry
  by_cases unarmed : s.audioMonitorRetryTimer = 0
  · simp only [if_pos unarmed]
    exact .of_same rfl rfl rfl (Nat.le_max_left _ _) rfl rfl rfl
  · simp only [if_neg unarmed]
    have released : Keeps s
        { s.removeTimer s.audioMonitorRetryTimer with audioMonitorRetryTimer := 0 } :=
      .release .monitorRetry unarmed rfl (removeMonitorRetry_quiet s).timed rfl rfl rfl rfl
    refine released.trans ?_
    exact .of_same rfl rfl rfl (Nat.le_max_left _ _) rfl rfl rfl

theorem runMonitor_keeps (o : Outside) (s : AudioClient) (monitor : Nat) :
    Keeps s (runMonitor o s monitor) := by
  refine ⟨(runMonitor_quiet o s monitor).timed, fun timed => ?_⟩
  have retry {s : AudioClient} (timed : Timed s) : Fenced s
      (if s.audioMonitorRetryTimer ≠ 0 then s
      else
        { s with
          audioMonitorRetryDelay := min (s.audioMonitorRetryDelay * 2) deviceRestartMaxMs
          audioMonitorRetryTimer := s.timers.next
          timers := s.timers.add .monitorRetry }) := by
    by_cases unarmed : s.audioMonitorRetryTimer = 0
    · rw [if_neg (by rw [not_not]; exact unarmed)]
      have armed : Keeps s
          { s with
            audioMonitorRetryDelay := min (s.audioMonitorRetryDelay * 2) deviceRestartMaxMs
            audioMonitorRetryTimer := s.timers.next
            timers := s.timers.add .monitorRetry } := by
        refine .arm rfl nofun ?_ rfl rfl rfl rfl
        exact fun before => armMonitorRetry_timed before unarmed
      exact armed.fenced timed
    · rw [if_pos unarmed]
      exact (Keeps.refl s).fenced timed
  unfold runMonitor
  cases o.monitorStart with
  | started =>
      have known : Keeps s { s with audioDeviceMonitor := some monitor, audioMonitorStopped := false } :=
        .of_same rfl rfl rfl (Nat.le_max_left _ _) rfl rfl rfl
      exact (known.trans (cancelMonitorRetry_keeps _)).fenced timed
  | failed => exact retry timed
  | stuck =>
      have known : Keeps s { s with audioDeviceMonitor := some monitor, audioMonitorStopped := true } :=
        .of_same rfl rfl rfl (Nat.le_max_left _ _) rfl rfl rfl
      exact (known.fenced timed).trans (retry (known.timed timed))

theorem startDeviceMonitor_keeps (pf : Platform) (o : Outside) (s : AudioClient) :
    Keeps s (startDeviceMonitor pf o s) := by
  unfold startDeviceMonitor
  split
  · split
    · split
      · exact .refl s
      · exact runMonitor_keeps o s _
    · refine Keeps.trans ?_ (runMonitor_keeps o _ _)
      exact .of_same rfl rfl rfl (Nat.le_max_left _ _) rfl rfl rfl
  · exact .refl s

theorem stopDeviceMonitorOnMain_keeps (o : Outside) (s : AudioClient) (monitor : Nat) :
    Keeps s (stopDeviceMonitorOnMain o s monitor) := by
  unfold stopDeviceMonitorOnMain
  split
  · exact .refl s
  · split <;> exact .of_same rfl rfl rfl (Nat.le_max_left _ _) rfl rfl rfl

theorem stopDeviceMonitor_keeps (pf : Platform) (o : Outside) (main : Bool) (s : AudioClient) :
    Keeps s (stopDeviceMonitor pf o main s) := by
  refine ⟨(stopDeviceMonitor_quiet pf o main s).timed, fun timed => ?_⟩
  have cancelled := cancelMonitorRetry_keeps s
  refine (cancelled.fenced timed).trans ?_
  have timed := cancelled.timed timed
  unfold stopDeviceMonitor
  generalize cancelMonitorRetry s = s' at timed ⊢
  simp only
  split
  · exact (Keeps.refl s').fenced timed
  · next monitor _ =>
      split
      · have later : Keeps s' { s' with timers := s'.timers.add (.stopMonitor monitor) } :=
          .arm rfl nofun (add_quiet s' _ rfl).timed rfl rfl rfl rfl
        exact later.fenced timed
      · exact (stopDeviceMonitorOnMain_keeps o s' monitor).fenced timed

theorem cancelAudioStart_keeps (s : AudioClient) : Keeps s (cancelAudioStart s) := by
  refine ⟨cancelAudioStart_timed, fun timed => ⟨?_, .inr ⟨Nat.lt_succ_self _, rfl, rfl, rfl⟩⟩⟩
  intro source generation
  unfold cancelAudioStart
  simp only
  split
  · next armed =>
      have removed : Keeps s { s.removeTimer s.audioStartIdle with audioStartIdle := 0 } :=
        .release .start (Nat.ne_of_gt armed) rfl (removeStart_quiet s).timed rfl rfl rfl rfl
      exact (removed.fenced timed).drains source generation
  · exact Iff.rfl

theorem endRecovery_keeps (pf : Platform) (o : Outside) (main preserveStartPackets : Bool)
    (s : AudioClient) : Keeps s (endRecovery pf o main preserveStartPackets s) := by
  rw [endRecovery_eq]
  refine Keeps.trans (.trans ?_ (cancelDeviceRestart_keeps _)) (stopDeviceMonitor_keeps _ _ _ _)
  have cleared (s : AudioClient) : Keeps s (clearRecovery s) :=
    .of_same rfl rfl rfl (Nat.le_trans initial_le_max (Nat.le_max_right _ _)) rfl rfl rfl
  refine Keeps.trans ?_ (cleared _)
  split
  · exact .of_same rfl rfl rfl (Nat.le_max_left _ _) rfl rfl rfl
  · exact cancelAudioStart_keeps s

theorem stopReceivingAudio_keeps (pf : Platform) (o : Outside)
    (main tellServer preserveStartPackets : Bool) (s : AudioClient) :
    Keeps s (stopReceivingAudio pf o main tellServer preserveStartPackets s) :=
  (endRecovery_keeps pf o main preserveStartPackets s).trans (dropSink_keeps _ tellServer)

theorem stopAllAudio_keeps (pf : Platform) (o : Outside) (s : AudioClient) :
    Keeps s (stopAllAudio pf o s) := by
  unfold stopAllAudio
  split
  · exact stopReceivingAudio_keeps pf o true true false s
  · exact .refl s

theorem cleanup_keeps (pf : Platform) (o : Outside) (s : AudioClient) : Keeps s (cleanup pf o s) := by
  refine Keeps.trans (.trans ?_ (stopDeviceMonitor_keeps pf o true _)) (stopAllAudio_keeps pf o _)
  exact (cancelAudioStart_keeps s).trans (cancelDeviceRestart_keeps _)

theorem scheduleDeviceRestart_keeps (s : AudioClient) : Keeps s (scheduleDeviceRestart s) := by
  refine (cancelDeviceRestart_keeps s).trans ?_
  have free : (cancelDeviceRestart s).audioRestartTimer = 0 := by rw [cancelDeviceRestart_eq]
  unfold scheduleDeviceRestart
  generalize cancelDeviceRestart s = s' at free ⊢
  simp only
  split
  · exact .refl s'
  · exact .arm rfl nofun (fun timed => armRestart_timed timed free) rfl rfl rfl rfl

theorem retryRecoveryOrNotify_keeps (s : AudioClient) (deviceError : Bool) :
    Keeps s (retryRecoveryOrNotify s deviceError) := by
  unfold retryRecoveryOrNotify
  split
  · refine Keeps.trans ?_ (scheduleDeviceRestart_keeps _)
    exact .of_same rfl rfl rfl (Nat.le_max_left _ _) rfl rfl rfl
  · simp only
    split
    · refine Keeps.trans ?_ (cancelDeviceRestart_keeps _)
      exact .of_same rfl rfl rfl (Nat.le_max_left _ _) rfl rfl rfl
    · refine Keeps.trans ?_ (scheduleDeviceRestart_keeps _)
      exact .of_same rfl rfl rfl (Nat.le_max_left _ _) rfl rfl rfl

theorem audioDeviceChanged_keeps (s : AudioClient) : Keeps s (audioDeviceChanged s) := by
  unfold audioDeviceChanged
  split
  · exact .refl s
  · refine Keeps.trans (.trans ?_ (stopForDeviceChange_keeps _)) (scheduleDeviceRestart_keeps _)
    exact .of_same rfl rfl rfl (Nat.le_trans initial_le_max (Nat.le_max_right _ _)) rfl rfl rfl

theorem audioSinkError_keeps (pf : Platform) (o : Outside) (sink : Option Nat) (error : String)
    (s : AudioClient) : Keeps s (audioSinkError pf o sink error s) := by
  unfold audioSinkError
  split
  · exact .refl s
  · split
    · refine Keeps.trans (.trans ?_ (stopForDeviceChange_keeps _)) (retryRecoveryOrNotify_keeps _ _)
      exact .of_same rfl rfl rfl (Nat.le_max_left _ _) rfl rfl rfl
    · exact stopReceivingAudio_keeps pf o true true false s

theorem audioSinkGone_keeps (pf : Platform) (o : Outside) (sink : Option Nat) (s : AudioClient) :
    Keeps s (audioSinkGone pf o sink s) := by
  unfold audioSinkGone
  split
  · exact .refl s
  · split
    · exact (stopForDeviceChange_keeps s).trans (retryRecoveryOrNotify_keeps _ _)
    · exact stopReceivingAudio_keeps pf o true true false s

theorem withSink_keeps (s : AudioClient) (codec : String) : Keeps s (withSink s codec) :=
  .of_same rfl rfl rfl (Nat.le_max_left _ _) rfl rfl rfl

theorem startAudioSink_keeps (pf : Platform) (o : Outside) (s : AudioClient) (codec : String) :
    Keeps s (startAudioSink pf o s codec).1 := by
  unfold startAudioSink
  split
  · exact .refl s
  · cases o.sinkStart with
    | nothing => exact .refl s
    | failed error => exact audioSinkError_keeps pf o none error s
    | broken error => exact (withSink_keeps s codec).trans (audioSinkError_keeps pf o _ error _)
    | started => exact withSink_keeps s codec

theorem tryReceivingAudio_keeps (pf : Platform) (o : Outside) (s : AudioClient) :
    Keeps s (tryReceivingAudio pf o s).1 := by
  unfold tryReceivingAudio
  by_cases present : s.audioSink.isSome = true
  · rw [if_pos present]
    exact .refl s
  · rw [if_neg present]
    by_cases unsupported : s.serverAudioSend = false
    · rw [if_pos unsupported]
      exact .refl s
    · rw [if_neg unsupported]
      by_cases loop : o.loopCheck = false
      · rw [if_pos loop]
        exact .refl s
      · rw [if_neg loop]
        cases getMatchingCodecs s.speakerCodecs s.serverAudioEncoders with
        | nil => exact .refl s
        | cons codec _ =>
            refine Keeps.trans (.trans (.trans ?_
              (startDeviceMonitor_keeps pf o { s with speakerRequested := true })) ?_)
              (startAudioSink_keeps pf o _ codec)
            · exact .of_same rfl rfl rfl (Nat.le_max_left _ _) rfl rfl rfl
            · exact .of_same rfl rfl rfl (Nat.le_max_left _ _) rfl rfl rfl

theorem startReceivingAudio_keeps (pf : Platform) (o : Outside) (s : AudioClient) :
    Keeps s (startReceivingAudio pf o s) := by
  have tried := tryReceivingAudio_keeps pf o s
  have enabled (s : AudioClient) (speakerEnabled : Bool) : Keeps s { s with speakerEnabled } :=
    .of_same rfl rfl rfl (Nat.le_max_left _ _) rfl rfl rfl
  unfold startReceivingAudio
  refine Keeps.trans ?_ (enabled _ _)
  split
  · exact tried.trans (stopReceivingAudio_keeps pf o true true false _)
  · exact tried

theorem startReceivingAudioLater_keeps (s : AudioClient) : Keeps s (startReceivingAudioLater s) := by
  refine ⟨(startReceivingAudioLater_quiet s).timed, fun timed => ?_⟩
  have asked : Keeps s { s with speakerRequested := true } :=
    .of_same rfl rfl rfl (Nat.le_max_left _ _) rfl rfl rfl
  unfold startReceivingAudioLater
  refine (asked.fenced timed).trans ?_
  have timed := asked.timed timed
  simp only
  split
  · exact (Keeps.refl _).fenced timed
  · next unarmed =>
      rw [not_not] at unarmed
      have armed : Keeps { s with speakerRequested := true } { s with
          speakerRequested := true
          audioStartIdle := s.timers.next
          timers := s.timers.add (.start s.audioStartGeneration) } :=
        .arm rfl nofun (fun before => armStart_timed before unarmed) rfl rfl rfl rfl
      exact armed.fenced timed

theorem startReceivingAudioOnMain_keeps (pf : Platform) (o : Outside) {s : AudioClient}
    {generation : Nat} (current : generation = s.audioStartGeneration) :
    Keeps { s with audioStartIdle := 0 } (startReceivingAudioOnMain pf o s generation) := by
  unfold startReceivingAudioOnMain
  rw [if_neg (by rw [not_not]; exact current)]
  simp only
  split
  · exact startReceivingAudio_keeps pf o _
  · exact .refl _

theorem restartAfterDeviceChange_keeps (pf : Platform) (o : Outside) {s : AudioClient}
    (sound : Sound { s with audioRestartTimer := 0 }) (stable : s.audioStableTimer = 0) :
    Keeps { s with audioRestartTimer := 0 } (restartAfterDeviceChange pf o s) := by
  refine ⟨fun _ => (restartAfterDeviceChange_spec pf o sound stable).1.toTimed, fun timed => ?_⟩
  unfold restartAfterDeviceChange
  simp only
  split
  · exact (Keeps.refl _).fenced timed
  · split
    · exact (stopReceivingAudio_keeps pf o true true false _).fenced timed
    · have quiet : Quiet { s with audioRestartTimer := 0 }
          { s with audioRestartTimer := 0, audioRecoveryData := false } :=
        .of_same rfl rfl rfl rfl rfl rfl rfl (Nat.le_refl _) id
      have cleared : Keeps { s with audioRestartTimer := 0 }
          { s with audioRestartTimer := 0, audioRecoveryData := false } :=
        .of_same rfl rfl rfl (Nat.le_max_left _ _) rfl rfl rfl
      have tried := cleared.trans (startReceivingAudio_keeps pf o _)
      have settled := quiet.settled (startReceivingAudio_settled pf o (sound.quiet quiet))
      generalize startReceivingAudio pf o
        { s with audioRestartTimer := 0, audioRecoveryData := false } = s' at tried settled ⊢
      refine (tried.fenced timed).trans ?_
      have timed := tried.timed timed
      split
      · exact (Keeps.refl s').fenced timed
      · split
        · split
          · exact (retryRecoveryOrNotify_keeps s' false).fenced timed
          · exact (Keeps.refl s').fenced timed
        · next started =>
            rw [not_or] at started
            have free : s'.audioStableTimer = 0 := by
              rcases settled.settled with ⟨_, gone⟩ | steady
              · exact absurd (Option.isNone_iff_eq_none.mpr gone) started.1
              · exact steady.stable.trans stable
            have armed : Keeps s'
                { s' with audioStableTimer := s'.timers.next, timers := s'.timers.add .stable } :=
              .arm rfl nofun (fun before => armStable_timed before free) rfl rfl rfl rfl
            exact armed.fenced timed

theorem finishDeviceRecovery_keeps (o : Outside) (s : AudioClient) :
    Keeps { s with audioStableTimer := 0 } (finishDeviceRecovery o s) := by
  have free : AudioClient.audioStableTimer { s with audioStableTimer := 0 } = 0 := rfl
  unfold finishDeviceRecovery
  generalize { s with audioStableTimer := 0 } = s' at free ⊢
  simp only
  generalize (if s'.audioSink.isSome = true ∧ s'.speakerEnabled = true then o.sinkState
    else "stopped") = state
  split
  · exact .refl s'
  · split
    · exact .of_same rfl rfl rfl (Nat.le_trans initial_le_max (Nat.le_max_right _ _)) rfl rfl rfl
    · split
      · exact .arm rfl nofun (fun before => armStable_timed before free) rfl rfl rfl rfl
      · exact (stopForDeviceChange_keeps s').trans (retryRecoveryOrNotify_keeps _ false)

theorem retryDeviceMonitor_keeps (pf : Platform) (o : Outside) (s : AudioClient) :
    Keeps { s with audioMonitorRetryTimer := 0 } (retryDeviceMonitor pf o s) := by
  unfold retryDeviceMonitor
  simp only
  split
  · exact startDeviceMonitor_keeps pf o _
  · exact .refl _

theorem suspend_keeps (pf : Platform) (o : Outside) (s : AudioClient) : Keeps s (suspend pf o s) := by
  have noted : Keeps s { s with audioResumeRestart := s.speakerRequested || s.audioSink.isSome } :=
    .of_same rfl rfl rfl (Nat.le_max_left _ _) rfl rfl rfl
  refine noted.trans ?_
  unfold suspend
  simp only
  split
  · exact stopReceivingAudio_keeps pf o true true false _
  · exact .refl _

theorem resume_keeps (pf : Platform) (o : Outside) (s : AudioClient) : Keeps s (resume pf o s) := by
  have noted : Keeps s { s with audioResumeRestart := false } :=
    .of_same rfl rfl rfl (Nat.le_max_left _ _) rfl rfl rfl
  unfold resume
  split
  · exact noted.trans (startReceivingAudio_keeps pf o _)
  · exact .refl s

theorem audioSinkStateChanged_keeps (s : AudioClient) (sink : Option Nat) (state : String) :
    Keeps s (audioSinkStateChanged s sink state) := by
  unfold audioSinkStateChanged
  split
  · exact .refl s
  · split
    · split
      · exact .of_same rfl rfl rfl (Nat.le_max_left _ _) rfl rfl rfl
      · exact .refl s
    · exact .refl s

theorem parseServerCapabilities_keeps (pf : Platform) (o : Outside) (main : Bool) (s : AudioClient)
    (serverAudioSend : Bool) (serverAudioEncoders : List String) (serverAvSync : Bool) :
    Keeps s (parseServerCapabilities pf o main s serverAudioSend serverAudioEncoders serverAvSync) := by
  have parsed : Keeps s { s with serverAudioSend, serverAudioEncoders, serverAvSync } :=
    .of_same rfl rfl rfl (Nat.le_max_left _ _) rfl rfl rfl
  refine parsed.trans ?_
  unfold parseServerCapabilities
  simp only
  split
  · split
    · exact startReceivingAudioLater_keeps _
    · exact startReceivingAudio_keeps pf o _
  · exact .refl _

/-- A drain that is due is not among the events. -/
theorem fire_keeps (pf : Platform) (o : Outside) {s : AudioClient} (recovers : Recovers s)
    {source : Nat} (other : ∀ generation, (source, .drain generation) ∉ s.timers.sources) :
    Fenced s (fire pf o s source) := by
  have timed := recovers.toTimed
  unfold fire
  cases found : Dict.get s.timers.sources source with
  | none => exact (Keeps.refl s).fenced timed
  | some callback =>
      have member := Dict.get_mem found
      cases callback with
      | restart =>
          obtain ⟨rfl, armed⟩ := recovers.slots.only source .restart .restart member rfl
          have free : s.audioStableTimer = 0 := recovers.single.resolve_left armed
          have removed : Keeps s { s.removeTimer s.audioRestartTimer with audioRestartTimer := 0 } :=
            .release .restart armed rfl removeRestart_timed rfl rfl rfl rfl
          have sound : Sound { s.removeTimer s.audioRestartTimer with audioRestartTimer := 0 } := by
            refine ⟨removed.timed timed, recovers.requested, recovers.failures, .inl rfl, ?_⟩
            rintro (none | some)
            · exact absurd rfl none
            · exact absurd free some
          exact (removed.trans (restartAfterDeviceChange_keeps pf o sound free)).fenced timed
      | stable =>
          obtain ⟨rfl, armed⟩ := recovers.slots.only source .stable .stable member rfl
          have removed : Keeps s { s.removeTimer s.audioStableTimer with audioStableTimer := 0 } :=
            .release .stable armed rfl removeStable_timed rfl rfl rfl rfl
          exact (removed.trans (finishDeviceRecovery_keeps o (s.removeTimer _))).fenced timed
      | monitorRetry =>
          obtain ⟨rfl, armed⟩ := recovers.slots.only source .monitorRetry .monitorRetry member rfl
          have removed : Keeps s
              { s.removeTimer s.audioMonitorRetryTimer with audioMonitorRetryTimer := 0 } :=
            .release .monitorRetry armed rfl (removeMonitorRetry_quiet s).timed rfl rfl rfl rfl
          exact (removed.trans (retryDeviceMonitor_keeps pf o (s.removeTimer _))).fenced timed
      | start generation =>
          obtain ⟨rfl, armed⟩ := recovers.slots.only source (.start generation) .start member rfl
          have current := recovers.starts _ generation member
          have removed : Keeps s { s.removeTimer s.audioStartIdle with audioStartIdle := 0 } :=
            .release .start armed rfl (removeStart_quiet s).timed rfl rfl rfl rfl
          exact (removed.trans (startReceivingAudioOnMain_keeps pf o
            (s := s.removeTimer s.audioStartIdle) current)).fenced timed
      | stopMonitor monitor =>
          have removed : Fenced s (s.removeTimer source) := by
            refine ⟨?_, .inl ⟨rfl, rfl, rfl, rfl⟩⟩
            intro source' generation
            constructor
            · exact fun left => (Sources.mem_remove.mp left).1
            · intro held
              refine Sources.mem_remove.mpr ⟨held, ?_⟩
              intro same
              change source' = source at same
              rw [same] at held
              exact other generation held
          exact removed.trans ((stopDeviceMonitorOnMain_keeps o _ monitor).fenced
            ((remove_quiet member rfl).timed timed))
      | drain generation => exact absurd member (other generation)

theorem handle_fenced (pf : Platform) (o : Outside) {s : AudioClient} (recovers : Recovers s)
    {event : Event} (other : ∀ source generation, event = .fire source →
      (source, .drain generation) ∉ s.timers.sources) : Fenced s (handle pf o s event) := by
  have timed := recovers.toTimed
  cases event with
  | deviceChanged => exact (audioDeviceChanged_keeps s).fenced timed
  | sinkError sink error => exact (audioSinkError_keeps pf o sink error s).fenced timed
  | sinkExit sink => exact (audioSinkGone_keeps pf o sink s).fenced timed
  | processStopped sink => exact (audioSinkGone_keeps pf o sink s).fenced timed
  | sinkState sink state => exact (audioSinkStateChanged_keeps s sink state).fenced timed
  | start => exact (startReceivingAudio_keeps pf o s).fenced timed
  | startLater => exact (startReceivingAudioLater_keeps s).fenced timed
  | stop => exact (stopReceivingAudio_keeps pf o true true false s).fenced timed
  | suspend => exact (suspend_keeps pf o s).fenced timed
  | resume => exact (resume_keeps pf o s).fenced timed
  | capabilities main serverAudioSend serverAudioEncoders serverAvSync =>
      exact (parseServerCapabilities_keeps pf o main s _ _ _).fenced timed
  | setAvSync delta =>
      have same : Keeps s (handle pf o s (.setAvSync delta)) := by
        cases delta <;> exact .of_same rfl rfl rfl (Nat.le_max_left _ _) rfl rfl rfl
      exact same.fenced timed
  | exit code =>
      have same : Keeps s (handle pf o s (.exit code)) :=
        .of_same rfl rfl rfl (Nat.le_max_left _ _) rfl rfl rfl
      exact same.fenced timed
  | quit code =>
      have exiting : Keeps s { s with exitCode := some (s.exitCode.getD code) } :=
        .of_same rfl rfl rfl (Nat.le_max_left _ _) rfl rfl rfl
      exact (exiting.trans (cleanup_keeps pf o _)).fenced timed
  | fire source => exact fire_keeps pf o recovers fun generation => other source generation rfl

/-! ### The queue while a packet is played -/

theorem startSpeakerFromServer_keeps (pf : Platform) (o : Outside) (main : Bool) (s : AudioClient)
    (codec : String) (generation : Option Nat) :
    Keeps s (startSpeakerFromServer pf o main s codec generation).1 := by
  unfold startSpeakerFromServer
  split
  · exact .refl s
  · split
    · exact stopReceivingAudio_keeps pf o main true false s
    · have started : Keeps s (startAudioSink pf o { startDeviceMonitor pf o
          { s with speakerEnabled := true, speakerRequested := true } with onSinkReady := none }
          codec).1 := by
        refine Keeps.trans (.trans (.trans ?_ (startDeviceMonitor_keeps pf o
          { s with speakerEnabled := true, speakerRequested := true })) ?_)
          (startAudioSink_keeps pf o _ codec)
        · exact .of_same rfl rfl rfl (Nat.le_max_left _ _) rfl rfl rfl
        · exact .of_same rfl rfl rfl (Nat.le_max_left _ _) rfl rfl rfl
      simp only
      split
      · exact started.trans (stopReceivingAudio_keeps pf o main true false _)
      · exact started

theorem playAudioData_keeps (pf : Platform) (o : Outside) (main : Bool) (s : AudioClient) (ss : Sink)
    (codec : String) (data : Bytes) (metadata : Metadata) (packetMetadata : List Bytes)
    (startGeneration : Option Nat) :
    Keeps s (playAudioData pf o main s ss codec data metadata packetMetadata startGeneration) := by
  unfold playAudioData
  split
  · exact stopReceivingAudio_keeps pf o main false _ s
  · split
    · exact stopReceivingAudio_keeps pf o main true false s
    · split
      · exact stopReceivingAudio_keeps pf o main true false s
      · have heard : Keeps s
            (if (data ≠ [] ∨ packetMetadata ≠ []) ∧ s.audioDeviceRecovering = true then
              { s with audioRecoveryData := true }
            else s) := by
          split
          · exact .of_same rfl rfl rfl (Nat.le_max_left _ _) rfl rfl rfl
          · exact .refl s
        refine heard.trans ?_
        generalize (if (data ≠ [] ∨ packetMetadata ≠ []) ∧ s.audioDeviceRecovering = true then
          { s with audioRecoveryData := true } else s) = s'
        simp only
        split
        · exact .of_same rfl rfl rfl (Nat.le_max_left _ _) rfl rfl rfl
        · exact .refl s'

theorem processAudioData_keeps (pf : Platform) (o : Outside) (main : Bool) (s : AudioClient)
    (p : AudioPacket) (startGeneration : Option Nat) :
    Keeps s (processAudioData pf o main s p startGeneration).1 := by
  unfold processAudioData
  split
  · next codec data metadata packetMetadata _ _ _ _ =>
      have counted : Keeps s { s with audioInBytecount := s.audioInBytecount + data.length } :=
        .of_same rfl rfl rfl (Nat.le_max_left _ _) rfl rfl rfl
      refine counted.trans ?_
      generalize { s with audioInBytecount := s.audioInBytecount + data.length } = s
      simp only
      split
      · exact .refl s
      · have started : Keeps s
            (if s.speakerEnabled = true then (s, Outcome.started)
            else if metadata.startOfStream = true then
              startSpeakerFromServer pf o main s metadata.codec startGeneration
            else (s, Outcome.refused)).1 := by
          split
          · exact .refl s
          · split
            · exact startSpeakerFromServer_keeps pf o main s _ _
            · exact .refl s
        generalize (if s.speakerEnabled = true then (s, Outcome.started)
            else if metadata.startOfStream = true then
              startSpeakerFromServer pf o main s metadata.codec startGeneration
            else (s, Outcome.refused)) = result at started ⊢
        split
        · split
          · exact started
          · exact started.trans (playAudioData_keeps pf o main _ _ _ _ _ _ _)
        · exact started
  · exact .refl s

/-! ### Arrivals -/

/-- The five ways of an arrival: the packet is played at once, it cannot be read, it finds no room,
it joins the queue, or it is the first one of the queue. -/
inductive Arrives (s : AudioClient) (p : AudioPacket) : AudioClient × Bool → Prop
  | direct (idle : s.speakerStartPending = false) : Arrives s p (s, true)
  | unreadable : Arrives s p (s, false)
  | full {size bytes : Nat} {queue : List AudioPacket}
      (made : MadeRoom size s.speakerStartPackets queue bytes false) :
      Arrives s p ({ s with speakerStartPackets := queue, speakerStartBytes := bytes }, false)
  | joins {size bytes : Nat} {queue : List AudioPacket} (sized : p.size = some size)
      (small : size ≤ maxSpeakerStartBytes)
      (made : MadeRoom size s.speakerStartPackets queue bytes true)
      (pending : s.speakerStartPending = true) :
      Arrives s p ({ s with
        speakerStartPackets := queue ++ [p]
        speakerStartBytes := bytes + size }, false)
  | opens {size bytes : Nat} {queue : List AudioPacket} (sized : p.size = some size)
      (small : size ≤ maxSpeakerStartBytes)
      (made : MadeRoom size s.speakerStartPackets queue bytes true)
      (idle : s.speakerStartPending = false) :
      Arrives s p ({ s with
        speakerStartPackets := queue ++ [p]
        speakerStartBytes := bytes + size
        speakerStartPending := true
        timers := s.timers.add (.drain s.audioStartGeneration) }, false)

theorem arriveAudioData_arrives {s : AudioClient}
    (counted : s.speakerStartBytes = totalBytes s.speakerStartPackets) (p : AudioPacket) :
    Arrives s p (arriveAudioData s p) := by
  unfold arriveAudioData
  split
  · exact .unreadable
  · next start _ =>
      split
      · unfold queueSpeakerStartPacket
        cases sized : p.size with
        | none => simpa using Arrives.unreadable
        | some size =>
            by_cases big : maxSpeakerStartBytes < size
            · simpa [big] using Arrives.unreadable
            · have small : size ≤ maxSpeakerStartBytes := Nat.le_of_not_lt big
              have made := makeRoom_spec size (s.speakerStartPackets.length + 1) counted
              simp only [if_neg big]
              generalize makeRoom size (s.speakerStartPackets.length + 1) s.speakerStartPackets
                s.speakerStartBytes = result at made ⊢
              obtain ⟨queue, bytes, room⟩ := result
              cases room with
              | false => simpa using Arrives.full made
              | true =>
                  cases pending : s.speakerStartPending with
                  | true => simpa [pending] using Arrives.joins sized small made pending
                  | false => simpa [pending] using Arrives.opens sized small made pending
      · next direct =>
          rw [not_or, Bool.not_eq_true] at direct
          exact .direct direct.1

theorem Arrives.generation {s : AudioClient} {p : AudioPacket} {result : AudioClient × Bool}
    (arrives : Arrives s p result) : result.1.audioStartGeneration = s.audioStartGeneration := by
  cases arrives <;> rfl

/-- A drain is of an earlier generation, or it finds the queue empty, or it takes a packet. -/
inductive Pops (s : AudioClient) (generation : Nat) : AudioClient × Option AudioPacket → Prop
  | stale (earlier : generation ≠ s.audioStartGeneration) : Pops s generation (s, none)
  | ends (current : generation = s.audioStartGeneration) (empty : s.speakerStartPackets = []) :
      Pops s generation ({ s with speakerStartPending := false }, none)
  | takes {p : AudioPacket} {queue : List AudioPacket} (current : generation = s.audioStartGeneration)
      (first : s.speakerStartPackets = p :: queue) :
      Pops s generation ({ s with
        speakerStartPackets := queue
        speakerStartBytes := s.speakerStartBytes - p.bytes }, some p)

theorem popSpeakerStartPacket_pops (s : AudioClient) (generation : Nat) :
    Pops s generation (popSpeakerStartPacket s generation) := by
  unfold popSpeakerStartPacket
  split
  · next earlier => exact .stale earlier
  · next current =>
      rw [not_not] at current
      split
      · next empty => exact .ends current empty
      · next first => exact .takes current first

/-- A stream boundary that is queued stays in the queue when another packet arrives. -/
theorem arriveAudioData_boundary {s : AudioClient}
    (counted : s.speakerStartBytes = totalBytes s.speakerStartPackets) (p : AudioPacket)
    {queued : AudioPacket} (member : queued ∈ s.speakerStartPackets)
    (boundary : queued.boundary = some true) :
    queued ∈ (arriveAudioData s p).1.speakerStartPackets := by
  have arrives := arriveAudioData_arrives counted p
  generalize arriveAudioData s p = result at arrives
  cases arrives with
  | direct => exact member
  | unreadable => exact member
  | full made => exact made.boundaries queued member boundary
  | joins _ _ made _ => exact List.mem_append_left _ (made.boundaries queued member boundary)
  | opens _ _ made _ => exact List.mem_append_left _ (made.boundaries queued member boundary)

/-! ### Runs of two threads -/

/-- A client whose packets arrive in the network thread. -/
structure Receiver where
  client : AudioClient
  /-- how many packets have arrived -/
  arrivals : Nat := 0
  /-- the packet of the network thread -/
  direct : Option AudioPacket := none
  /-- the drain that runs in the main thread, by its generation, and its packet -/
  running : Option (Nat × Option AudioPacket) := none
  /-- the packets that were processed, the latest last -/
  handled : List Nat := []
  /-- how many had arrived at the last cancellation -/
  cancelled : Nat := 0

namespace Receiver

/-- The client after a handler. -/
def after (r : Receiver) (client : AudioClient) : Receiver :=
  { r with
    client
    cancelled := if client.audioStartGeneration = r.client.audioStartGeneration then r.cancelled
      else r.arrivals }

/-- The packet that a drain has taken out of the queue. -/
def popped (r : Receiver) : List AudioPacket :=
  match r.running with
  | some (_, some p) => [p]
  | _ => []

/-- The packets that wait, in the order in which they are processed. -/
def waiting (r : Receiver) : List AudioPacket :=
  r.popped ++ r.client.speakerStartPackets ++ r.direct.toList

def Scheduled (r : Receiver) (generation : Nat) : Prop :=
  ∃ source, (source, .drain generation) ∈ r.client.timers.sources

def Draining (r : Receiver) (generation : Nat) : Prop := ∃ p, r.running = some (generation, p)

end Receiver

inductive Move
  /-- a packet arrives in the network thread -/
  | arrive (p : AudioPacket)
  /-- which processes it -/
  | direct (o : Outside)
  /-- a drain is due -/
  | drain (source : Nat)
  | pop
  | process (o : Outside)
  | event (o : Outside) (event : Event)
  | startLater

/-- The steps of the two threads: the main thread has no other event while it drains the queue. -/
inductive Threads (pf : Platform) : Receiver → Move → Receiver → Prop
  | arrive {r : Receiver} {p : AudioPacket} (threaded : pf.threaded = true) (idle : r.direct = none)
      (number : p.number = r.arrivals) :
      Threads pf r (.arrive p)
        { r.after (arriveAudioData r.client p).1 with
          arrivals := r.arrivals + 1
          direct := if (arriveAudioData r.client p).2 = true then some p else none }
  | direct {r : Receiver} {p : AudioPacket} {o : Outside} (here : r.direct = some p) :
      Threads pf r (.direct o)
        { r.after (processAudioData pf o false r.client p none).1 with
          direct := none
          handled := r.handled ++ [p.number] }
  | drain {r : Receiver} {source generation : Nat} (idle : r.running = none)
      (due : (source, .drain generation) ∈ r.client.timers.sources) :
      Threads pf r (.drain source)
        { r with client := r.client.removeTimer source, running := some (generation, none) }
  | pop {r : Receiver} {generation : Nat} (here : r.running = some (generation, none)) :
      Threads pf r .pop
        { r with
          client := (popSpeakerStartPacket r.client generation).1
          running := (popSpeakerStartPacket r.client generation).2.map fun p => (generation, some p) }
  | process {r : Receiver} {generation : Nat} {p : AudioPacket} {o : Outside}
      (here : r.running = some (generation, some p)) :
      Threads pf r (.process o)
        { r.after (processAudioData pf o true r.client p (some generation)).1 with
          -- an exception ends the drain
          running :=
            if (processAudioData pf o true r.client p (some generation)).2 = .raised then none
            else some (generation, none)
          handled := r.handled ++ [p.number] }
  | event {r : Receiver} {o : Outside} {event : Event} (idle : r.running = none)
      (other : ∀ source generation, event = .fire source →
        (source, .drain generation) ∉ r.client.timers.sources) :
      Threads pf r (.event o event) (r.after (handle pf o r.client event))
  | startLater {r : Receiver} (threaded : pf.threaded = true) :
      Threads pf r .startLater (r.after (startReceivingAudioLater r.client))

/-- The queue between two steps. -/
structure Queues (r : Receiver) : Prop where
  recovers : Recovers r.client
  bytes : r.client.speakerStartBytes = totalBytes r.client.speakerStartPackets
  small : r.client.speakerStartBytes ≤ maxSpeakerStartBytes
  few : r.client.speakerStartPackets.length ≤ maxSpeakerStartPackets
  order : (r.handled ++ r.waiting.map AudioPacket.number).Pairwise (· < ·)
  arrived : ∀ number ∈ r.handled ++ r.waiting.map AudioPacket.number, number < r.arrivals
  later : ∀ p ∈ r.popped ++ r.client.speakerStartPackets, r.cancelled ≤ p.number
  reached : r.cancelled ≤ r.arrivals
  alone : r.direct ≠ none → r.client.speakerStartPending = false
  empty : r.client.speakerStartPending = false → r.client.speakerStartPackets = []
  current : ∀ generation p, r.running = some (generation, some p) →
    generation = r.client.audioStartGeneration
  past : ∀ generation, r.Scheduled generation ∨ r.Draining generation →
    generation ≤ r.client.audioStartGeneration
  pending : r.client.speakerStartPending = true ↔
    r.Scheduled r.client.audioStartGeneration ∨ r.Draining r.client.audioStartGeneration
  once : ∀ source source', (source, .drain r.client.audioStartGeneration) ∈ r.client.timers.sources →
    (source', .drain r.client.audioStartGeneration) ∈ r.client.timers.sources → source = source'
  apart : r.Draining r.client.audioStartGeneration → ¬ r.Scheduled r.client.audioStartGeneration

/-- With nothing taken out of the queue, a handler may cancel it. -/
theorem Queues.after {r : Receiver} (queues : Queues r) {client : AudioClient}
    (fenced : Fenced r.client client) (recovers : Recovers client)
    (put : r.popped = [] ∨ client.audioStartGeneration = r.client.audioStartGeneration) :
    Queues (r.after client) := by
  have scheduled (generation : Nat) : (r.after client).Scheduled generation ↔ r.Scheduled generation :=
    exists_congr fun source => fenced.drains source generation
  have taken : (r.after client).popped = r.popped := rfl
  rcases fenced.queue with ⟨same, packets, bytes, pending⟩ | ⟨later, packets, bytes, pending⟩
  · have waiting : (r.after client).waiting = r.waiting :=
      congrArg (fun queue => r.popped ++ queue ++ r.direct.toList) packets
    have cancelled : (r.after client).cancelled = r.cancelled := if_pos same
    have here : (r.after client).client.audioStartGeneration = r.client.audioStartGeneration := same
    constructor
    · exact recovers
    · exact bytes.trans (queues.bytes.trans (congrArg totalBytes packets.symm))
    · exact Nat.le_trans (Nat.le_of_eq bytes) queues.small
    · exact Nat.le_trans (Nat.le_of_eq (congrArg List.length packets)) queues.few
    · rw [waiting]
      exact queues.order
    · rw [waiting]
      exact queues.arrived
    · rw [cancelled, taken]
      change ∀ p ∈ r.popped ++ client.speakerStartPackets, r.cancelled ≤ p.number
      rw [packets]
      exact queues.later
    · rw [cancelled]
      exact queues.reached
    · exact fun direct => pending.trans (queues.alone direct)
    · exact fun idle => packets.trans (queues.empty (pending.symm.trans idle))
    · rw [here]
      exact queues.current
    · intro generation drain
      rw [scheduled] at drain
      rw [here]
      exact queues.past generation drain
    · rw [here, scheduled]
      exact (Bool.eq_iff_iff.mp pending).trans queues.pending
    · rw [here]
      intro source source' one two
      exact queues.once source source' ((fenced.drains _ _).mp one) ((fenced.drains _ _).mp two)
    · rw [here, scheduled]
      exact queues.apart
  · have put : r.popped = [] := put.resolve_right fun same => Nat.ne_of_gt later same
    have none (generation : Nat) (drain : r.Scheduled generation ∨ r.Draining generation) :
        generation < client.audioStartGeneration :=
      Nat.lt_of_le_of_lt (queues.past generation drain) later
    have waiting : (r.after client).waiting = r.direct.toList := by
      unfold Receiver.waiting
      rw [taken, put]
      change [] ++ client.speakerStartPackets ++ r.direct.toList = r.direct.toList
      rw [packets]
      rfl
    have fewer : (r.direct.toList.map AudioPacket.number).Sublist
        (r.waiting.map AudioPacket.number) :=
      (List.sublist_append_right _ _).map AudioPacket.number
    constructor
    · exact recovers
    · change client.speakerStartBytes = totalBytes client.speakerStartPackets
      rw [bytes, packets]
      rfl
    · exact Nat.le_trans (Nat.le_of_eq bytes) (Nat.zero_le _)
    · exact Nat.le_trans (Nat.le_of_eq (congrArg List.length packets)) (Nat.zero_le _)
    · rw [waiting]
      exact queues.order.sublist (fewer.append_left _)
    · rw [waiting]
      intro number member
      exact queues.arrived number ((fewer.append_left _).subset member)
    · rw [taken, put]
      change ∀ p ∈ [] ++ client.speakerStartPackets, _
      rw [packets]
      nofun
    · change (if _ then _ else _) ≤ r.arrivals
      split
      · exact queues.reached
      · exact Nat.le_refl _
    · exact fun _ => pending
    · exact fun _ => packets
    · intro generation p running
      have member : p ∈ r.popped := by
        unfold Receiver.popped
        rw [show r.running = some (generation, some p) from running]
        exact List.mem_singleton.mpr rfl
      rw [put] at member
      cases member
    · intro generation drain
      rw [scheduled] at drain
      exact Nat.le_of_lt (none generation drain)
    · constructor
      · intro set
        rw [show (r.after client).client.speakerStartPending = false from pending] at set
        cases set
      · intro drain
        rw [scheduled] at drain
        exact absurd (none _ drain) (Nat.lt_irrefl _)
    · intro source _ one _
      exact absurd (none _ (.inl ⟨source, (fenced.drains _ _).mp one⟩)) (Nat.lt_irrefl _)
    · intro drain
      exact absurd (none _ (.inr drain)) (Nat.lt_irrefl _)

/-- The packet of the main thread has been processed. -/
theorem Queues.processed {r : Receiver} (queues : Queues r) {generation : Nat} {p : AudioPacket}
    (here : r.running = some (generation, some p)) :
    Queues { r with running := some (generation, none), handled := r.handled ++ [p.number] } := by
  have taken : r.popped = [p] := by rw [Receiver.popped, here]
  have same : (r.handled ++ [p.number]) ++
      (Receiver.waiting { r with running := some (generation, none),
                                 handled := r.handled ++ [p.number] }).map AudioPacket.number =
      r.handled ++ r.waiting.map AudioPacket.number := by
    simp [Receiver.waiting, Receiver.popped, here]
  have draining (generation' : Nat) :
      Receiver.Draining { r with running := some (generation, none),
                                 handled := r.handled ++ [p.number] } generation' ↔
        r.Draining generation' := by
    simp [Receiver.Draining, here]
  constructor
  · exact queues.recovers
  · exact queues.bytes
  · exact queues.small
  · exact queues.few
  · rw [same]
    exact queues.order
  · rw [same]
    exact queues.arrived
  · intro p' member
    refine queues.later p' ?_
    rw [taken]
    exact List.mem_append_right _ member
  · exact queues.reached
  · exact queues.alone
  · exact queues.empty
  · nofun
  · intro generation' drain
    rw [draining] at drain
    exact queues.past generation' drain
  · rw [draining]
    exact queues.pending
  · exact queues.once
  · rw [draining]
    exact queues.apart

/-- The packet of the network thread has been processed: nothing else waits. -/
theorem Queues.played {r : Receiver} (queues : Queues r) {p : AudioPacket}
    (here : r.direct = some p) :
    r.popped = [] ∧ Queues { r with direct := none, handled := r.handled ++ [p.number] } := by
  have idle : r.client.speakerStartPending = false :=
    queues.alone (by rw [here]; exact Option.some_ne_none p)
  have taken : r.popped = [] := by
    unfold Receiver.popped
    split
    · next generation p' running =>
        have draining : r.Draining r.client.audioStartGeneration :=
          ⟨some p', (queues.current generation p' running) ▸ running⟩
        rw [queues.pending.mpr (.inr draining)] at idle
        cases idle
    · rfl
  refine ⟨taken, ?_⟩
  have same : (r.handled ++ [p.number]) ++
      (Receiver.waiting { r with direct := none,
                                 handled := r.handled ++ [p.number] }).map AudioPacket.number =
      r.handled ++ r.waiting.map AudioPacket.number := by
    have put : Receiver.popped { r with direct := none, handled := r.handled ++ [p.number] } = [] :=
      taken
    simp [Receiver.waiting, taken, put, queues.empty idle, here]
  constructor
  · exact queues.recovers
  · exact queues.bytes
  · exact queues.small
  · exact queues.few
  · rw [same]
    exact queues.order
  · rw [same]
    exact queues.arrived
  · exact queues.later
  · exact queues.reached
  · exact fun other => absurd rfl other
  · exact queues.empty
  · exact queues.current
  · exact queues.past
  · exact queues.pending
  · exact queues.once
  · exact queues.apart

theorem Queues.drain {r : Receiver} (queues : Queues r) {source generation : Nat}
    (idle : r.running = none) (due : (source, .drain generation) ∈ r.client.timers.sources) :
    Queues { r with client := r.client.removeTimer source, running := some (generation, none) } := by
  have stopped (generation' : Nat) : ¬ r.Draining generation' := by
    rintro ⟨p, running⟩
    rw [idle] at running
    cases running
  have taken : r.popped = [] := by rw [Receiver.popped, idle]
  have old : generation ≤ r.client.audioStartGeneration := queues.past generation (.inl ⟨source, due⟩)
  have fewer (generation' : Nat) :
      Receiver.Scheduled { r with client := r.client.removeTimer source,
                                  running := some (generation, none) } generation' →
        r.Scheduled generation' := by
    rintro ⟨source', member⟩
    exact ⟨source', (Sources.mem_remove.mp member).1⟩
  have draining (generation' : Nat) :
      Receiver.Draining { r with client := r.client.removeTimer source,
                                 running := some (generation, none) } generation' ↔
        generation = generation' := by
    constructor
    · rintro ⟨p, running⟩
      cases running
      rfl
    · rintro rfl
      exact ⟨none, rfl⟩
  constructor
  · exact (remove_quiet due rfl).handled.recovers queues.recovers
  · exact queues.bytes
  · exact queues.small
  · exact queues.few
  · have order := queues.order
    unfold Receiver.waiting at order ⊢
    rw [taken] at order
    exact order
  · have arrived := queues.arrived
    unfold Receiver.waiting at arrived ⊢
    rw [taken] at arrived
    exact arrived
  · have later := queues.later
    rw [taken] at later
    exact later
  · exact queues.reached
  · exact queues.alone
  · exact queues.empty
  · nofun
  · rintro generation' (scheduled | running)
    · exact queues.past generation' (.inl (fewer generation' scheduled))
    · rw [← (draining generation').mp running]
      exact old
  · refine queues.pending.trans ?_
    constructor
    · rintro (⟨source', member⟩ | running)
      · by_cases same : source' = source
        · right
          rw [same] at member
          have callbacks := Sources.callback_unique due member
          cases callbacks
          exact ⟨none, rfl⟩
        · exact .inl ⟨source', Sources.mem_remove.mpr ⟨member, same⟩⟩
      · exact absurd running (stopped _)
    · rintro (scheduled | running)
      · exact .inl (fewer _ scheduled)
      · left
        have equal : generation = r.client.audioStartGeneration := (draining _).mp running
        exact ⟨source, equal ▸ due⟩
  · intro one two first second
    exact queues.once one two (Sources.mem_remove.mp first).1 (Sources.mem_remove.mp second).1
  · rintro running ⟨source', member⟩
    obtain ⟨member, other⟩ := Sources.mem_remove.mp member
    have equal : generation = r.client.audioStartGeneration := (draining _).mp running
    exact other (queues.once source' source member (equal ▸ due))

/-- The queue is no part of the recovery. -/
theorem queue_quiet (s : AudioClient) (speakerStartPackets : List AudioPacket)
    (speakerStartBytes : Nat) (speakerStartPending : Bool) :
    Quiet s { s with speakerStartPackets, speakerStartBytes, speakerStartPending } :=
  .of_same rfl rfl rfl rfl rfl rfl rfl (Nat.le_refl _) id

theorem Queues.pop {r : Receiver} (queues : Queues r) {generation : Nat}
    (here : r.running = some (generation, none)) :
    Queues { r with
      client := (popSpeakerStartPacket r.client generation).1
      running := (popSpeakerStartPacket r.client generation).2.map fun p => (generation, some p) } := by
  have taken : r.popped = [] := by rw [Receiver.popped, here]
  have order := queues.order
  have arrived := queues.arrived
  have later := queues.later
  unfold Receiver.waiting at order arrived
  rw [taken] at order arrived later
  have pops := popSpeakerStartPacket_pops r.client generation
  generalize popSpeakerStartPacket r.client generation = result at pops ⊢
  cases pops with
  | stale earlier =>
      refine ⟨queues.recovers, queues.bytes, queues.small, queues.few, order, arrived, later,
        queues.reached, queues.alone, queues.empty, nofun, ?_, ?_, queues.once, nofun⟩
      · rintro generation' (scheduled | ⟨_, running⟩)
        · exact queues.past generation' (.inl scheduled)
        · cases running
      · refine queues.pending.trans ?_
        constructor
        · rintro (scheduled | ⟨p, running⟩)
          · exact .inl scheduled
          · rw [here] at running
            cases running
            exact absurd rfl earlier
        · rintro (scheduled | ⟨_, running⟩)
          · exact .inl scheduled
          · cases running
  | ends current empty =>
      have unscheduled := queues.apart ⟨none, current ▸ here⟩
      have quiet := queue_quiet r.client r.client.speakerStartPackets r.client.speakerStartBytes false
      refine ⟨quiet.handled.recovers queues.recovers, queues.bytes, queues.small, queues.few, order,
        arrived, later, queues.reached, fun _ => rfl, fun _ => empty, nofun, ?_, ?_, queues.once,
        nofun⟩
      · rintro generation' (scheduled | ⟨_, running⟩)
        · exact queues.past generation' (.inl scheduled)
        · cases running
      · constructor
        · nofun
        · rintro (scheduled | ⟨_, running⟩)
          · exact absurd scheduled unscheduled
          · cases running
  | takes current first =>
      have draining : r.Draining r.client.audioStartGeneration := ⟨none, current ▸ here⟩
      have unscheduled := queues.apart draining
      have pending := queues.pending.mpr (.inr draining)
      have counted := queues.bytes
      have few := queues.few
      rw [first] at order arrived later counted few
      rw [totalBytes_cons] at counted
      rw [List.length_cons] at few
      refine ⟨?_, ?_, ?_, ?_, order, arrived, later, queues.reached, queues.alone, ?_, ?_, ?_, ?_,
        queues.once, fun _ => unscheduled⟩
      · exact (queue_quiet r.client _ _ _).handled.recovers queues.recovers
      · rw [counted, Nat.add_sub_cancel_left]
      · exact Nat.le_trans (Nat.sub_le _ _) queues.small
      · exact Nat.le_of_succ_le few
      · intro idle
        rw [pending] at idle
        cases idle
      · intro generation' p' running
        cases running
        exact current
      · rintro generation' (scheduled | ⟨_, running⟩)
        · exact queues.past generation' (.inl scheduled)
        · cases running
          exact Nat.le_of_eq current
      · refine ⟨fun _ => .inr ?_, fun _ => pending⟩
        rw [← current]
        exact ⟨_, rfl⟩

/-- A packet that arrives is the latest one. -/
theorem Queues.sorted {r : Receiver} (queues : Queues r) (r' : Receiver) {p : AudioPacket}
    (number : p.number = r.arrivals) (handled : r'.handled = r.handled)
    (arrivals : r'.arrivals = r.arrivals + 1)
    (waiting : r'.waiting.Sublist (r.waiting ++ [p])) :
    (r'.handled ++ r'.waiting.map AudioPacket.number).Pairwise (· < ·) ∧
      ∀ number ∈ r'.handled ++ r'.waiting.map AudioPacket.number, number < r'.arrivals := by
  have fewer : (r'.handled ++ r'.waiting.map AudioPacket.number).Sublist
      ((r.handled ++ r.waiting.map AudioPacket.number) ++ [p.number]) := by
    rw [handled, List.append_assoc]
    apply List.Sublist.append_left
    have mapped := waiting.map AudioPacket.number
    rw [List.map_append] at mapped
    exact mapped
  constructor
  · refine List.Pairwise.sublist fewer (List.pairwise_append.mpr ⟨queues.order, ?_, ?_⟩)
    · exact List.pairwise_singleton _ _
    · intro earlier member latest here
      rw [List.mem_singleton.mp here, number]
      exact queues.arrived earlier member
  · intro one member
    rw [arrivals]
    rcases List.mem_append.mp (fewer.subset member) with old | new
    · exact Nat.lt_succ_of_lt (queues.arrived one old)
    · rw [List.mem_singleton.mp new, number]
      exact Nat.lt_succ_self _

/-- The queue has changed, and no drain. -/
theorem Queues.requeued {r : Receiver} (queues : Queues r) {p : AudioPacket}
    (idle : r.direct = none) (number : p.number = r.arrivals) {queue : List AudioPacket} {bytes : Nat}
    {direct : Option AudioPacket} (counted : bytes = totalBytes queue)
    (small : bytes ≤ maxSpeakerStartBytes) (few : queue.length ≤ maxSpeakerStartPackets)
    (fewer : (queue ++ direct.toList).Sublist (r.client.speakerStartPackets ++ [p]))
    (alone : direct ≠ none → r.client.speakerStartPending = false)
    (empty : r.client.speakerStartPending = false → queue = []) :
    Queues { r with
      client := { r.client with speakerStartPackets := queue, speakerStartBytes := bytes }
      arrivals := r.arrivals + 1
      direct } := by
  have sorted := queues.sorted
    { r with
      client := { r.client with speakerStartPackets := queue, speakerStartBytes := bytes }
      arrivals := r.arrivals + 1
      direct } number rfl rfl (by
        unfold Receiver.waiting
        rw [idle, Option.toList_none, List.append_nil, List.append_assoc, List.append_assoc]
        exact fewer.append_left r.popped)
  constructor
  · exact (queue_quiet r.client queue bytes r.client.speakerStartPending).handled.recovers
      queues.recovers
  · exact counted
  · exact small
  · exact few
  · exact sorted.1
  · exact sorted.2
  · intro p' member
    rcases List.mem_append.mp member with taken | queued
    · exact queues.later p' (List.mem_append_left _ taken)
    · rcases List.mem_append.mp (fewer.subset (List.mem_append_left _ queued)) with old | new
      · exact queues.later p' (List.mem_append_right _ old)
      · rw [List.mem_singleton.mp new, number]
        exact queues.reached
  · exact Nat.le_succ_of_le queues.reached
  · exact alone
  · exact empty
  · exact queues.current
  · exact queues.past
  · exact queues.pending
  · exact queues.once
  · exact queues.apart

/-- The first packet of the queue, with its drain. -/
theorem Queues.opened {r : Receiver} (queues : Queues r) {p : AudioPacket} (idle : r.direct = none)
    (number : p.number = r.arrivals) (unset : r.client.speakerStartPending = false)
    (small : p.bytes ≤ maxSpeakerStartBytes) :
    Queues { r with
      client := { r.client with
        speakerStartPackets := [p]
        speakerStartBytes := p.bytes
        speakerStartPending := true
        timers := r.client.timers.add (.drain r.client.audioStartGeneration) }
      arrivals := r.arrivals + 1
      direct := none } := by
  have none (drain : r.Scheduled r.client.audioStartGeneration ∨
      r.Draining r.client.audioStartGeneration) : False := by
    rw [queues.pending.mpr drain] at unset
    cases unset
  have sorted := queues.sorted
    { r with
      client := { r.client with
        speakerStartPackets := [p]
        speakerStartBytes := p.bytes
        speakerStartPending := true
        timers := r.client.timers.add (.drain r.client.audioStartGeneration) }
      arrivals := r.arrivals + 1
      direct := .none } number rfl rfl (by
        unfold Receiver.waiting
        rw [idle, queues.empty unset, Option.toList_none, List.append_nil, List.append_nil]
        rw [List.append_nil]
        exact .refl _)
  constructor
  · have quiet := (queue_quiet r.client [p] p.bytes true).trans
      (add_quiet _ (.drain r.client.audioStartGeneration) rfl)
    exact quiet.handled.recovers queues.recovers
  · exact (totalBytes_cons p []).symm
  · exact small
  · exact Nat.succ_pos 255
  · exact sorted.1
  · exact sorted.2
  · intro p' member
    rcases List.mem_append.mp member with taken | queued
    · exact queues.later p' (List.mem_append_left _ taken)
    · rw [List.mem_singleton.mp queued, number]
      exact queues.reached
  · exact Nat.le_succ_of_le queues.reached
  · exact fun other => absurd rfl other
  · nofun
  · exact queues.current
  · rintro generation (⟨source, member⟩ | draining)
    · rcases Sources.mem_add.mp member with old | new
      · exact queues.past generation (.inl ⟨source, old⟩)
      · cases new
        exact Nat.le_refl _
    · exact queues.past generation (.inr draining)
  · exact ⟨fun _ => .inl ⟨r.client.timers.next, Sources.mem_add.mpr (.inr rfl)⟩, fun _ => rfl⟩
  · intro source source' one two
    rcases Sources.mem_add.mp one with old | new
    · exact (none (.inl ⟨source, old⟩)).elim
    · rcases Sources.mem_add.mp two with old' | new'
      · exact (none (.inl ⟨source', old'⟩)).elim
      · cases new
        cases new'
        rfl
  · exact fun draining => (none (.inr draining)).elim

theorem Queues.arrive {r : Receiver} (queues : Queues r) {p : AudioPacket} (idle : r.direct = none)
    (number : p.number = r.arrivals) :
    Queues { r.after (arriveAudioData r.client p).1 with
      arrivals := r.arrivals + 1
      direct := if (arriveAudioData r.client p).2 = true then some p else none } := by
  have arrives := arriveAudioData_arrives queues.bytes p
  generalize arriveAudioData r.client p = result at arrives ⊢
  have same : r.after result.1 = { r with client := result.1 } := by
    unfold Receiver.after
    rw [if_pos arrives.generation]
  rw [same]
  cases arrives with
  | direct pending =>
      exact queues.requeued idle number queues.bytes queues.small queues.few (.refl _)
        (fun _ => pending) queues.empty
  | unreadable =>
      refine queues.requeued idle number queues.bytes queues.small queues.few ?_ nofun queues.empty
      exact (List.append_nil _).symm ▸ List.sublist_append_left _ _
  | full made =>
      refine queues.requeued idle number made.bytes ?_ ?_ ?_ nofun ?_
      · rw [made.bytes]
        exact Nat.le_trans (totalBytes_sublist made.sublist) (queues.bytes ▸ queues.small)
      · exact Nat.le_trans made.sublist.length_le queues.few
      · rw [if_neg Bool.false_ne_true, Option.toList_none, List.append_nil]
        exact made.sublist.trans (List.sublist_append_left _ _)
      · intro unset
        exact List.sublist_nil.mp (queues.empty unset ▸ made.sublist)
  | joins sized small made pending =>
      obtain ⟨few, fits⟩ := made.room rfl small
      refine queues.requeued idle number ?_ fits ?_ ?_ nofun ?_
      · rw [totalBytes_concat, made.bytes, AudioPacket.bytes, sized]
        rfl
      · rw [List.length_append]
        exact few
      · rw [if_neg Bool.false_ne_true, Option.toList_none, List.append_nil]
        exact made.sublist.append (.refl _)
      · intro unset
        rw [pending] at unset
        cases unset
  | @opens size bytes queue sized small made unset =>
      have counted : bytes = totalBytes queue := made.bytes
      have nothing : queue = [] := List.sublist_nil.mp (queues.empty unset ▸ made.sublist)
      have sum : bytes + size = p.bytes := by
        rw [counted, nothing, AudioPacket.bytes, sized, totalBytes, List.map_nil, List.sum_nil,
          Nat.zero_add]
        rfl
      rw [sum, nothing]
      refine queues.opened idle number unset ?_
      rw [AudioPacket.bytes, sized]
      exact small

/-! ### Packets that end a drain -/

theorem startDeviceMonitor_sink (pf : Platform) (o : Outside) (s : AudioClient) :
    (startDeviceMonitor pf o s).audioSink = s.audioSink := by
  have cancelled (s : AudioClient) : (cancelMonitorRetry s).audioSink = s.audioSink := by
    unfold cancelMonitorRetry
    split <;> rfl
  have run (s : AudioClient) (monitor : Nat) : (runMonitor o s monitor).audioSink = s.audioSink := by
    unfold runMonitor
    cases o.monitorStart with
    | started => exact cancelled _
    | failed =>
        simp only
        split <;> rfl
    | stuck =>
        simp only
        split <;> rfl
  unfold startDeviceMonitor
  split
  · split
    · split
      · rfl
      · exact run s _
    · exact run _ _
  · rfl

theorem startAudioSink_raised (pf : Platform) (o : Outside) (s : AudioClient) (codec : String) :
    (startAudioSink pf o s codec).2 = .raised ↔ s.audioSink.isSome = true := by
  unfold startAudioSink
  split
  · next present => exact ⟨fun _ => present, fun _ => rfl⟩
  · next absent =>
      constructor
      · cases o.sinkStart <;> nofun
      · exact fun present => absurd present absent

theorem startSpeakerFromServer_raised (pf : Platform) (o : Outside) (main : Bool) (s : AudioClient)
    (codec : String) :
    (startSpeakerFromServer pf o main s codec (some s.audioStartGeneration)).2 = .raised ↔
      s.speakerAllowed = true ∧ s.audioSink.isSome = true := by
  unfold startSpeakerFromServer
  rw [if_neg (by rw [not_and_or, not_not, not_not]; exact .inr rfl)]
  by_cases refused : s.speakerAllowed = false
  · rw [if_pos refused, refused]
    exact ⟨nofun, fun both => absurd both.1 Bool.false_ne_true⟩
  · rw [if_neg refused]
    rw [Bool.not_eq_false] at refused
    have raised := startAudioSink_raised pf o { startDeviceMonitor pf o
      { s with speakerEnabled := true, speakerRequested := true } with onSinkReady := none } codec
    rw [show AudioClient.audioSink { startDeviceMonitor pf o
      { s with speakerEnabled := true, speakerRequested := true } with onSinkReady := none } =
        s.audioSink from startDeviceMonitor_sink pf o _] at raised
    simp only
    split
    · next stopped =>
        rw [stopped.1] at raised
        constructor
        · nofun
        · intro both
          exact absurd (raised.mpr both.2) nofun
    · rw [raised]
      exact ⟨fun present => ⟨refused, present⟩, fun both => both.2⟩

/-- A packet of which an element cannot be read, or that starts a stream while the client still has a
sink, although its speaker is disabled. -/
def Unplayable (s : AudioClient) (p : AudioPacket) : Prop :=
  match p.codec, p.data, p.metadata, p.packetMetadata with
  | some _, some _, some metadata, some _ =>
      ¬ (0 < s.audioSinkSequence ∧ 0 ≤ metadata.sequence ∧ metadata.sequence < s.audioSinkSequence) ∧
        s.speakerEnabled = false ∧ metadata.startOfStream = true ∧ s.speakerAllowed = true ∧
        s.audioSink.isSome = true
  | _, _, _, _ => True

theorem processAudioData_raised (pf : Platform) (o : Outside) (main : Bool) (s : AudioClient)
    (p : AudioPacket) :
    (processAudioData pf o main s p (some s.audioStartGeneration)).2 = .raised ↔ Unplayable s p := by
  unfold processAudioData Unplayable
  cases p.codec with
  | none => exact ⟨fun _ => trivial, fun _ => rfl⟩
  | some codec =>
  cases p.data with
  | none => exact ⟨fun _ => trivial, fun _ => rfl⟩
  | some data =>
  cases p.metadata with
  | none => exact ⟨fun _ => trivial, fun _ => rfl⟩
  | some metadata =>
  cases p.packetMetadata with
  | none => exact ⟨fun _ => trivial, fun _ => rfl⟩
  | some packetMetadata =>
      simp only
      by_cases old : 0 < s.audioSinkSequence ∧ 0 ≤ metadata.sequence ∧
          metadata.sequence < s.audioSinkSequence
      · rw [if_pos old]
        exact ⟨nofun, fun new => absurd old new.1⟩
      · rw [if_neg old]
        by_cases enabled : s.speakerEnabled = true
        · rw [if_pos enabled, enabled]
          simp only
          constructor
          · cases s.audioSink <;> nofun
          · exact fun all => absurd all.2.1 (Bool.false_ne_true ∘ Eq.symm)
        · rw [if_neg enabled]
          rw [Bool.not_eq_true] at enabled
          by_cases start : metadata.startOfStream = true
          · have raised := startSpeakerFromServer_raised pf o main
              { s with audioInBytecount := s.audioInBytecount + data.length } metadata.codec
            rw [if_pos start]
            generalize startSpeakerFromServer pf o main
              { s with audioInBytecount := s.audioInBytecount + data.length } metadata.codec
              (some s.audioStartGeneration) = result at raised ⊢
            obtain ⟨s', outcome⟩ := result
            cases outcome with
            | raised =>
                have both := raised.mp rfl
                exact ⟨fun _ => ⟨old, enabled, start, both⟩, fun _ => rfl⟩
            | started =>
                constructor
                · simp only
                  cases s'.audioSink <;> nofun
                · exact fun all => absurd (raised.mpr all.2.2.2) nofun
            | refused => exact ⟨nofun, fun all => absurd (raised.mpr all.2.2.2) nofun⟩
          · rw [if_neg start]
            exact ⟨nofun, fun all => absurd all.2.2.1 start⟩

/-! ### Packets of an earlier generation -/

theorem stopReceivingAudio_nextSink (pf : Platform) (o : Outside)
    (main tellServer preserveStartPackets : Bool) (s : AudioClient) :
    (stopReceivingAudio pf o main tellServer preserveStartPackets s).nextSink = s.nextSink := by
  have cancelled (s : AudioClient) : (cancelMonitorRetry s).nextSink = s.nextSink := by
    unfold cancelMonitorRetry
    split <;> rfl
  have monitor (s : AudioClient) : (stopDeviceMonitor pf o main s).nextSink = s.nextSink := by
    have same := cancelled s
    unfold stopDeviceMonitor stopDeviceMonitorOnMain
    generalize cancelMonitorRetry s = s' at same ⊢
    simp only
    split
    · exact same
    · split
      · exact same
      · split
        · exact same
        · split <;> exact same
  rw [stopReceivingAudio, dropSink_eq]
  simp only
  rw [endRecovery_eq, monitor, cancelDeviceRestart_eq]
  unfold clearRecovery
  split <;> rfl

theorem playAudioData_nextSink (pf : Platform) (o : Outside) (main : Bool) (s : AudioClient)
    (ss : Sink) (codec : String) (data : Bytes) (metadata : Metadata) (packetMetadata : List Bytes)
    (startGeneration : Option Nat) :
    (playAudioData pf o main s ss codec data metadata packetMetadata startGeneration).nextSink =
      s.nextSink := by
  unfold playAudioData
  split
  · exact stopReceivingAudio_nextSink _ _ _ _ _ _
  · split
    · exact stopReceivingAudio_nextSink _ _ _ _ _ _
    · split
      · exact stopReceivingAudio_nextSink _ _ _ _ _ _
      · have same : (if (data ≠ [] ∨ packetMetadata ≠ []) ∧ s.audioDeviceRecovering = true then
            { s with audioRecoveryData := true } else s).nextSink = s.nextSink := by
          split <;> rfl
        simp only
        generalize (if (data ≠ [] ∨ packetMetadata ≠ []) ∧ s.audioDeviceRecovering = true then
          { s with audioRecoveryData := true } else s) = s' at same ⊢
        split <;> exact same

/-- A packet that a cancelled drain has taken starts no sink. -/
theorem processAudioData_stale (pf : Platform) (o : Outside) (main : Bool) (s : AudioClient)
    (p : AudioPacket) {generation : Nat} (stale : generation ≠ s.audioStartGeneration) :
    (processAudioData pf o main s p (some generation)).1.nextSink = s.nextSink := by
  unfold processAudioData
  split
  · next data metadata _ _ _ _ _ =>
      have refused (codec : String) : startSpeakerFromServer pf o main
          { s with audioInBytecount := s.audioInBytecount + data.length } codec (some generation) =
          ({ s with audioInBytecount := s.audioInBytecount + data.length }, .refused) := by
        unfold startSpeakerFromServer
        rw [if_pos]
        refine ⟨Option.some_ne_none _, ?_⟩
        intro same
        exact stale (Option.some.inj same)
      simp only [refused]
      split
      · rfl
      · by_cases enabled : s.speakerEnabled = true
        · rw [if_pos enabled]
          simp only
          split
          · rfl
          · exact playAudioData_nextSink _ _ _ _ _ _ _ _ _ _
        · rw [if_neg enabled, ite_self]
  · rfl

/-! ### All runs -/

/-- No drain takes a packet that ends it. -/
def Playable (r : Receiver) : Move → Prop
  | .process _ => ∀ p ∈ r.popped, ¬ Unplayable r.client p
  | _ => True

theorem Queues.step {pf : Platform} {r r' : Receiver} {move : Move} (queues : Queues r)
    (step : Threads pf r move r') (playable : Playable r move) : Queues r' := by
  cases step with
  | arrive _ idle number => exact queues.arrive idle number
  | @direct p o here =>
      obtain ⟨taken, played⟩ := queues.played here
      have keeps := processAudioData_keeps pf o false r.client p none
      have handled := processAudioData_handled pf o false queues.recovers.toSound p none
      exact played.after (keeps.fenced queues.recovers.toTimed) (handled.recovers queues.recovers)
        (.inl taken)
  | drain idle due => exact queues.drain idle due
  | pop here => exact queues.pop here
  | @process generation p o here =>
      have member : p ∈ r.popped := by
        rw [Receiver.popped, here]
        exact List.mem_singleton.mpr rfl
      have current := queues.current generation p here
      have kept : (processAudioData pf o true r.client p (some generation)).2 ≠ .raised := by
        rw [current]
        exact fun raised => playable p member ((processAudioData_raised pf o true r.client p).mp raised)
      rw [if_neg kept]
      have keeps := processAudioData_keeps pf o true r.client p (some generation)
      have handled := processAudioData_handled pf o true queues.recovers.toSound p (some generation)
      exact (queues.processed here).after (keeps.fenced queues.recovers.toTimed)
        (handled.recovers queues.recovers) (.inl rfl)
  | @event o event idle other =>
      refine queues.after (handle_fenced pf o queues.recovers other)
        ((handle_handled pf o queues.recovers event).recovers queues.recovers) (.inl ?_)
      rw [Receiver.popped, idle]
  | startLater _ =>
      refine queues.after ((startReceivingAudioLater_keeps _).fenced queues.recovers.toTimed)
        ((startReceivingAudioLater_quiet _).handled.recovers queues.recovers) (.inr ?_)
      unfold startReceivingAudioLater
      simp only
      split <;> rfl

/-- A client of which no packet has arrived. -/
def Listening (r : Receiver) : Prop := ∃ client, Created client ∧ r = { client }

theorem listening_queues {r : Receiver} (listening : Listening r) : Queues r := by
  obtain ⟨client, created, rfl⟩ := listening
  have recovers := created_recovers created
  obtain ⟨allowed, enabled, codecs, avSync, delta, rfl⟩ := created
  constructor
  · exact recovers
  · rfl
  · exact Nat.zero_le _
  · exact Nat.zero_le _
  · exact List.Pairwise.nil
  · nofun
  · nofun
  · exact Nat.le_refl _
  · exact fun other => absurd rfl other
  · exact fun _ => rfl
  · nofun
  · rintro generation (⟨_, member⟩ | ⟨_, running⟩)
    · cases member
    · cases running
  · constructor
    · nofun
    · rintro (⟨_, member⟩ | ⟨_, running⟩)
      · cases member
      · cases running
  · nofun
  · nofun

/-- What the queue of the speaker guarantees. -/
structure InOrder (pf : Platform) (r : Receiver) : Prop where
  bytes : r.client.speakerStartBytes = totalBytes r.client.speakerStartPackets
  small : r.client.speakerStartBytes ≤ maxSpeakerStartBytes
  few : r.client.speakerStartPackets.length ≤ maxSpeakerStartPackets
  boundaries : ∀ p, ∀ queued ∈ r.client.speakerStartPackets, queued.boundary = some true →
    queued ∈ (arriveAudioData r.client p).1.speakerStartPackets
  order : (r.handled ++ r.waiting.map AudioPacket.number).Pairwise (· < ·)
  pending : r.client.speakerStartPending = true ↔
    r.Scheduled r.client.audioStartGeneration ∨ r.Draining r.client.audioStartGeneration
  /-- nothing is left of what was queued before a cancellation -/
  later : ∀ p ∈ r.popped ++ r.client.speakerStartPackets, r.cancelled ≤ p.number
  stale : ∀ o main p generation, generation ≠ r.client.audioStartGeneration →
    (processAudioData pf o main r.client p (some generation)).1.nextSink = r.client.nextSink

/-- As long as no drain takes a packet that ends it. -/
theorem speaker_queue (pf : Platform) {r : Receiver}
    (reachable : Reachable Listening
      (fun r move r' => Threads pf r move r' ∧ Playable r move) r) : InOrder pf r := by
  have queues : Queues r := by
    refine reachable.invariant (fun r listening => listening_queues listening) ?_
    rintro r move r' queues ⟨step, playable⟩
    exact queues.step step playable
  constructor
  · exact queues.bytes
  · exact queues.small
  · exact queues.few
  · intro p queued member boundary
    exact arriveAudioData_boundary queues.bytes p member boundary
  · exact queues.order
  · exact queues.pending
  · exact queues.later
  · intro o main p generation stale
    exact processAudioData_stale pf o main r.client p stale

/-- The client that packets arrive for, with its speaker off. -/
def listener : Receiver := { client := .create true false ["opus"] false 0 }

/-- The start of a stream, with the codec or without one. -/
def streamStart (codec : Option String) : AudioPacket :=
  ⟨0, some 0, codec, some [], some ⟨true, false, -1, "opus"⟩, some []⟩

/-- The receiver when the start of a stream has arrived. -/
def arrived (codec : Option String) : Receiver :=
  { listener.after (arriveAudioData listener.client (streamStart codec)).1 with arrivals := 1 }

theorem arrived_threads (codec : Option String) :
    Threads windows listener (.arrive (streamStart codec)) (arrived codec) :=
  .arrive rfl rfl rfl

theorem speaker_queue_arrived :
    (arrived (some "opus")).client.speakerStartPending = true ∧
      InOrder windows (arrived (some "opus")) := by
  have listening : Reachable Listening
      (fun r move r' => Threads windows r move r' ∧ Playable r move) listener :=
    .start ⟨_, ⟨_, _, _, _, _, rfl⟩, rfl⟩
  have here : Reachable Listening
      (fun r move r' => Threads windows r move r' ∧ Playable r move) (arrived (some "opus")) :=
    listening.next (a := .arrive (streamStart (some "opus"))) ⟨arrived_threads _, trivial⟩
  exact ⟨rfl, speaker_queue windows here⟩

/-- The codec of the first packet is not text: its drain ends, and the packets that follow are
queued for good. -/
theorem not_speaker_queue :
    ¬ ∀ pf r, Reachable Listening (Threads pf) r → InOrder pf r := by
  intro ordered
  have listening : Reachable Listening (Threads windows) listener :=
    .start ⟨_, ⟨_, _, _, _, _, rfl⟩, rfl⟩
  have queued : Reachable Listening (Threads windows) (arrived none) :=
    listening.next (arrived_threads none)
  have drained : Reachable Listening (Threads windows)
      { arrived none with
        client := (arrived none).client.removeTimer 1
        running := some (0, none) } :=
    queued.next (a := .drain 1) (.drain rfl (List.mem_singleton.mpr rfl))
  have taken := drained.next (a := .pop) (.pop rfl)
  have ended := taken.next (a := .process working) (.process rfl)
  have stuck := (ordered windows _ ended).pending.mp rfl
  rcases stuck with ⟨source, scheduled⟩ | ⟨p, running⟩
  · cases scheduled
  · cases running

end Catlink.Audio
