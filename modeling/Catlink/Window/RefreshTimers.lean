import Catlink.Lib.Runs
import Catlink.Window.RefreshRegions
import Mathlib.Logic.Function.Basic
import Mathlib.Tactic

/-! The regions of the video region and those that it left behind wait for a timer each, or for a
damage whose update is still to come. -/

namespace Catlink.Refresh

open MainLoop Util Cover Runs

/-! ### Events -/

inductive Event
  | damage (region : Rectangle)
  /-- the delayed regions are taken; `rest` is delayed again, and `regions` are sent -/
  | sendDelayed (regions : List Rectangle) (rest : Option (List Rectangle))
  /-- an update is encoded, with which of the regions that are sent only `sending` are left -/
  | autoRefresh (update : Update) (now : Nat) (sending : List Rectangle)
  | addVideoRefresh (region : Rectangle)
  | removeRefreshRegion (region : Rectangle)
  /-- the main loop calls the source's function -/
  | refreshTimer (source : Nat) (env : Env) (due : Bool)
  | video (source : Nat) (env : Env)
  | nonvideo (source : Nat) (env : Env)

/-- A source is removed when its function returns. -/
def WindowVideoSource.fire (s : WindowVideoSource) (source : Nat) : WindowVideoSource :=
  { s with timers := s.timers.remove source }

def handle (s : WindowVideoSource) : Event → WindowVideoSource
  | .damage region => doDamage s region
  | .sendDelayed regions rest => doSendDelayed s regions rest
  | .autoRefresh update now sending => { doScheduleAutoRefresh s update now with sending := sending }
  | .addVideoRefresh region => VideoSubregion.addVideoRefresh s region
  | .removeRefreshRegion region => removeRefreshRegion s region
  | .refreshTimer source env due => refreshTimerFunction (s.fire source) env due
  | .video source env => VideoSubregion.refresh (s.fire source) env
  | .nonvideo source env => VideoSubregion.nonvideoRefresh (s.fire source) env

/-- The functions that are called are those of the sources there are. What `send_regions` is given it
sends or delays, every pixel of the window. -/
def Enabled (s : WindowVideoSource) : Event → Prop
  | .sendDelayed regions rest => ∃ delayed, s.damageDelayed = some delayed ∧
      covered pixels delayed ∩ pixels s.window ⊆
        covered pixels regions ∪ covered pixels (rest.getD [])
  | .autoRefresh _ _ sending => sending ⊆ s.sending
  | .refreshTimer source _ _ => (source, .refresh) ∈ s.timers.sources
  | .video source _ => (source, .video) ∈ s.timers.sources
  | .nonvideo source _ => (source, .nonvideo) ∈ s.timers.sources
  | _ => True

/-- A window with a video region, where nothing waits yet. -/
structure Opens (s : WindowVideoSource) : Prop where
  known : s.videoSubregion.rectangle ≠ none
  refreshRegions : s.videoSubregion.refreshRegions = []
  nonvideoRegions : s.videoSubregion.nonvideoRegions = []
  refreshTimer : s.videoSubregion.refreshTimer = 0
  nonvideoRefreshTimer : s.videoSubregion.nonvideoRefreshTimer = 0
  windowTimer : s.refreshTimer = 0
  timers : s.timers = .start

/-- One of the regions intersects the video region. -/
def Pending (rectangle : Option Rectangle) (regions : List Rectangle) : Prop :=
  ∃ rect, rectangle = some rect ∧ ∃ region ∈ regions, rect.intersectsRect region = true

/-- The damage that is delayed, or sent and not encoded yet. -/
def WindowVideoSource.damaged (s : WindowVideoSource) : List Rectangle :=
  s.damageDelayed.getD [] ++ s.sending

/-- What waits has a timer, or a damage whose update is to come. -/
structure Armed (s : WindowVideoSource) : Prop where
  video : s.videoSubregion.refreshRegions ≠ [] →
    (s.videoSubregion.refreshTimer, .video) ∈ s.timers.sources ∨
      Pending s.videoSubregion.rectangle s.damaged
  nonvideo : s.videoSubregion.nonvideoRegions ≠ [] →
    (s.videoSubregion.nonvideoRefreshTimer, .nonvideo) ∈ s.timers.sources

/-! ### Timers -/

def timerOf (s : WindowVideoSource) : Timer → Nat
  | .refresh => s.refreshTimer
  | .video => s.videoSubregion.refreshTimer
  | .nonvideo => s.videoSubregion.nonvideoRefreshTimer

/-- The numbers that are kept are those of the sources there are. -/
def Slots (s : WindowVideoSource) : Prop := s.timers.Slotted some (timerOf s)

/-- `Armed`, of the numbers. -/
structure Numbered (s : WindowVideoSource) : Prop where
  video : s.videoSubregion.refreshRegions ≠ [] →
    s.videoSubregion.refreshTimer ≠ 0 ∨ Pending s.videoSubregion.rectangle s.damaged
  nonvideo : s.videoSubregion.nonvideoRegions ≠ [] → s.videoSubregion.nonvideoRefreshTimer ≠ 0

theorem Slots.listed {s : WindowVideoSource} (slots : Slots s) (timer : Timer) :
    (timerOf s timer, timer) ∈ s.timers.sources ↔ timerOf s timer ≠ 0 := by
  constructor
  · intro member
    exact (slots.only _ _ _ member rfl).2
  · intro armed
    obtain ⟨callback, kind, member⟩ := slots.armed timer armed
    cases kind
    exact member

theorem Slots.arm {s s' : WindowVideoSource} (slots : Slots s) (timer : Timer)
    (free : timerOf s timer = 0) (added : s'.timers = s.timers.add timer)
    (kept : timerOf s' = Function.update (timerOf s) timer s.timers.next) : Slots s' := by
  unfold Slots
  rw [added, kept]
  exact Sources.Slotted.arm slots rfl free

theorem Slots.release {s s' : WindowVideoSource} (slots : Slots s) (timer : Timer)
    (removed : s'.timers = s.timers.remove (timerOf s timer))
    (kept : timerOf s' = Function.update (timerOf s) timer 0) : Slots s' := by
  unfold Slots
  rw [removed, kept]
  exact Sources.Slotted.release slots timer

/-- Nothing changes for the timers. -/
theorem Slots.same {s s' : WindowVideoSource} (slots : Slots s) (timers : s'.timers = s.timers)
    (kept : timerOf s' = timerOf s) : Slots s' := by
  unfold Slots
  rw [timers, kept]
  exact slots

theorem timerOf_ext {s : WindowVideoSource} {timer : Timer → Nat}
    (refresh : s.refreshTimer = timer .refresh)
    (video : s.videoSubregion.refreshTimer = timer .video)
    (nonvideo : s.videoSubregion.nonvideoRefreshTimer = timer .nonvideo) : timerOf s = timer := by
  funext kind
  cases kind with
  | refresh => exact refresh
  | video => exact video
  | nonvideo => exact nonvideo

/-- What waits has a timer. -/
structure Timed (s : WindowVideoSource) : Prop where
  video : s.videoSubregion.refreshRegions ≠ [] → s.videoSubregion.refreshTimer ≠ 0
  nonvideo : s.videoSubregion.nonvideoRegions ≠ [] → s.videoSubregion.nonvideoRefreshTimer ≠ 0

theorem Timed.numbered {s : WindowVideoSource} (timed : Timed s) : Numbered s := by
  constructor
  · intro waits
    exact .inl (timed.video waits)
  · exact timed.nonvideo

/-- A window with a video region, whose timers are the sources there are. -/
structure Good (s : WindowVideoSource) : Prop where
  slots : Slots s
  known : s.videoSubregion.rectangle ≠ none

structure Sound (s : WindowVideoSource) : Prop extends Good s where
  numbered : Numbered s

/-- The video region and the damage stay as they are. -/
structure Frame (s s' : WindowVideoSource) : Prop where
  video : s'.videoSubregion = s.videoSubregion
  delayed : s'.damageDelayed = s.damageDelayed
  sending : s'.sending = s.sending

theorem Frame.refl (s : WindowVideoSource) : Frame s s := ⟨rfl, rfl, rfl⟩

theorem Frame.trans {s s' s'' : WindowVideoSource} (first : Frame s s') (second : Frame s' s'') :
    Frame s s'' :=
  ⟨second.video.trans first.video, second.delayed.trans first.delayed,
    second.sending.trans first.sending⟩

theorem Frame.damaged {s s' : WindowVideoSource} (frame : Frame s s') : s'.damaged = s.damaged := by
  rw [WindowVideoSource.damaged, frame.delayed, frame.sending]
  rfl

theorem Frame.numbered {s s' : WindowVideoSource} (frame : Frame s s') (numbered : Numbered s) :
    Numbered s' := by
  constructor
  · rw [frame.video, frame.damaged]
    exact numbered.video
  · rw [frame.video]
    exact numbered.nonvideo

theorem Good.frame {s s' : WindowVideoSource} (good : Good s) (slots : Slots s')
    (frame : Frame s s') : Good s' := by
  refine ⟨slots, ?_⟩
  rw [frame.video]
  exact good.known

theorem Sound.frame {s s' : WindowVideoSource} (sound : Sound s) (slots : Slots s')
    (frame : Frame s s') : Sound s' :=
  ⟨sound.toGood.frame slots frame, frame.numbered sound.numbered⟩

/-- The region is put on the video region's list, or a part of it. -/
def Meets (s : WindowVideoSource) (region : Rectangle) : Prop :=
  ∃ rect, s.videoSubregion.rectangle = some rect ∧
    (rect.containsRect region = true ∨ rect.intersectionRect region ≠ none)

/-- The update has losses, and is put on the video region's list. -/
def Relists (s : WindowVideoSource) (update : Update) : Prop :=
  s.encoding ≠ "stream" ∧ ¬(isLossy s update = false ∨ update.autoRefresh = true) ∧
    ¬(s.windowDimensions.1 = 0 ∨ s.windowDimensions.2 = 0) ∧ Meets s update.region

/-- What is left of the video region's list after an update that is not put there. -/
def remaining (s : WindowVideoSource) (update : Update) : List Rectangle :=
  if s.encoding ≠ "stream" ∧ (isLossy s update = false ∨ update.autoRefresh = true) then
    removeRectangle s.videoSubregion.refreshRegions update.region
  else s.videoSubregion.refreshRegions

/-- The lists shrink, and the timers stay as they are. -/
structure Leaves (s : WindowVideoSource) (update : Update) (s' : WindowVideoSource) : Prop where
  rectangle : s'.videoSubregion.rectangle = s.videoSubregion.rectangle
  refreshTimer : s'.videoSubregion.refreshTimer = s.videoSubregion.refreshTimer
  refreshRegions : s'.videoSubregion.refreshRegions = remaining s update
  nonvideoTimer :
    s'.videoSubregion.nonvideoRefreshTimer = s.videoSubregion.nonvideoRefreshTimer
  nonvideo : s'.videoSubregion.nonvideoRegions ≠ [] → s.videoSubregion.nonvideoRegions ≠ []
  delayed : s'.damageDelayed = s.damageDelayed

theorem Frame.leaves {s s' : WindowVideoSource} (frame : Frame s s') {update : Update}
    (kept : ¬(s.encoding ≠ "stream" ∧ (isLossy s update = false ∨ update.autoRefresh = true))) :
    Leaves s update s' := by
  constructor
  · rw [frame.video]
  · rw [frame.video]
  · rw [frame.video, remaining, if_neg kept]
  · rw [frame.video]
  · rw [frame.video]
    exact id
  · exact frame.delayed

/-- The delayed regions become the whole window. -/
def Merges (s : WindowVideoSource) : Prop :=
  ∃ regions, s.damageDelayed = some regions ∧
    (s.fullFramesOnly = true ∨ s.maxSmallRegions ≤ regions.length)

/-- In the window a delayed region intersects the video region. -/
def MeetsInside (s : WindowVideoSource) : Prop :=
  ∃ rect, s.videoSubregion.rectangle = some rect ∧
    ¬Disjoint (pixels rect) (covered pixels (s.damageDelayed.getD []) ∩ pixels s.window)

/-- The conditions: a damage that is merged into the whole window still meets the video region, what
is sent does so inside of the window, an update is either put on the list or not the last that the
list waits for, and the refresh of what was left behind is not refused. -/
def Clean (s : WindowVideoSource) : Event → Prop
  | .damage region =>
      Merges s → s.videoSubregion.refreshRegions = [] ∨
        Pending s.videoSubregion.rectangle (s.window :: s.sending) ∨
          s.videoSubregion.refreshTimer ≠ 0 ∧
            ∀ rect, s.videoSubregion.rectangle = some rect → rect.intersectsRect region = false
  | .sendDelayed _ _ =>
      s.videoSubregion.refreshRegions = [] ∨ s.videoSubregion.refreshTimer ≠ 0 ∨
        Pending s.videoSubregion.rectangle s.sending ∨ MeetsInside s
  | .autoRefresh update _ sending =>
      Relists s update ∨ remaining s update = [] ∨ s.videoSubregion.refreshTimer ≠ 0 ∨
        Pending s.videoSubregion.rectangle (s.damageDelayed.getD [] ++ sending)
  | .nonvideo _ env =>
      s.videoSubregion.nonvideoRegions = [] ∨ env.canRefresh = true ∧ env.congested = false
  | _ => True

def Happens (s : WindowVideoSource) (e : Event) (s' : WindowVideoSource) : Prop :=
  Enabled s e ∧ s' = handle s e

theorem Opens.sound {s : WindowVideoSource} (opens : Opens s) : Sound s := by
  have kept : timerOf s = fun _ => 0 :=
    timerOf_ext opens.windowTimer opens.refreshTimer opens.nonvideoRefreshTimer
  refine ⟨⟨?_, opens.known⟩, ?_⟩
  · unfold Slots
    rw [opens.timers, kept]
    exact Sources.Slotted.start
  · constructor
    · intro waits
      exact absurd opens.refreshRegions waits
    · intro waits
      exact absurd opens.nonvideoRegions waits

/-- A window with a player in its corner. -/
def player : WindowVideoSource where
  windowDimensions := (100, 100)
  encoding := "auto"
  imageDepth := 24
  refreshQuality := 100
  trueLossless := false
  fullFramesOnly := false
  maxSmallRegions := 40
  videoSubregion := { rectangle := some ⟨0, 0, 10, 10, square_valid⟩ }

def frame : Update where
  encoding := "jpeg"
  region := ⟨0, 0, 10, 10, square_valid⟩
  quality := 50
  csc := "YUV420P"
  scaled := false
  autoRefresh := false

def corner : Rectangle := ⟨0, 0, 10, 5, by decide⟩

def framed : WindowVideoSource := handle player (.autoRefresh frame 1 [])

def damagedAgain : WindowVideoSource := handle framed (.damage corner)

def sent : WindowVideoSource := handle damagedAgain (.sendDelayed [corner] none)

/-- Half of the frame is damaged, and sent without loss. The other half waits for nothing. -/
def forgotten : WindowVideoSource :=
  handle sent (.autoRefresh { frame with encoding := "png", region := corner } 2 [])

/-- What is outside of the video region is refused, and waits for nothing either. -/
def refused : WindowVideoSource :=
  handle (handle player (.addVideoRefresh ⟨5, 0, 10, 10, square_valid⟩)) (.nonvideo 1 ⟨true, true⟩)

end Catlink.Refresh
