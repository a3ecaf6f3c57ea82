import Catlink.Lib.Runs
import Catlink.Window.RefreshRegions

/-! What was updated with losses stays on one of the lists until it is sent again without. -/

namespace Catlink.Refresh

open MainLoop Util Cover Runs

/-! ### Pixels -/

noncomputable def debt (s : WindowVideoSource) : Finset (Int × Int) :=
  covered pixels s.refreshRegions ∪ (covered pixels s.videoSubregion.refreshRegions ∪
    covered pixels s.videoSubregion.nonvideoRegions)

/-- The pixels of a refresh. -/
noncomputable def Sent.area (sent : Sent) : Finset (Int × Int) :=
  match sent.excludeRegion with
  | none => covered pixels sent.regions
  | some rect => covered pixels sent.regions \ pixels rect

/-- What was passed to `do_send_regions` from one state to a later one. -/
noncomputable def passed (s s' : WindowVideoSource) : Finset (Int × Int) :=
  covered Sent.area (s'.sent.drop s.sent.length)

theorem intersectionRect_pixels (self rect : Rectangle) (p : Int × Int) :
    (∃ both, self.intersectionRect rect = some both ∧ p ∈ pixels both) ↔
      p ∈ pixels self ∧ p ∈ pixels rect := by
  rw [mem_pixels, mem_pixels]
  unfold Rectangle.intersectionRect Rectangle.intersection
  dsimp only
  split
  · constructor
    · rintro ⟨both, none, _⟩
      cases none
    · omega
  · split
    · constructor
      · rintro ⟨both, none, _⟩
        cases none
      · omega
    · constructor
      · rintro ⟨both, some, inside⟩
        cases some
        rw [mem_pixels] at inside
        dsimp only at inside
        omega
      · intro inside
        refine ⟨_, rfl, ?_⟩
        rw [mem_pixels]
        dsimp only
        omega

theorem mem_intersections {rect : Rectangle} {regions : List Rectangle} {p : Int × Int} :
    p ∈ covered pixels (regions.filterMap rect.intersectionRect) ↔
      p ∈ pixels rect ∧ p ∈ covered pixels regions := by
  rw [mem_covered, mem_covered]
  constructor
  · rintro ⟨both, member, inside⟩
    obtain ⟨r, listed, crosses⟩ := List.mem_filterMap.mp member
    obtain ⟨inRect, inR⟩ := (intersectionRect_pixels rect r p).mp ⟨both, crosses, inside⟩
    exact ⟨inRect, r, listed, inR⟩
  · rintro ⟨inRect, r, listed, inR⟩
    obtain ⟨both, crosses, inside⟩ := (intersectionRect_pixels rect r p).mpr ⟨inRect, inR⟩
    exact ⟨both, List.mem_filterMap.mpr ⟨r, listed, crosses⟩, inside⟩

/-! ### The lists -/

def OnBase (s : WindowVideoSource) (p : Int × Int) : Prop := p ∈ covered pixels s.refreshRegions

def OnNonvideo (s : WindowVideoSource) (p : Int × Int) : Prop :=
  p ∈ covered pixels s.videoSubregion.nonvideoRegions

/-- What is on the list of the video region counts inside of it only. -/
def OnVideo (s : WindowVideoSource) (p : Int × Int) : Prop :=
  ∃ rect, s.videoSubregion.rectangle = some rect ∧ p ∈ pixels rect ∧
    p ∈ covered pixels s.videoSubregion.refreshRegions

/-- The timers are not on the lists. -/
structure SameLists (s s' : WindowVideoSource) : Prop where
  refreshRegions : s'.refreshRegions = s.refreshRegions
  video : s'.videoSubregion.refreshRegions = s.videoSubregion.refreshRegions
  nonvideo : s'.videoSubregion.nonvideoRegions = s.videoSubregion.nonvideoRegions
  rectangle : s'.videoSubregion.rectangle = s.videoSubregion.rectangle
  sent : s'.sent = s.sent

theorem cancelVideoTimer_lists (s : WindowVideoSource) :
    SameLists s (VideoSubregion.cancelRefreshTimer s) := by
  unfold VideoSubregion.cancelRefreshTimer
  split
  · exact ⟨rfl, rfl, rfl, rfl, rfl⟩
  · exact ⟨rfl, rfl, rfl, rfl, rfl⟩

/-- A region is added to those of the video region. -/
structure AddsVideo (s : WindowVideoSource) (rect region : Rectangle) (s' : WindowVideoSource) :
    Prop where
  refreshRegions : s'.refreshRegions = s.refreshRegions
  rectangle : s'.videoSubregion.rectangle = some rect
  sent : s'.sent = s.sent
  inside : ∀ p ∈ pixels rect,
    p ∈ covered pixels s.videoSubregion.refreshRegions ∨ p ∈ pixels region →
      p ∈ covered pixels s'.videoSubregion.refreshRegions
  nonvideo : covered pixels s.videoSubregion.nonvideoRegions ⊆
    covered pixels s'.videoSubregion.nonvideoRegions

theorem AddsVideo.lists {s s' s'' : WindowVideoSource} {rect region : Rectangle}
    (adds : AddsVideo s rect region s') (same : SameLists s' s'') : AddsVideo s rect region s'' := by
  constructor
  · exact same.refreshRegions.trans adds.refreshRegions
  · exact same.rectangle.trans adds.rectangle
  · exact same.sent.trans adds.sent
  · rw [same.video]
    exact adds.inside
  · rw [same.nonvideo]
    exact adds.nonvideo

theorem addVideoRefresh_adds {s : WindowVideoSource} {rect : Rectangle}
    (known : s.videoSubregion.rectangle = some rect) (region : Rectangle) :
    AddsVideo s rect region (VideoSubregion.addVideoRefresh s region) := by
  obtain ⟨base, video, nonvideo, rectangle, sent⟩ := cancelVideoTimer_lists s
  unfold VideoSubregion.addVideoRefresh
  rw [known] at rectangle ⊢
  dsimp only
  generalize VideoSubregion.cancelRefreshTimer s = s₁ at base video nonvideo rectangle sent ⊢
  have all : ∀ p, p ∈ covered pixels s.videoSubregion.refreshRegions ∨ p ∈ pixels region →
      p ∈ covered pixels (addTo s₁.videoSubregion.refreshRegions region).2 := by
    intro p listed
    rw [covered_addTo, Finset.mem_union, video]
    exact listed
  have started (s' : WindowVideoSource) (adds : AddsVideo s rect region s') :
      AddsVideo s rect region (if s'.videoSubregion.refreshRegions = [] then s'
        else VideoSubregion.startRefreshTimer s') := by
    split
    · exact adds
    · exact adds.lists ⟨rfl, rfl, rfl, rfl, rfl⟩
  apply started
  split
  next none =>
    constructor
    · exact base
    · exact rectangle
    · exact sent
    · intro p _ listed
      exact all p listed
    · have empty := (List.append_eq_nil_iff.mp none).1
      rw [nonvideo] at empty
      rw [empty]
      exact Finset.empty_subset _
  next some =>
    have timed : SameLists s₁ (if s₁.videoSubregion.nonvideoRefreshTimer = 0 then
        VideoSubregion.startNonvideoRefreshTimer s₁ else s₁) := by
      split
      · exact ⟨rfl, rfl, rfl, rfl, rfl⟩
      · exact ⟨rfl, rfl, rfl, rfl, rfl⟩
    constructor
    · exact timed.refreshRegions.trans base
    · exact timed.rectangle.trans rectangle
    · exact timed.sent.trans sent
    · intro p inRect listed
      exact mem_intersections.mpr ⟨inRect, all p listed⟩
    · intro p listed
      change p ∈ covered pixels (s₁.videoSubregion.nonvideoRegions ++ _)
      rw [covered_append, Finset.mem_union, nonvideo]
      exact .inl listed

theorem foldl_addBaseRegion (subs : List Rectangle) (s : WindowVideoSource) :
    ∃ regions, subs.foldl addBaseRegion s = { s with refreshRegions := regions } ∧
      covered pixels regions = covered pixels s.refreshRegions ∪ covered pixels subs := by
  induction subs generalizing s with
  | nil => exact ⟨s.refreshRegions, rfl, by simp⟩
  | cons sub subs ih =>
      obtain ⟨regions, added, covers⟩ := ih (addBaseRegion s sub)
      refine ⟨regions, added, ?_⟩
      rw [covers, addBaseRegion, covered_addTo, covered_cons, Finset.union_assoc]

/-- A region is added to those of the window, but for what the video region has of it. -/
structure Enlists (s : WindowVideoSource) (region : Rectangle) (s' : WindowVideoSource) :
    Prop where
  rectangle : s'.videoSubregion.rectangle = s.videoSubregion.rectangle
  base : ∀ p, OnBase s' p ↔ OnBase s p ∨ p ∈ pixels region ∧
    ∀ rect, s.videoSubregion.rectangle = some rect → p ∉ pixels rect
  nonvideo : ∀ p, OnNonvideo s p → OnNonvideo s' p
  video : ∀ p rect, s.videoSubregion.rectangle = some rect → p ∈ pixels rect →
    OnVideo s p ∨ p ∈ pixels region → OnVideo s' p

theorem AddsVideo.region {s s' : WindowVideoSource} {rect area region : Rectangle}
    {regions : List Rectangle} (known : s.videoSubregion.rectangle = some rect)
    (adds : AddsVideo s rect area s') (common : ∀ p ∈ pixels rect, p ∈ pixels region → p ∈ pixels area)
    (covers : covered pixels regions = covered pixels s'.refreshRegions ∪
      (pixels region \ pixels rect)) :
    Enlists s region { s' with refreshRegions := regions } := by
  constructor
  case rectangle => exact adds.rectangle.trans known.symm
  case base =>
    intro p
    change p ∈ covered pixels regions ↔ _
    rw [covers, Finset.mem_union, Finset.mem_sdiff, adds.refreshRegions]
    apply or_congr_right
    apply and_congr_right
    intro _
    constructor
    · intro beyond rect' known'
      rw [known] at known'
      cases known'
      exact beyond
    · intro beyond
      exact beyond rect known
  case nonvideo =>
    intro p listed
    exact adds.nonvideo listed
  case video =>
    intro p rect' known' inside listed
    rw [known] at known'
    cases known'
    refine ⟨rect, adds.rectangle, inside, adds.inside p inside ?_⟩
    rcases listed with ⟨_, _, _, listed⟩ | here
    · exact .inl listed
    · exact .inr (common p inside here)

/-- The regions of the window are those outside of the new rectangle. Where one was inside of it, the
whole rectangle waits. -/
structure Moves (s : WindowVideoSource) (old : Option Rectangle) (rect : Rectangle)
    (s' : WindowVideoSource) : Prop where
  base : ∀ p, p ∈ covered pixels s'.refreshRegions ↔ p ∉ pixels rect ∧
    (p ∈ covered pixels s.refreshRegions ∨ ∃ rect, old = some rect ∧ p ∈ pixels rect)
  rectangle : s'.videoSubregion.rectangle = some rect
  sent : s'.sent = s.sent
  needed : ∀ p ∈ pixels rect,
    p ∈ covered pixels s.refreshRegions ∨ p ∈ covered pixels s.videoSubregion.refreshRegions →
      p ∈ covered pixels s'.videoSubregion.refreshRegions
  nonvideo : covered pixels s.videoSubregion.nonvideoRegions ⊆
    covered pixels s'.videoSubregion.nonvideoRegions

/-- What is on a list stays on one, but for the pixels that are gone. Some of the window are moved to
the video region. -/
structure Carries (s s' : WindowVideoSource) (moved gone : Finset (Int × Int)) : Prop where
  base : ∀ p, OnBase s p → p ∈ gone ∨ OnBase s' p ∨ p ∈ moved ∧ OnVideo s' p
  nonvideo : ∀ p, OnNonvideo s p → p ∈ gone ∨ OnNonvideo s' p
  video : ∀ p, OnVideo s p → p ∈ gone ∨ OnBase s' p ∨ OnVideo s' p

theorem SameLists.carries {s s' : WindowVideoSource} (same : SameLists s s')
    (moved gone : Finset (Int × Int)) : Carries s s' moved gone := by
  constructor
  · intro p listed
    right
    left
    rwa [OnBase, same.refreshRegions]
  · intro p listed
    right
    rwa [OnNonvideo, same.nonvideo]
  · intro p listed
    right
    right
    rwa [OnVideo, same.rectangle, same.video]

theorem Enlists.carries {s s' : WindowVideoSource} {region : Rectangle}
    (adds : Enlists s region s') (moved : Finset (Int × Int)) : Carries s s' moved ∅ := by
  constructor
  · intro p listed
    exact .inr (.inl ((adds.base p).mpr (.inl listed)))
  · intro p listed
    exact .inr (adds.nonvideo p listed)
  · intro p listed
    have video := listed
    obtain ⟨rect, known, inside, _⟩ := listed
    exact .inr (.inr (adds.video p rect known inside (.inl video)))

/-- No region of the window is in the video region. -/
def Outside (s : WindowVideoSource) : Prop :=
  ∀ rect, s.videoSubregion.rectangle = some rect →
    Disjoint (covered pixels s.refreshRegions) (pixels rect)

theorem Outside.lists {s s' : WindowVideoSource} (outside : Outside s) (same : SameLists s s') :
    Outside s' := by
  intro rect known
  rw [same.rectangle] at known
  rw [same.refreshRegions]
  exact outside rect known

theorem Enlists.outside {s s' : WindowVideoSource} {region : Rectangle} (outside : Outside s)
    (adds : Enlists s region s') : Outside s' := by
  intro rect known
  rw [adds.rectangle] at known
  rw [Finset.disjoint_left]
  intro p listed
  rcases (adds.base p).mp listed with old | ⟨_, beyond⟩
  · exact Finset.disjoint_left.mp (outside rect known) old
  · exact beyond rect known

theorem Moves.outside {s s' : WindowVideoSource} {old : Option Rectangle} {rect : Rectangle}
    (moves : Moves s old rect s') : Outside s' := by
  intro rect' known
  rw [moves.rectangle] at known
  cases known
  rw [Finset.disjoint_left]
  intro p listed
  exact ((moves.base p).mp listed).1

/-- A call of `refresh_subregion` that has its answer, and has not returned. -/
inductive Call
  | video (refreshed : Bool)
  | nonvideo (refreshed : Bool)

inductive Action
  /-- `add_refresh_region`, for an update with losses -/
  | lossy (region : Rectangle)
  /-- `remove_refresh_region`, for one without -/
  | lossless (region : Rectangle)
  /-- the end of `do_schedule_auto_refresh`, where the timer is started -/
  | schedule (now : Nat)
  /-- the detection of a video region -/
  | detect (newrect : Option Rectangle)
  /-- `refresh_timer_function`, which calls `timer_full_refresh` -/
  | refreshTimer (env : Env) (due : Bool)
  /-- `VideoSubregion.refresh`, as far as its call of `refresh_subregion` -/
  | video (env : Env)
  /-- `VideoSubregion.nonvideo_refresh`, as far as that -/
  | nonvideo (env : Env)
  /-- the call returns, to the end of the function that made it -/
  | returns

/-- The timers' functions are called in the UI thread, one after the other; the updates and the
detection are in other threads. -/
structure Run where
  source : WindowVideoSource
  call : Option Call := none
  /-- the pixels that were updated with losses, and since then neither without nor passed on -/
  owed : Finset (Int × Int) := ∅
  /-- the pixels that were put on the list of the video region since the call was made -/
  late : Finset (Int × Int) := ∅

def Ready (run : Run) : Action → Prop
  | .refreshTimer _ _ | .video _ | .nonvideo _ => run.call = none
  | .returns => run.call ≠ none
  | _ => True

def Call.back (s : WindowVideoSource) : Call → WindowVideoSource
  | .video refreshed => VideoSubregion.endRefresh s refreshed
  | .nonvideo refreshed => VideoSubregion.endNonvideoRefresh s refreshed

/-- The pixels that an action may put on the list of the video region. -/
noncomputable def added (s : WindowVideoSource) : Action → Finset (Int × Int)
  | .lossy region =>
      match s.videoSubregion.rectangle with
      | some rect => pixels region ∩ pixels rect
      | none => ∅
  | .detect (some newrect) => pixels newrect ∩ covered pixels s.refreshRegions
  | _ => ∅

/-- When the call of `refresh` returns it clears the list: what was put there meanwhile is lost. -/
noncomputable def Call.owed (run : Run) : Call → Finset (Int × Int)
  | .video true => run.owed \ run.late
  | _ => run.owed

noncomputable def act (run : Run) (a : Action) : Run :=
  let late := run.late ∪ added run.source a
  match a with
  | .lossy region =>
      { run with
        source := addRefreshRegion run.source region
        owed := run.owed ∪ pixels region
        late := late }
  | .lossless region =>
      { run with
        source := removeRefreshRegion run.source region
        owed := run.owed \ pixels region }
  | .schedule now =>
      { run with source := startRefreshTimer { run.source with refreshEventTime := now } }
  | .detect newrect =>
      { run with source := updateEncodingVideoSubregion run.source newrect, late := late }
  | .refreshTimer env due =>
      let s := refreshTimerFunction run.source env due
      { run with source := s, owed := run.owed \ passed run.source s }
  | .video env =>
      let (s, refreshed) := VideoSubregion.startRefresh run.source env
      ⟨s, some (.video refreshed), run.owed \ passed run.source s, ∅⟩
  | .nonvideo env =>
      let (s, refreshed) := VideoSubregion.startNonvideoRefresh run.source env
      ⟨s, some (.nonvideo refreshed), run.owed \ passed run.source s, ∅⟩
  | .returns =>
      match run.call with
      | some call => { source := call.back run.source, owed := call.owed run }
      | none => run

/-- No region is waiting yet. -/
def Starts (run : Run) : Prop :=
  run.source.refreshRegions = [] ∧ run.source.videoSubregion.refreshRegions = [] ∧
    run.source.videoSubregion.nonvideoRegions = [] ∧ run.call = none ∧ run.owed = ∅

def Step (run : Run) (a : Action) (run' : Run) : Prop := Ready run a ∧ run' = act run a

/-! ### The invariant -/

/-- What is owed is on a list, and on one that is not about to be cleared unless it came late. -/
structure Held (run : Run) : Prop where
  outside : Outside run.source
  held : ∀ p ∈ run.owed, OnBase run.source p ∨ OnNonvideo run.source p ∨ OnVideo run.source p
  video : run.call = some (.video true) → ∀ p ∈ run.owed,
    p ∈ run.late ∨ OnBase run.source p ∨ OnNonvideo run.source p
  nonvideo : run.call = some (.nonvideo true) → ∀ p ∈ run.owed,
    OnBase run.source p ∨ OnVideo run.source p

/-- The lists carry what is on them, whatever call is going on. -/
theorem Held.carries {run run' : Run} {moved gone : Finset (Int × Int)} (held : Held run)
    (same : run'.call = run.call) (outside : Outside run'.source)
    (carries : Carries run.source run'.source moved gone)
    (owed : ∀ p ∈ run'.owed, p ∈ run.owed ∧ p ∉ gone ∨ OnBase run'.source p ∨
      p ∈ run'.late ∧ OnVideo run'.source p)
    (late : run.late ⊆ run'.late) (moves : moved ⊆ run'.late) : Held run' := by
  have base (p : Int × Int) (kept : p ∉ gone) (listed : OnBase run.source p) :
      OnBase run'.source p ∨ p ∈ run'.late ∧ OnVideo run'.source p := by
    rcases carries.base p listed with here | there | ⟨here, there⟩
    · exact absurd here kept
    · exact .inl there
    · exact .inr ⟨moves here, there⟩
  have nonvideo (p : Int × Int) (kept : p ∉ gone) (listed : OnNonvideo run.source p) :
      OnNonvideo run'.source p := (carries.nonvideo p listed).resolve_left kept
  have video (p : Int × Int) (kept : p ∉ gone) (listed : OnVideo run.source p) :
      OnBase run'.source p ∨ OnVideo run'.source p := (carries.video p listed).resolve_left kept
  constructor
  case outside => exact outside
  case held =>
    intro p member
    rcases owed p member with ⟨before, kept⟩ | there | ⟨_, there⟩
    · rcases held.held p before with listed | listed | listed
      · exact (base p kept listed).imp_right fun there => .inr there.2
      · exact .inr (.inl (nonvideo p kept listed))
      · exact (video p kept listed).imp_right .inr
    · exact .inl there
    · exact .inr (.inr there)
  case video =>
    intro called p member
    rw [same] at called
    rcases owed p member with ⟨before, kept⟩ | there | ⟨here, _⟩
    · rcases held.video called p before with here | listed | listed
      · exact .inl (late here)
      · rcases base p kept listed with there | ⟨here, _⟩
        · exact .inr (.inl there)
        · exact .inl here
      · exact .inr (.inr (nonvideo p kept listed))
    · exact .inr (.inl there)
    · exact .inl here
  case nonvideo =>
    intro called p member
    rw [same] at called
    rcases owed p member with ⟨before, kept⟩ | there | ⟨_, there⟩
    · rcases held.nonvideo called p before with listed | listed
      · exact (base p kept listed).imp_right And.right
      · exact video p kept listed
    · exact .inl there
    · exact .inr there

def desktop : WindowVideoSource where
  windowDimensions := (100, 100)
  encoding := "auto"
  imageDepth := 24
  refreshQuality := 100
  trueLossless := false
  fullFramesOnly := false
  maxSmallRegions := 40

/-- An action on the window alone, the calls with their returns. -/
def whole (s : WindowVideoSource) : Action → WindowVideoSource
  | .lossy region => addRefreshRegion s region
  | .lossless region => removeRefreshRegion s region
  | .schedule now => startRefreshTimer { s with refreshEventTime := now }
  | .detect newrect => updateEncodingVideoSubregion s newrect
  | .refreshTimer env due => refreshTimerFunction s env due
  | .video env => VideoSubregion.refresh s env
  | .nonvideo env => VideoSubregion.nonvideoRefresh s env
  | .returns => s

/-- The updates of a first video region are sent with the window, and stay on the list of the next
one. -/
def stale : WindowVideoSource :=
  [.detect (some ⟨0, 0, 10, 10, square_valid⟩), .lossy ⟨0, 0, 10, 4, by decide⟩,
    .lossy ⟨0, 5, 10, 4, by decide⟩, .detect (some ⟨20, 20, 10, 10, square_valid⟩), .schedule 1,
    .refreshTimer ⟨true, false⟩ true].foldl whole desktop

end Catlink.Refresh
