import Catlink.Window.DelayedDamage
import Mathlib.Tactic

/-! What `WindowVideoSource` sends with the video encoder, what it sends without, and what it delays. -/

namespace Catlink.VideoRegions

open Cover Delayed MainLoop SendRegions Util

structure WindowVideoSource extends SendRegions.WindowSource where
  isTray : Bool
  /-- `video_subregion.rectangle` -/
  rectangle : Option Rectangle
  /-- `video_subregion.set_at` -/
  setAt : Int
  /-- `video_subregion.non_max_wait` -/
  nonMaxWait : Int
  bFrameFlushTimer : Nat
  /-- `_damage_delayed` and its timers -/
  delayed : Delayed.WindowSource

def WindowVideoSource.videoEncodings (s : WindowVideoSource) : List String :=
  match s.video with
  | none => []
  | some v => v.videoEncodings

/-- What is read of the clock, the batch configuration and the statistics, and what the encodings of
the regions are; `get_best_encoding` and `get_best_nonvideo_encoding` have their coding first. -/
structure Env where
  now : Int
  batchConfig : BatchConfig
  damageEventsCount : Int
  iteration : SetOrder
  bestEncoding : String → GetEncoding
  bestNonvideoEncoding : String → GetEncoding

def sendNonvideo (s : WindowVideoSource) (env : Env) (regions : List Rectangle) (encoding : String)
    (excludeRegion : Option Rectangle) (getBestEncoding : String → GetEncoding) :
    Except Exn (List Passed) :=
  -- a b-frame is already due, don't clobber it
  let excludeRegion := if s.bFrameFlushTimer ≠ 0 ∧ excludeRegion = none then s.rectangle else excludeRegion
  doSendRegions s.toWindowSource env.iteration (getBestEncoding encoding) regions excludeRegion

/-- At least 40% of the video region, with all that intersects it merged into one. -/
def overlaps (vr : Rectangle) (regions : List Rectangle) : Bool :=
  match mergeAll (regions.filterMap vr.intersectionRect) with
  | .error _ => false
  | .ok inRegion => vr.width * vr.height * 40 ≤ inRegion.width * inRegion.height * 100

/-- `actual_vr` -/
def actualVr (vr : Rectangle) (regions : List Rectangle) : Option Rectangle :=
  if vr ∈ regions then some vr
  else if overlaps vr regions = true then some vr
  else
    match regions.filter fun r => r.width = vr.width ∧ r.height = vr.height with
    | [] => none
    | [r] => some r
    | sameD =>
        match sameD.filter fun r => r.x = vr.x ∨ r.y = vr.y with
        | [r] => some r
        | _ => none

/-- How long the rest has to wait. -/
def restDelay (s : WindowVideoSource) (env : Env) (damageTime : Int) (actualVr : Option Rectangle) : Int :=
  if actualVr = none ∨ max 0 (env.damageEventsCount - s.setAt) < 100 then 0
  else
    min (max (env.batchConfig.delay * 4) env.batchConfig.expireDelay) (s.nonMaxWait - (env.now - damageTime))

/-- The rest, and what was delayed before: sent, or delayed some more. -/
def sendRest (s : WindowVideoSource) (env : Env) (damageTime : Int) (regions : List Rectangle)
    (coding : String) (options : Options) (actualVr : Option Rectangle) :
    Except Exn (Delayed.WindowSource × List Passed) :=
  let (delayed, damageTime, regions) := match s.delayed.damageDelayed with
    | none => (s.delayed, damageTime, regions)
    | some dr =>
        (cancelExpireTimer { s.delayed with damageDelayed := none }, min damageTime dr.damageTime,
          dr.regions ++ regions)
  if restDelay s env damageTime actualVr ≤ 25 then do
    let passed ← sendNonvideo s env regions "" actualVr env.bestNonvideoEncoding
    .ok (delayed, passed)
  else
    .ok (startTimer (.expireDelayedRegion 0 100)
      { delayed with damageDelayed := some ⟨damageTime, coding, options, regions, false⟩ }, [])

/-- Not all of the video region is in the window. -/
def partiallyOutside (s : WindowVideoSource) (actualVr : Rectangle) : Bool :=
  (s.windowDimensions.1 : Int) < actualVr.x + actualVr.width ||
    (s.windowDimensions.2 : Int) < actualVr.y + actualVr.height

def sendVideo (s : WindowVideoSource) (env : Env) (damageTime : Int) (regions : List Rectangle)
    (coding : String) (options : Options) (actualVr : Rectangle) :
    Except Exn (Delayed.WindowSource × List Passed) :=
  let video : Passed := ⟨actualVr, coding, 0⟩
  let trimmed := regions.flatMap fun r => r.subtractRect actualVr
  if trimmed = [] then .ok (s.delayed, [video])
  else do
    let (delayed, passed) ← sendRest s env damageTime trimmed coding options (some actualVr)
    .ok (delayed, video :: passed)

/-- The delayed region as it is left, and the calls of `process_damage_region`. -/
def sendRegions (s : WindowVideoSource) (env : Env) (damageTime : Int) (regions : List Rectangle)
    (coding : String) (options : Options) : Except Exn (Delayed.WindowSource × List Passed) :=
  let plain (passed : Except Exn (List Passed)) : Except Exn (Delayed.WindowSource × List Passed) :=
    passed.map fun passed => (s.delayed, passed)
  if s.isTray = true then plain (sendNonvideo s env regions "" none env.bestNonvideoEncoding)
  else if ["auto", "stream", "grayscale"].contains coding = false ∧ s.videoEncodings.contains coding = false then
    plain (sendNonvideo s env regions coding none env.bestEncoding)
  else if (Dict.get options "novideo").elim false PyVal.truthy = true then
    plain (sendNonvideo s env regions "" none env.bestNonvideoEncoding)
  else
    match s.rectangle with
    | none =>
        plain (doSendRegions s.toWindowSource env.iteration (env.bestEncoding coding) regions none)
    | some vr =>
        if s.fullFramesOnly = true then .error (.assertionError "")
        else
          match actualVr vr regions with
          | none => sendRest s env damageTime regions coding options none
          | some actualVr =>
              if partiallyOutside s actualVr = true then
                plain (sendNonvideo s env regions "" none env.bestNonvideoEncoding)
              else sendVideo s env damageTime regions coding options actualVr

/-! ### What is claimed -/

/-- There is an encoding for the full window. -/
structure Encodes (s : WindowVideoSource) (env : Env) : Prop where
  best : ∀ coding, env.bestEncoding coding 0 s.windowDimensions.1 s.windowDimensions.2 ≠ ""
  nonvideo : ∀ coding, env.bestNonvideoEncoding coding 0 s.windowDimensions.1 s.windowDimensions.2 ≠ ""

/-- The pixel is in a call of `process_damage_region`. -/
def Sends (p : Int × Int) (passed : List Passed) : Prop := p ∈ covered (fun x : Passed => pixels x.region) passed

/-- The pixel is left to the b-frame that is due. -/
def LeftOut (s : WindowVideoSource) (p : Int × Int) : Prop :=
  s.bFrameFlushTimer ≠ 0 ∧ ∃ vr, s.rectangle = some vr ∧ p ∈ pixels vr

/-- What becomes of a pixel. -/
inductive Accounted (s : WindowVideoSource) (p : Int × Int) (delayed : Delayed.WindowSource)
    (passed : List Passed) : Prop
  | sent (sends : Sends p passed)
  | delayed (waits : Waits p delayed) (armed : Armed delayed)
  | leftOut (due : LeftOut s p)

/-- The expire timer is armed. -/
def Expires (s : Delayed.WindowSource) : Prop :=
  ∃ due targetDelay, (s.expireTimer, .expireDelayedRegion due targetDelay) ∈ s.timers.sources

/-- What becomes of a pixel when this is what the video encoder is given. -/
inductive Handled (s : WindowVideoSource) (video : Option Rectangle) (p : Int × Int)
    (delayed : Delayed.WindowSource) (passed : List Passed) : Prop
  | sent (sends : Sends p passed)
  | delayed (waits : Waits p delayed) (expires : Expires delayed)
  | leftOut (due : LeftOut s p) (unsent : video = none)

/-- The region that the video encoder is given. -/
def videoSent (s : WindowVideoSource) (regions : List Rectangle) (coding : String) (options : Options) :
    Option Rectangle :=
  if s.isTray = true ∨
      (["auto", "stream", "grayscale"].contains coding = false ∧ s.videoEncodings.contains coding = false) ∨
      (Dict.get options "novideo").elim false PyVal.truthy = true then none
  else
    match s.rectangle with
    | none => none
    | some vr => (actualVr vr regions).filter fun actualVr => !partiallyOutside s actualVr

/-- Every damaged pixel is passed on, or delayed anew, or left to the b-frame; and every one that was delayed
before, unless that region is left as it was. -/
structure Conserved (s : WindowVideoSource) (regions : List Rectangle) (coding : String) (options : Options)
    (delayed : Delayed.WindowSource) (passed : List Passed) : Prop where
  damaged : ∀ p, Inside s.windowDimensions p → p ∈ covered pixels regions →
    Handled s (videoSent s regions coding options) p delayed passed
  before : delayed = s.delayed ∨ ∀ p, Inside s.windowDimensions p → Waits p s.delayed →
    Handled s (videoSent s regions coding options) p delayed passed

/-- There is no encoding for the full window, or a video region while only full frames are sent. -/
inductive Refused (s : WindowVideoSource) (env : Env) : Prop
  | best (coding : String) (none : env.bestEncoding coding 0 s.windowDimensions.1 s.windowDimensions.2 = "")
  | nonvideo (none : env.bestNonvideoEncoding "" 0 s.windowDimensions.1 s.windowDimensions.2 = "")
  | frames (region : s.rectangle ≠ none) (full : s.fullFramesOnly = true)

/-- What is returned has the property, or it was refused. -/
def Returns {α : Type} (refused : Prop) (holds : α → Prop) : Except Exn α → Prop
  | .ok a => holds a
  | .error _ => refused

section

variable {s : WindowVideoSource} {env : Env} {p : Int × Int} {regions : List Rectangle}

theorem Returns.imp {α : Type} {refused refused' : Prop} {holds holds' : α → Prop} {result : Except Exn α}
    (returns : Returns refused holds result) (refuses : refused → refused') (each : ∀ a, holds a → holds' a) :
    Returns refused' holds' result := by
  cases result with
  | ok a => exact each a returns
  | error e => exact refuses returns

theorem Returns.bind {α β : Type} {refused : Prop} {holds : β → Prop} {result : Except Exn α}
    {next : α → Except Exn β} (returns : Returns refused (fun a => Returns refused holds (next a)) result) :
    Returns refused holds (result >>= next) := by
  cases result with
  | ok a => exact returns
  | error e => exact returns

/-- The calls cover what is damaged and not excluded, or there is no encoding for the full window. -/
theorem doSendRegions_returns (s : WindowVideoSource) (env : Env) (getEncoding : GetEncoding)
    (regions : List Rectangle) (excludeRegion : Option Rectangle) :
    Returns (getEncoding 0 s.windowDimensions.1 s.windowDimensions.2 = "")
      (fun passed => ∀ p, Inside s.windowDimensions p → p ∈ without (covered pixels regions) excludeRegion →
        Sends p passed)
      (doSendRegions s.toWindowSource env.iteration getEncoding regions excludeRegion) := by
  have whole {area : Finset (Int × Int)} (within : area ⊆ pixels s.window)
      (listed : area ⊆ without (covered pixels regions) excludeRegion) :
      Covers s.toWindowSource getEncoding area
        (doSendRegions s.toWindowSource env.iteration getEncoding regions excludeRegion) :=
    doSendRegions_whole env.iteration _ within listed
  cases sent : doSendRegions s.toWindowSource env.iteration getEncoding regions excludeRegion with
  | error e =>
      have covers := @whole ∅ (Finset.empty_subset _) (Finset.empty_subset _)
      rw [sent] at covers
      exact covers
  | ok passed =>
      intro p inside listed
      have covers := @whole {p} (Finset.singleton_subset_iff.mpr (mem_window inside))
        (Finset.singleton_subset_iff.mpr listed)
      rw [sent] at covers
      exact Finset.singleton_subset_iff.mp covers

/-- Without an explicit exclusion, all but the video region of a b-frame that is due. -/
theorem sendNonvideo_returns (s : WindowVideoSource) (env : Env) (regions : List Rectangle) (encoding : String)
    (excludeRegion : Option Rectangle) (getBestEncoding : String → GetEncoding) :
    Returns (getBestEncoding encoding 0 s.windowDimensions.1 s.windowDimensions.2 = "")
      (fun passed => ∀ p, Inside s.windowDimensions p → p ∈ covered pixels regions →
        (∀ ex, excludeRegion = some ex → p ∉ pixels ex) →
        Sends p passed ∨ (LeftOut s p ∧ excludeRegion = none))
      (sendNonvideo s env regions encoding excludeRegion getBestEncoding) := by
  unfold sendNonvideo
  dsimp only
  refine (doSendRegions_returns s env _ regions _).imp id fun passed sends p inside damaged outside => ?_
  -- the pixel is passed when it is not in what is excluded
  by_cases listed : p ∈ without (covered pixels regions)
      (if s.bFrameFlushTimer ≠ 0 ∧ excludeRegion = none then s.rectangle else excludeRegion)
  · exact .inl (sends p inside listed)
  · right
    split at listed
    · rename_i due
      refine ⟨⟨due.1, ?_⟩, due.2⟩
      cases known : s.rectangle with
      | none =>
          rw [known] at listed
          exact absurd damaged listed
      | some vr =>
          rw [known] at listed
          refine ⟨vr, rfl, ?_⟩
          by_contra apart
          exact listed (Finset.mem_sdiff.mpr ⟨damaged, apart⟩)
    · cases excludeRegion with
      | none => exact absurd damaged listed
      | some ex => exact absurd (Finset.mem_sdiff.mpr ⟨damaged, outside ex rfl⟩) listed

theorem startTimer_expires (delayed : Delayed.WindowSource) (due targetDelay : Int) :
    Expires (startTimer (.expireDelayedRegion due targetDelay) delayed) :=
  ⟨due, targetDelay, Sources.mem_add.mpr (.inr rfl)⟩

/-- The rest, with the region that was delayed before, is sent or delayed some more. -/
theorem sendRest_returns (s : WindowVideoSource) (env : Env) (damageTime : Int) (regions : List Rectangle)
    (coding : String) (options : Options) (actualVr : Option Rectangle) :
    Returns (env.bestNonvideoEncoding "" 0 s.windowDimensions.1 s.windowDimensions.2 = "")
      (fun done => ∀ p, Inside s.windowDimensions p → p ∈ covered pixels regions ∨ Waits p s.delayed →
        (∀ vr, actualVr = some vr → p ∉ pixels vr) → Handled s actualVr p done.1 done.2)
      (sendRest s env damageTime regions coding options actualVr) := by
  have together (all : List Rectangle) (time : Int) (left : Delayed.WindowSource)
      (more : ∀ p, p ∈ covered pixels regions ∨ Waits p s.delayed → p ∈ covered pixels all) :
      Returns (env.bestNonvideoEncoding "" 0 s.windowDimensions.1 s.windowDimensions.2 = "")
        (fun done => ∀ p, Inside s.windowDimensions p → p ∈ covered pixels regions ∨ Waits p s.delayed →
          (∀ vr, actualVr = some vr → p ∉ pixels vr) → Handled s actualVr p done.1 done.2)
        (if restDelay s env time actualVr ≤ 25 then do
            let passed ← sendNonvideo s env all "" actualVr env.bestNonvideoEncoding
            .ok (left, passed)
          else .ok (startTimer (.expireDelayedRegion 0 100)
            { left with damageDelayed := some ⟨time, coding, options, all, false⟩ }, [])) := by
    split
    · refine .bind ((sendNonvideo_returns s env all "" actualVr _).imp id fun passed sends => ?_)
      intro p inside either apart
      rcases sends p inside (more p either) apart with sends | ⟨due, unsent⟩
      · exact .sent sends
      · exact .leftOut due unsent
    · exact fun p _ either _ => .delayed ⟨_, rfl, more p either⟩ (startTimer_expires _ 0 100)
  unfold sendRest
  cases known : s.delayed.damageDelayed with
  | none =>
      refine together regions damageTime s.delayed fun p either => ?_
      rcases either with damaged | ⟨delayed, waiting, -⟩
      · exact damaged
      · rw [known] at waiting
        cases waiting
  | some dr =>
      refine together (dr.regions ++ regions) _ _ fun p either => ?_
      rw [covered_append, Finset.mem_union]
      rcases either with damaged | ⟨delayed, waiting, listed⟩
      · exact .inr damaged
      · rw [known] at waiting
        cases waiting
        exact .inl listed

/-- The video region is passed first, and the rest without it. -/
theorem sendVideo_returns (s : WindowVideoSource) (env : Env) (damageTime : Int) (regions : List Rectangle)
    (coding : String) (options : Options) (actualVr : Rectangle) :
    Returns (env.bestNonvideoEncoding "" 0 s.windowDimensions.1 s.windowDimensions.2 = "")
      (fun done => (∀ p, Inside s.windowDimensions p → p ∈ covered pixels regions →
          Handled s (some actualVr) p done.1 done.2) ∧
        (done.1 = s.delayed ∨ ∀ p, Inside s.windowDimensions p → Waits p s.delayed →
          Handled s (some actualVr) p done.1 done.2))
      (sendVideo s env damageTime regions coding options actualVr) := by
  have trims : covered pixels (regions.flatMap fun r => r.subtractRect actualVr) =
      covered pixels regions \ pixels actualVr := covered_flatMap fun r _ => covered_subtract_all r actualVr
  unfold sendVideo
  dsimp only
  split
  · rename_i nothing
    rw [nothing, covered_nil] at trims
    refine ⟨fun p _ damaged => .sent (Finset.mem_union_left _ ?_), .inl rfl⟩
    by_contra apart
    have left : p ∈ covered pixels regions \ pixels actualVr := Finset.mem_sdiff.mpr ⟨damaged, apart⟩
    rw [← trims] at left
    exact absurd left (Finset.notMem_empty p)
  · refine .bind ((sendRest_returns s env damageTime _ coding options (some actualVr)).imp id
      fun done handles => ?_)
    have handled (p : Int × Int) (inside : Inside s.windowDimensions p)
        (damaged : p ∈ covered pixels regions ∨ Waits p s.delayed) :
        Handled s (some actualVr) p done.1 (⟨actualVr, coding, 0⟩ :: done.2) := by
      by_cases video : p ∈ pixels actualVr
      · exact .sent (Finset.mem_union_left _ video)
      · have rest : p ∈ covered pixels (regions.flatMap fun r => r.subtractRect actualVr) ∨
            Waits p s.delayed := by
          rw [trims, Finset.mem_sdiff]
          exact damaged.imp (fun damaged => ⟨damaged, video⟩) id
        have apart (vr : Rectangle) (same : some actualVr = some vr) : p ∉ pixels vr := by
          cases same
          exact video
        cases handles p inside rest apart with
        | sent sends => exact .sent (Finset.mem_union_right _ sends)
        | delayed waits expires => exact .delayed waits expires
        | leftOut due unsent => exact .leftOut due unsent
    exact ⟨fun p inside damaged => handled p inside (.inl damaged),
      .inr fun p inside waits => handled p inside (.inr waits)⟩

/-- What is sent without the video encoder: the region that was delayed before is left alone. -/
theorem plain_returns {sent : Except Exn (List Passed)} {coding : String} {options : Options}
    (unsent : videoSent s regions coding options = none)
    (returns : Returns (Refused s env) (fun passed => ∀ p, Inside s.windowDimensions p →
      p ∈ covered pixels regions → Sends p passed ∨ LeftOut s p) sent) :
    Returns (Refused s env) (fun done => Conserved s regions coding options done.1 done.2)
      (sent.map fun passed => (s.delayed, passed)) := by
  cases sent with
  | error e => exact returns
  | ok passed =>
      refine ⟨fun p inside damaged => ?_, .inl rfl⟩
      rcases returns p inside damaged with sends | due
      · exact .sent sends
      · exact .leftOut due unsent

theorem sendRegions_returns (s : WindowVideoSource) (env : Env) (damageTime : Int) (regions : List Rectangle)
    (coding : String) (options : Options) :
    Returns (Refused s env) (fun done => Conserved s regions coding options done.1 done.2)
      (sendRegions s env damageTime regions coding options) := by
  have nonvideo (encoding : String) (getBestEncoding : String → GetEncoding)
      (refused : getBestEncoding encoding 0 s.windowDimensions.1 s.windowDimensions.2 = "" → Refused s env) :
      Returns (Refused s env) (fun passed => ∀ p, Inside s.windowDimensions p → p ∈ covered pixels regions →
        Sends p passed ∨ LeftOut s p) (sendNonvideo s env regions encoding none getBestEncoding) :=
    (sendNonvideo_returns s env regions encoding none getBestEncoding).imp refused
      fun passed sends p inside damaged => (sends p inside damaged nofun).imp_right And.left
  unfold sendRegions
  dsimp only
  split
  · rename_i tray
    exact plain_returns (if_pos (.inl tray)) (nonvideo "" env.bestNonvideoEncoding .nonvideo)
  rename_i tray
  split
  · rename_i other
    exact plain_returns (if_pos (.inr (.inl other))) (nonvideo coding env.bestEncoding (.best coding))
  rename_i video
  split
  · rename_i novideo
    exact plain_returns (if_pos (.inr (.inr novideo))) (nonvideo "" env.bestNonvideoEncoding .nonvideo)
  rename_i allowed
  have sent : videoSent s regions coding options = match s.rectangle with
      | none => none
      | some vr => (actualVr vr regions).filter fun actualVr => !partiallyOutside s actualVr := by
    refine if_neg ?_
    rintro (one | one | one)
    · exact tray one
    · exact video one
    · exact allowed one
  split
  · rename_i absent
    rw [absent] at sent
    exact plain_returns sent ((doSendRegions_returns s env _ regions none).imp (.best coding)
      fun passed sends p inside damaged => .inl (sends p inside damaged))
  · rename_i vr known
    rw [known] at sent
    dsimp only at sent
    split
    · rename_i full
      exact .frames (by rw [known]; exact Option.some_ne_none _) full
    split
    · rename_i nowhere
      rw [nowhere] at sent
      refine (sendRest_returns s env damageTime regions coding options none).imp .nonvideo fun done handles => ?_
      have unsent : videoSent s regions coding options = none := sent
      refine ⟨?_, ?_⟩
      · rw [unsent]
        exact fun p inside damaged => handles p inside (.inl damaged) nofun
      · rw [unsent]
        exact .inr fun p inside waits => handles p inside (.inr waits) nofun
    · rename_i actual found
      rw [found, Option.filter_some] at sent
      split
      · rename_i outside
        rw [outside] at sent
        exact plain_returns sent (nonvideo "" env.bestNonvideoEncoding .nonvideo)
      · rename_i inside
        rw [Bool.not_eq_true] at inside
        rw [inside] at sent
        refine (sendVideo_returns s env damageTime regions coding options actual).imp .nonvideo fun done both => ?_
        have whole : videoSent s regions coding options = some actual := sent
        refine ⟨?_, ?_⟩
        · rw [whole]
          exact both.1
        · rw [whole]
          exact both.2

theorem Expires.armed {delayed : Delayed.WindowSource} (expires : Expires delayed) : Armed delayed := by
  obtain ⟨due, targetDelay, here⟩ := expires
  exact ⟨.expireDelayedRegion due targetDelay, .inl rfl, here⟩

theorem Handled.accounted {video : Option Rectangle} {delayed : Delayed.WindowSource} {passed : List Passed}
    (handled : Handled s video p delayed passed) : Accounted s p delayed passed := by
  cases handled with
  | sent sends => exact .sent sends
  | delayed waits expires => exact .delayed waits expires.armed
  | leftOut due unsent => exact .leftOut due

end

/-- Every damaged pixel, and every one that was delayed, is passed on, or it is delayed and a timer is
armed for it; only the video region can be left out, when a b-frame is due. -/
theorem send_regions_accounts {s : WindowVideoSource} {env : Env} {p : Int × Int} (encodes : Encodes s env)
    (frames : s.rectangle ≠ none → s.fullFramesOnly = false)
    (armed : s.delayed.damageDelayed ≠ none → Armed s.delayed) (inside : Inside s.windowDimensions p)
    (damageTime : Int) (regions : List Rectangle) (coding : String) (options : Options)
    (damaged : p ∈ covered pixels regions ∨ Waits p s.delayed) :
    ∃ delayed passed, sendRegions s env damageTime regions coding options = .ok (delayed, passed) ∧
      Accounted s p delayed passed := by
  have returns := sendRegions_returns s env damageTime regions coding options
  cases sent : sendRegions s env damageTime regions coding options with
  | error e =>
      rw [sent] at returns
      cases returns with
      | best coding none => exact absurd none (encodes.best coding)
      | nonvideo none => exact absurd none (encodes.nonvideo "")
      | frames region full =>
          rw [frames region] at full
          cases full
  | ok done =>
      rw [sent] at returns
      refine ⟨_, _, rfl, ?_⟩
      rcases damaged with damaged | waits
      · exact (returns.damaged p inside damaged).accounted
      · rcases returns.before with same | each
        · refine .delayed (same ▸ waits) (same ▸ armed ?_)
          obtain ⟨delayed, known, -⟩ := waits
          rw [known]
          exact Option.some_ne_none _
        · exact (each p inside waits).accounted

/-- When it returns, every damaged pixel is passed on or waits for the expire timer, or is left to the b-frame
that is due, and so is every one that was delayed, unless that region is left as it was; and it returns unless
there is no encoding, or a video region while only full frames are sent. -/
theorem send_regions_conserves (s : WindowVideoSource) (env : Env) (damageTime : Int) (regions : List Rectangle)
    (coding : String) (options : Options) :
    (∀ delayed passed, sendRegions s env damageTime regions coding options = .ok (delayed, passed) →
      Conserved s regions coding options delayed passed) ∧
    ∀ e, sendRegions s env damageTime regions coding options = .error e → Refused s env := by
  have returns := sendRegions_returns s env damageTime regions coding options
  refine ⟨fun delayed passed sent => ?_, fun e raised => ?_⟩
  · rw [sent] at returns
    exact returns
  · rw [raised] at returns
    exact returns

/-- A window with a video that has played for a while. -/
def player : WindowVideoSource where
  toWindowSource := { desktop with video := some ⟨["h264"], ["jpeg"]⟩ }
  isTray := false
  rectangle := some videoArea
  setAt := 0
  nonMaxWait := 150
  bFrameFlushTimer := 0
  delayed := idle

def playing : VideoRegions.Env where
  now := 0
  batchConfig := late.batchConfig
  damageEventsCount := 200
  iteration := inOrder
  bestEncoding := fun _ _ _ _ => "h264"
  bestNonvideoEncoding := fun _ _ _ _ => "jpeg"

theorem playing_encodes (timer : Nat) : Encodes { player with bFrameFlushTimer := timer } playing :=
  ⟨fun _ => (by decide : "h264" ≠ ""), fun _ => (by decide : "jpeg" ≠ "")⟩

/-- The video is sent, and a region next to it is delayed. -/
theorem send_regions_accounts_player : ∃ delayed passed,
    sendRegions player playing 0 (videoArea :: farApart) "auto" [] = .ok (delayed, passed) ∧
      passed = [⟨videoArea, "auto", 0⟩] ∧ Waits (850, 50) delayed ∧ Armed delayed := by
  have inside : Inside player.windowDimensions (850, 50) := ⟨by decide, by decide⟩
  obtain ⟨delayed, passed, sent, accounted⟩ := send_regions_accounts (playing_encodes 0) (fun _ => rfl)
    (fun waits => absurd rfl waits) inside 0 (videoArea :: farApart) "auto" [] (.inl (by
      rw [mem_covered]
      refine ⟨⟨800, 0, 100, 100, hundred_valid⟩, by decide, ?_⟩
      rw [mem_pixels]
      decide))
  have only : (sendRegions player playing 0 (videoArea :: farApart) "auto" []).map Prod.snd =
      .ok [⟨videoArea, "auto", 0⟩] := rfl
  have same : passed = [⟨videoArea, "auto", 0⟩] := by
    rw [show sendRegions player playing 0 (videoArea :: farApart) "auto" [] = .ok (delayed, passed) from sent]
      at only
    cases only
    rfl
  refine ⟨delayed, passed, sent, same, ?_⟩
  cases accounted with
  | sent sends =>
      rw [same, Sends, mem_covered] at sends
      obtain ⟨x, member, inX⟩ := sends
      rw [List.mem_singleton.mp member, mem_pixels] at inX
      exact absurd inX (by decide)
  | delayed waits armed => exact ⟨waits, armed⟩
  | leftOut due => exact absurd rfl due.1

/-- A refresh of the whole window while a b-frame is due, and one next to a region that waits for its timeout. -/
theorem not_send_regions_conserves :
    (¬ ∀ (s : WindowVideoSource) (env : VideoRegions.Env), Encodes s env → s.fullFramesOnly = false →
      ∀ damageTime regions coding options delayed passed,
        sendRegions s env damageTime regions coding options = .ok (delayed, passed) →
        ∀ p, Inside s.windowDimensions p → p ∈ covered pixels regions →
          Sends p passed ∨ (Waits p delayed ∧ Expires delayed)) ∧
    ¬ ∀ (s : WindowVideoSource) (env : VideoRegions.Env), Encodes s env → s.fullFramesOnly = false →
      s.bFrameFlushTimer = 0 → ∀ damageTime regions coding options delayed passed,
        sendRegions s env damageTime regions coding options = .ok (delayed, passed) →
        ∀ p, Inside s.windowDimensions p → Waits p s.delayed →
          Sends p passed ∨ (Waits p delayed ∧ Expires delayed) := by
  refine ⟨fun claim => ?_, fun claim => ?_⟩
  · have inside : Inside player.windowDimensions (100, 100) := ⟨by decide, by decide⟩
    have around : sendRegions { player with bFrameFlushTimer := 1 } playing 0 [player.window] "auto"
        [("novideo", .bool true)] = .ok (idle, [⟨⟨0, 400, 1000, 600, by decide⟩, "jpeg", 2⟩,
          ⟨⟨450, 0, 550, 400, by decide⟩, "jpeg", 1⟩, ⟨⟨0, 0, 50, 400, by decide⟩, "jpeg", 0⟩]) := rfl
    have either := claim { player with bFrameFlushTimer := 1 } playing (playing_encodes 1) rfl 0 [player.window]
      "auto" _ _ _ around (100, 100) inside (by
        rw [mem_covered]
        refine ⟨player.window, List.mem_singleton.mpr rfl, ?_⟩
        rw [mem_pixels]
        decide)
    rw [Sends, mem_covered] at either
    rcases either with ⟨x, member, inX⟩ | ⟨⟨delayed, known, -⟩, -⟩
    · rw [mem_pixels] at inX
      simp only [List.mem_cons, List.not_mem_nil, or_false] at member
      rcases member with rfl | rfl | rfl
      all_goals exact absurd inX (by decide)
    · cases known
  · have inside : Inside player.windowDimensions (5, 5) := ⟨by decide, by decide⟩
    have encodes : Encodes { player with delayed := waiting } playing :=
      ⟨(playing_encodes 0).best, (playing_encodes 0).nonvideo⟩
    have beside : sendRegions { player with delayed := waiting } playing 0 [⟨800, 0, 100, 100, hundred_valid⟩] "auto"
        [("novideo", .bool true)] = .ok (waiting, [⟨⟨800, 0, 100, 100, hundred_valid⟩, "jpeg", 0⟩]) := rfl
    have waits : Waits (5, 5) waiting := by
      refine ⟨_, rfl, ?_⟩
      rw [mem_covered]
      refine ⟨⟨0, 0, 10, 10, Refresh.square_valid⟩, List.mem_singleton.mpr rfl, ?_⟩
      rw [mem_pixels]
      decide
    have either := claim { player with delayed := waiting } playing encodes rfl rfl 0 _ "auto" _ _ _ beside (5, 5)
      inside waits
    rw [Sends, mem_covered] at either
    rcases either with ⟨x, member, inX⟩ | ⟨-, due, targetDelay, here⟩
    · rw [List.mem_singleton.mp member, mem_pixels] at inX
      exact absurd inX (by decide)
    · have only : waiting.timers.sources = [(4, .delayedRegionTimeout 0)] := rfl
      rw [only, List.mem_singleton] at here
      cases here

end Catlink.VideoRegions
