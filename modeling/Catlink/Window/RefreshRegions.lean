import Catlink.Lib.MainLoop
import Catlink.Util.Region

/-! The areas of a window that are to be sent again without loss. Those of the video region are
kept apart from the others, and have timers of their own. -/

namespace Catlink.Refresh

open MainLoop Util Cover

theorem square_valid : (0 : Int) ≤ 10 ∧ (0 : Int) ≤ 10 := by decide

/-- `add_rectangle`, with a bound that is never reached. -/
def addTo (regions : List Rectangle) (region : Rectangle) : Int × List Rectangle :=
  (addRectangle ((region.width * region.height).toNat + 1) regions region).getD (0, regions)

theorem covered_addTo (regions : List Rectangle) (region : Rectangle) :
    covered pixels (addTo regions region).2 = covered pixels regions ∪ pixels region := by
  have count := card_pixels region
  obtain ⟨added, regions', found, covers⟩ :=
    addRectangle_covers ((region.width * region.height).toNat + 1) region (by omega) regions
  rw [addTo, found]
  exact covers

inductive Timer
  /-- `refresh_timer_function` -/
  | refresh
  /-- `VideoSubregion.refresh` -/
  | video
  /-- `VideoSubregion.nonvideo_refresh` -/
  | nonvideo
  deriving DecidableEq

structure VideoSubregion where
  rectangle : Option Rectangle := none
  refreshTimer : Nat := 0
  refreshRegions : List Rectangle := []
  nonvideoRegions : List Rectangle := []
  nonvideoRefreshTimer : Nat := 0

/-- What a refresh passes to `do_send_regions`. -/
structure Sent where
  regions : List Rectangle
  excludeRegion : Option Rectangle

structure WindowVideoSource where
  windowDimensions : Nat × Nat
  encoding : String
  imageDepth : Nat
  refreshQuality : Int
  /-- `TRUE_LOSSLESS` -/
  trueLossless : Bool
  fullFramesOnly : Bool
  maxSmallRegions : Nat
  videoSubregion : VideoSubregion := {}
  refreshTimer : Nat := 0
  /-- 0 when no refresh is due -/
  refreshEventTime : Nat := 0
  refreshRegions : List Rectangle := []
  /-- the regions of `_damage_delayed` -/
  damageDelayed : Option (List Rectangle) := none
  /-- the regions that were passed on from there, until their updates are encoded -/
  sending : List Rectangle := []
  timers : Sources Timer := .start
  sent : List Sent := []

/-- What the refresh callbacks find when they run. -/
structure Env where
  /-- `can_refresh()` -/
  canRefresh : Bool
  /-- a congestion event in the last five seconds -/
  congested : Bool

namespace WindowVideoSource

def setVideo (s : WindowVideoSource) (video : VideoSubregion) : WindowVideoSource :=
  { s with videoSubregion := video }

def doSendRegions (s : WindowVideoSource) (regions : List Rectangle)
    (excludeRegion : Option Rectangle) : WindowVideoSource :=
  { s with sent := s.sent ++ [⟨regions, excludeRegion⟩] }

end WindowVideoSource

/-! ### The video region -/

namespace VideoSubregion

def cancelRefreshTimer (s : WindowVideoSource) : WindowVideoSource :=
  if s.videoSubregion.refreshTimer = 0 then s
  else
    { s with
      videoSubregion := { s.videoSubregion with refreshTimer := 0 }
      timers := s.timers.remove s.videoSubregion.refreshTimer }

/-- `timeout_add(delay, self.refresh)` -/
def startRefreshTimer (s : WindowVideoSource) : WindowVideoSource :=
  { s with
    videoSubregion := { s.videoSubregion with refreshTimer := s.timers.next }
    timers := s.timers.add .video }

def startNonvideoRefreshTimer (s : WindowVideoSource) : WindowVideoSource :=
  { s with
    videoSubregion := { s.videoSubregion with nonvideoRefreshTimer := s.timers.next }
    timers := s.timers.add .nonvideo }

def removeRefreshRegion (s : WindowVideoSource) (region : Rectangle) : WindowVideoSource :=
  s.setVideo { s.videoSubregion with
    refreshRegions := removeRectangle s.videoSubregion.refreshRegions region
    nonvideoRegions := removeRectangle s.videoSubregion.nonvideoRegions region }

/-- What is now outside of the video region. -/
def outside (rect : Rectangle) (regions : List Rectangle) : List Rectangle :=
  regions.flatMap fun r => if rect.containsRect r = true then [] else r.subtractRect rect

def addVideoRefresh (s : WindowVideoSource) (region : Rectangle) : WindowVideoSource :=
  match s.videoSubregion.rectangle with
  | none => s
  | some rect =>
      let s := cancelRefreshTimer s
      let regions := (addTo s.videoSubregion.refreshRegions region).2
      let nonvideo := s.videoSubregion.nonvideoRegions ++ outside rect regions
      let s :=
        if nonvideo = [] then
          s.setVideo { s.videoSubregion with refreshRegions := regions, nonvideoRegions := [] }
        else
          let s := if s.videoSubregion.nonvideoRefreshTimer = 0 then startNonvideoRefreshTimer s else s
          s.setVideo { s.videoSubregion with
            refreshRegions := regions.filterMap rect.intersectionRect
            nonvideoRegions := nonvideo }
      if s.videoSubregion.refreshRegions = [] then s else startRefreshTimer s

end VideoSubregion

/-- `refresh_subregion`, the callback of the video region -/
def refreshSubregion (s : WindowVideoSource) (env : Env) (regions : List Rectangle) :
    WindowVideoSource × Bool :=
  if regions = [] then (s, false)
  else if env.canRefresh = false then (s, false)
  else if env.congested = true then (s, false)
  else (s.doSendRegions regions none, true)

namespace VideoSubregion

/-- `nonvideo_refresh` up to the answer of the callback, which is no when there is nothing to do -/
def startNonvideoRefresh (s : WindowVideoSource) (env : Env) : WindowVideoSource × Bool :=
  let s := s.setVideo { s.videoSubregion with nonvideoRefreshTimer := 0 }
  let nonvideo := s.videoSubregion.nonvideoRegions
  if nonvideo = [] then (s, false) else refreshSubregion s env nonvideo

def endNonvideoRefresh (s : WindowVideoSource) (refreshed : Bool) : WindowVideoSource :=
  if refreshed = true then s.setVideo { s.videoSubregion with nonvideoRegions := [] } else s

def nonvideoRefresh (s : WindowVideoSource) (env : Env) : WindowVideoSource :=
  let (s, refreshed) := startNonvideoRefresh s env
  endNonvideoRefresh s refreshed

/-- The regions one by one, or all of the video region. -/
def regionsToRefresh (video : VideoSubregion) : List Rectangle :=
  match video.rectangle with
  | some rect =>
      let pixels := (video.refreshRegions.map fun r => r.width * r.height).sum
      if 2 ≤ video.refreshRegions.length ∧ rect.width * rect.height / 2 ≤ pixels then [rect]
      else video.refreshRegions
  | none => video.refreshRegions

/-- `refresh` up to the answer of the callback -/
def startRefresh (s : WindowVideoSource) (env : Env) : WindowVideoSource × Bool :=
  let s := s.setVideo { s.videoSubregion with refreshTimer := 0 }
  refreshSubregion s env (regionsToRefresh s.videoSubregion)

def endRefresh (s : WindowVideoSource) (refreshed : Bool) : WindowVideoSource :=
  if refreshed = true then s.setVideo { s.videoSubregion with refreshRegions := [] }
  else startRefreshTimer s

def refresh (s : WindowVideoSource) (env : Env) : WindowVideoSource :=
  let (s, refreshed) := startRefresh s env
  endRefresh s refreshed

end VideoSubregion

/-! ### The window -/

/-- `add_refresh_region` and `remove_refresh_region` of the base class -/
def addBaseRegion (s : WindowVideoSource) (region : Rectangle) : WindowVideoSource :=
  { s with refreshRegions := (addTo s.refreshRegions region).2 }

def removeBaseRegion (s : WindowVideoSource) (region : Rectangle) : WindowVideoSource :=
  { s with refreshRegions := removeRectangle s.refreshRegions region }

def removeRefreshRegion (s : WindowVideoSource) (region : Rectangle) : WindowVideoSource :=
  VideoSubregion.removeRefreshRegion (removeBaseRegion s region) region

def addRefreshRegion (s : WindowVideoSource) (region : Rectangle) : WindowVideoSource :=
  match s.videoSubregion.rectangle with
  | none => addBaseRegion s region
  | some vr =>
      if vr.containsRect region = true then VideoSubregion.addVideoRefresh s region
      else
        match vr.intersectionRect region with
        | none => addBaseRegion s region
        | some ir =>
            (region.subtractRect vr).foldl addBaseRegion (VideoSubregion.addVideoRefresh s ir)

def cancelRefreshTimer (s : WindowVideoSource) : WindowVideoSource :=
  if s.refreshTimer = 0 then s
  else
    { s with
      refreshTimer := 0
      refreshEventTime := 0
      timers := s.timers.remove s.refreshTimer }

/-- `timeout_add(delay, self.refresh_timer_function)` -/
def startRefreshTimer (s : WindowVideoSource) : WindowVideoSource :=
  { s with refreshTimer := s.timers.next, timers := s.timers.add .refresh }

def timerFullRefresh (s : WindowVideoSource) (env : Env) : WindowVideoSource :=
  let ret := s.refreshEventTime
  let regions := s.refreshRegions
  let s := { s with refreshEventTime := 0, refreshRegions := [] }
  if env.canRefresh = true ∧ regions ≠ [] ∧ 0 < ret then
    s.doSendRegions regions s.videoSubregion.rectangle
  else s

/-- `due` is whether the target time is at most 50 ms away. -/
def refreshTimerFunction (s : WindowVideoSource) (env : Env) (due : Bool) : WindowVideoSource :=
  let s := { s with refreshTimer := 0 }
  if env.canRefresh = false then { s with refreshEventTime := 0 }
  else if s.refreshEventTime = 0 then s
  else if due = true then timerFullRefresh s env
  else startRefreshTimer s

/-- Where the old video region was is scheduled with the rest of the window. -/
def addOldRegion (s : WindowVideoSource) : Option Rectangle → WindowVideoSource
  | some old => addBaseRegion s old
  | none => s

/-- The new video region is removed from the regular refresh. -/
def moveVideoRegion (s : WindowVideoSource) (old : Option Rectangle) (newrect : Rectangle) :
    WindowVideoSource :=
  let subregionNeedsRefresh := s.refreshRegions.any newrect.intersectsRect
  let s := removeBaseRegion (addOldRegion s old) newrect
  let s := if s.refreshRegions = [] then cancelRefreshTimer s else s
  if subregionNeedsRefresh = true then VideoSubregion.addVideoRefresh s newrect else s

/-- The detection branch of `update_encoding_video_subregion`, where `identify_video_subregion` has
found `newrect`. -/
def updateEncodingVideoSubregion (s : WindowVideoSource) (newrect : Option Rectangle) :
    WindowVideoSource :=
  let old := s.videoSubregion.rectangle
  let s := s.setVideo { s.videoSubregion with rectangle := newrect }
  match newrect with
  | some rect => if old = newrect then s else moveVideoRegion s old rect
  | none =>
      match old with
      | some old => VideoSubregion.cancelRefreshTimer (addRefreshRegion s old)
      | none => s

/-! ### Updates -/

/-- `LOSSY_PIXEL_FORMATS` -/
def lossyPixelFormats : List String := ["NV12", "YUV420P", "YUVA420P", "YUV422P", "YUVA422P"]

/-- A screen update that was encoded. -/
structure Update where
  encoding : String
  region : Rectangle
  quality : Int
  csc : String
  /-- whether there is a scaled size -/
  scaled : Bool
  /-- the option of this name -/
  autoRefresh : Bool

/-- `str.startswith` -/
def startsWith (encoding text : String) : Bool := text.toList.isPrefixOf encoding.toList

def isLossy (s : WindowVideoSource) (update : Update) : Bool :=
  if startsWith update.encoding "png" then 32 < s.imageDepth || s.imageDepth = 30
  else if startsWith update.encoding "rgb" || update.encoding = "mmap" then false
  else
    update.quality < s.refreshQuality || lossyPixelFormats.contains update.csc || update.scaled ||
      update.encoding = "jpeg" && s.trueLossless

/-- The pixels of the region and of the window, without those of the video region. -/
def pixcounts (s : WindowVideoSource) (region : Rectangle) : Int × Int :=
  let window : Int := s.windowDimensions.1 * s.windowDimensions.2
  let area := region.width * region.height
  match s.videoSubregion.rectangle with
  | none => (area, window)
  | some vr =>
      match region.intersectionRect vr with
      | none => (area, window - vr.width * vr.height)
      | some excluded => (area - excluded.width * excluded.height, window - vr.width * vr.height)

def doScheduleAutoRefresh (s : WindowVideoSource) (update : Update) (now : Nat) : WindowVideoSource :=
  if s.encoding = "stream" then s
  else if isLossy s update = false ∨ update.autoRefresh = true then
    let s := removeRefreshRegion s update.region
    if s.refreshTimer = 0 then s
    else if s.refreshRegions = [] then cancelRefreshTimer s
    else s
  else if s.windowDimensions.1 = 0 ∨ s.windowDimensions.2 = 0 then cancelRefreshTimer s
  else
    let (regionPixcount, windowPixcount) := pixcounts s update.region
    let s := addRefreshRegion s update.region
    let pct := if windowPixcount ≤ 0 then 100 else 100 * regionPixcount / windowPixcount
    let s := if pct = 100 then cancelRefreshTimer s else s
    if s.refreshTimer = 0 then
      if regionPixcount ≤ 0 ∨ s.refreshRegions = [] then s
      else startRefreshTimer { s with refreshEventTime := now }
    else s

/-- The whole window. -/
def WindowVideoSource.window (s : WindowVideoSource) : Rectangle :=
  ⟨0, 0, s.windowDimensions.1, s.windowDimensions.2, by omega⟩

/-- The regions of `_damage_delayed` with one more. -/
def delay (s : WindowVideoSource) (region : Rectangle) : List Rectangle :=
  match s.damageDelayed with
  | some regions =>
      if s.fullFramesOnly = true ∨ s.maxSmallRegions ≤ regions.length then [s.window]
      else (addTo regions region).2
  | none => [region]

def doDamage (s : WindowVideoSource) (region : Rectangle) : WindowVideoSource :=
  let s := match s.videoSubregion.rectangle with
    | some r => if r.intersectsRect region = true then VideoSubregion.cancelRefreshTimer s else s
    | none => s
  { s with damageDelayed := some (delay s region) }

/-- The regions are taken: `send_regions` passes on those of `regions`, and delays `rest` some more. -/
def doSendDelayed (s : WindowVideoSource) (regions : List Rectangle)
    (rest : Option (List Rectangle)) : WindowVideoSource :=
  match s.damageDelayed with
  | none => s
  | some _ => { s with damageDelayed := rest, sending := s.sending ++ regions }

end Catlink.Refresh
