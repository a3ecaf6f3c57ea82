import Catlink.Lib.Dict
import Catlink.Lib.MainLoop
import Catlink.Python
import Catlink.Window.RefreshRegions
import Mathlib.Tactic

/-! The damage of a window that waits to be sent, and the timers it waits for. Times are in
milliseconds. -/

namespace Catlink.Delayed

open MainLoop Util

abbrev Options := List (String × PyVal)

structure DelayedRegions where
  damageTime : Int
  encoding : String
  options : Options
  regions : List Rectangle
  expired : Bool := false

/-- The functions of the main loop's sources, with their arguments. -/
inductive Callback
  | expireDelayedRegion (due targetDelay : Int)
  | delayedRegionSoftTimeout
  | delayedRegionTimeout (delayedRegionTime : Int)
  | maySendDelayed
  /-- `call_may_send_delayed` -/
  | acked

structure BatchConfig where
  delay : Int
  minDelay : Int
  maxDelay : Int
  expireDelay : Int
  timeoutDelay : Int
  locked : Bool

/-- What the functions read of the clock, of the statistics and of the rest of the window source. -/
structure Env where
  now : Int
  /-- the clock once the region was not sent -/
  later : Int
  batchConfig : BatchConfig
  packetsBacklog : Nat
  bandwidthLimit : Int
  bitrate : Int
  pixelsEncodingBacklog : Nat
  encBacklogCount : Nat
  acksPending : Nat
  damageEventsCount : Nat
  windowDimensions : Nat × Nat
  /-- `window.is_managed()` -/
  managed : Bool
  autoRefreshEncodings : List String
  refreshQuality : Int
  refreshSpeed : Int
  encoding : String
  sequence : Nat

/-- What `send_regions` is called with. -/
structure Sent where
  damageTime : Int
  regions : List Rectangle
  encoding : String
  options : Options

structure WindowSource where
  maxSoftExpired : Nat
  fullFramesOnly : Bool
  maxSmallRegions : Nat
  expireTimer : Nat := 0
  softTimer : Nat := 0
  timeoutTimer : Nat := 0
  maySendTimer : Nat := 0
  timers : Sources Callback := .start
  damageDelayed : Option DelayedRegions := none
  softExpired : Nat := 0
  damageCancelled : Nat := 0
  sent : List Sent := []

/-- `MAX_SEQUENCE` -/
def maxSequence : Nat := 2 ^ 64

def WindowSource.isCancelled (s : WindowSource) : Bool := maxSequence ≤ s.damageCancelled

/-- `rectangle(0, 0, w, h)` -/
def wholeWindow (env : Env) : Rectangle :=
  ⟨0, 0, env.windowDimensions.1, env.windowDimensions.2, by omega⟩

/-! ### Timers -/

/-- What a source's function is for; `acked` is the only one without a variable for the number. -/
inductive Kind
  | expire
  | soft
  | timeout
  | maySend
  | acked
  deriving DecidableEq

def Callback.kind : Callback → Kind
  | .expireDelayedRegion _ _ => .expire
  | .delayedRegionSoftTimeout => .soft
  | .delayedRegionTimeout _ => .timeout
  | .maySendDelayed => .maySend
  | .acked => .acked

def WindowSource.number (s : WindowSource) : Kind → Nat
  | .expire => s.expireTimer
  | .soft => s.softTimer
  | .timeout => s.timeoutTimer
  | .maySend => s.maySendTimer
  | .acked => 0

def WindowSource.setNumber (s : WindowSource) (kind : Kind) (number : Nat) : WindowSource :=
  match kind with
  | .expire => { s with expireTimer := number }
  | .soft => { s with softTimer := number }
  | .timeout => { s with timeoutTimer := number }
  | .maySend => { s with maySendTimer := number }
  | .acked => s

/-- `if timer: timer = 0; GLib.source_remove(timer)` -/
def cancelTimer (kind : Kind) (s : WindowSource) : WindowSource :=
  if s.number kind = 0 then s
  else { s.setNumber kind 0 with timers := s.timers.remove (s.number kind) }

def cancelExpireTimer : WindowSource → WindowSource := cancelTimer .expire

def cancelMaySendTimer : WindowSource → WindowSource := cancelTimer .maySend

def cancelSoftTimer : WindowSource → WindowSource := cancelTimer .soft

def cancelTimeoutTimer : WindowSource → WindowSource := cancelTimer .timeout

/-- `timer = GLib.timeout_add(delay, callback)`; the number of a source that is still armed is
overwritten. -/
def startTimer (callback : Callback) (s : WindowSource) : WindowSource :=
  { s.setNumber callback.kind s.timers.next with timers := s.timers.add callback }

/-- The other timers of the window are left out. -/
def cancelDamage (s : WindowSource) (env : Env) (limit : Nat) : WindowSource :=
  let s := { s with damageCancelled := if limit ≠ 0 then limit else env.sequence }
  let s := cancelTimeoutTimer (cancelSoftTimer (cancelMaySendTimer (cancelExpireTimer s)))
  { s with damageDelayed := none }

/-! ### Sending -/

def sendDelayedRegions (s : WindowSource) (env : Env) (delayed : DelayedRegions) : WindowSource :=
  if env.managed = false then s
  else if s.isCancelled = true then s
  else
    { s with
      sent := s.sent ++ [⟨delayed.damageTime, delayed.regions, delayed.encoding, delayed.options⟩] }

def doSendDelayed (s : WindowSource) (env : Env) : WindowSource :=
  let s := cancelSoftTimer (cancelTimeoutTimer s)
  match s.damageDelayed with
  | none => s
  | some delayed => sendDelayedRegions { s with damageDelayed := none } env delayed

def checkAgain : WindowSource → WindowSource := startTimer .maySendDelayed

def maySendDelayed (s : WindowSource) (env : Env) : WindowSource :=
  match s.damageDelayed with
  | none => s
  | some delayed =>
      if delayed.expired = false then s
      -- an acknowledgement will call again; past the timeout the backlog is reset too
      else if 0 < env.packetsBacklog then s
      else if env.batchConfig.locked = true then
        if env.now - delayed.damageTime < env.batchConfig.delay then checkAgain s
        else doSendDelayed s env
      else if 0 < env.bandwidthLimit ∧ env.bandwidthLimit ≤ env.bitrate then checkAgain s
      else if env.windowDimensions.1 * env.windowDimensions.2 ≤ env.pixelsEncodingBacklog ∨
          10 < env.encBacklogCount then
        if env.acksPending = 0 then checkAgain s else s
      else doSendDelayed { s with softExpired := 0 } env

/-- `get_refresh_options` -/
def refreshOptions (env : Env) : Options :=
  [("optimize", .bool false), ("auto_refresh", .bool true), ("quality", .int env.refreshQuality),
    ("speed", .int env.refreshSpeed)]

def fullQualityRefresh (s : WindowSource) (env : Env) (damageOptions : Options) : WindowSource :=
  if env.managed = false then s
  else
    match env.autoRefreshEncodings with
    | [] => s
    | encoding :: _ =>
        if s.isCancelled = true then s
        else
          let options := (refreshOptions env).foldl (fun d entry => Dict.set d entry.1 entry.2) damageOptions
          sendDelayedRegions s env ⟨env.now, encoding, options, [wholeWindow env], false⟩

/-! ### The timers' functions -/

/-- What is done with a region that could not be sent. -/
def delayAgain (s : WindowSource) (env : Env) (delayed : DelayedRegions) (due : Int) : WindowSource :=
  if env.later < due then startTimer (.expireDelayedRegion due 100) s
  else if s.softExpired < min (1 + env.damageEventsCount / 2) s.maxSoftExpired then
    startTimer .delayedRegionSoftTimeout { s with softExpired := s.softExpired + 1 }
  else if s.timeoutTimer = 0 then startTimer (.delayedRegionTimeout delayed.damageTime) s
  else s

def expireDelayedRegion (s : WindowSource) (env : Env) (due : Int) : WindowSource :=
  let s := { s with expireTimer := 0 }
  match s.damageDelayed with
  | none => s
  | some delayed =>
      if s.softTimer ≠ 0 then s
      else
        let delayed := { delayed with expired := true }
        let s := maySendDelayed (cancelMaySendTimer { s with damageDelayed := some delayed }) env
        match s.damageDelayed with
        | none => s
        | some delayed => delayAgain s env delayed due

def delayedRegionSoftTimeout (s : WindowSource) (env : Env) : WindowSource :=
  doSendDelayed { s with softTimer := 0 } env

def delayedRegionTimeout (s : WindowSource) (env : Env) (delayedRegionTime : Int) : WindowSource :=
  let s := { s with timeoutTimer := 0 }
  match s.damageDelayed with
  | none => s
  | some delayed =>
      if delayed.damageTime ≠ delayedRegionTime then s
      else
        let s := cancelSoftTimer (cancelExpireTimer (cancelDamage s env 0))
        fullQualityRefresh { s with damageDelayed := none } env delayed.options

/-! ### Damage -/

/-- The options of a damage, merged into those of the region or, with `override_options`, in their place. -/
def mergeOptions (options existing : Options) : Options :=
  let override := (Dict.get options "override_options").elim false PyVal.truthy
  options.foldl (fun existing entry =>
    if entry.1 = "override_options" then existing
    else if override = true ∨ Dict.get existing entry.1 = none then Dict.set existing entry.1 entry.2
    else existing) existing

def mergeDamage (s : WindowSource) (env : Env) (delayed : DelayedRegions) (region : Rectangle)
    (options : Options) : DelayedRegions :=
  { delayed with
    regions :=
      if s.fullFramesOnly = true ∨ s.maxSmallRegions ≤ delayed.regions.length then [wholeWindow env]
      else (Refresh.addTo delayed.regions region).2
    options := mergeOptions options delayed.options }

/-- `found a delayed region without a timer` -/
def Stranded (s : WindowSource) : Prop :=
  s.damageDelayed ≠ none ∧ s.expireTimer = 0 ∧ s.softTimer = 0 ∧ s.softExpired = 0

/-- `expireDelay` and `targetDelay` are worked out of the options, the batch configuration and the
congestion. -/
def doDamage (s : WindowSource) (env : Env) (region : Rectangle) (options : Options)
    (expireDelay targetDelay : Int) : WindowSource :=
  match s.damageDelayed with
  | some delayed =>
      let s := { s with damageDelayed := some (mergeDamage s env delayed region options) }
      if s.expireTimer = 0 ∧ s.softTimer = 0 ∧ s.softExpired = 0 then
        startTimer (.expireDelayedRegion env.now 100) s
      else s
  | none =>
      let encoding := match Dict.get options "encoding" with
        | some (.str encoding) => encoding
        | _ => env.encoding
      let s := { s with damageDelayed := some ⟨env.now, encoding, options, [region], false⟩ }
      startTimer (.expireDelayedRegion (env.now + expireDelay) targetDelay) s

/-- The end of `damage_packet_acked` -/
def damagePacketAcked (s : WindowSource) : WindowSource :=
  match s.damageDelayed with
  | none => { s with softExpired := 0 }
  | some delayed => if delayed.expired = true then { s with timers := s.timers.add .acked } else s

/-! ### Events -/

inductive Event
  | damage (region : Rectangle) (options : Options) (expireDelay targetDelay : Int)
  | acked
  | refresh (options : Options)
  | cancel (limit : Nat)
  /-- the main loop calls a source's function, and removes the source -/
  | fire (source : Nat) (callback : Callback)

def call (s : WindowSource) (env : Env) : Callback → WindowSource
  | .expireDelayedRegion due _ => expireDelayedRegion s env due
  | .delayedRegionSoftTimeout => delayedRegionSoftTimeout s env
  | .delayedRegionTimeout delayedRegionTime => delayedRegionTimeout s env delayedRegionTime
  | .maySendDelayed => maySendDelayed { s with maySendTimer := 0 } env
  | .acked => maySendDelayed (cancelMaySendTimer s) env

def WindowSource.fire (s : WindowSource) (env : Env) (source : Nat) (callback : Callback) : WindowSource :=
  call { s with timers := s.timers.remove source } env callback

def handle (s : WindowSource) (env : Env) : Event → WindowSource
  | .damage region options expireDelay targetDelay => doDamage s env region options expireDelay targetDelay
  | .acked => damagePacketAcked s
  | .refresh options => fullQualityRefresh s env options
  | .cancel limit => cancelDamage s env limit
  | .fire source callback => s.fire env source callback

/-- The functions that are called are those of the sources there are. -/
def Enabled (s : WindowSource) : Event → Prop
  | .fire source callback => (source, callback) ∈ s.timers.sources
  | _ => True

end Catlink.Delayed
