import Catlink.Lib.MainLoop
import Catlink.Python
import Mathlib.Data.List.MinMax
import Mathlib.Data.List.Perm.Basic

/-! The frames of a window between the grab and the encode thread: some of them wait in a queue, so
that the picture is not ahead of the sound. Times are in milliseconds. -/

namespace Catlink.EncodeQueue

open MainLoop

/-- What the rest of the window source sets, and the environment. -/
structure Settings where
  widthMask : Nat
  heightMask : Nat
  commonVideoEncodings : List String
  edgeEncoding : String
  avSync : Bool
  avSyncDelay : Int
  avSyncDelayTarget : Int
  contentType : String
  encodeQueueMaxSize : Nat
  /-- `FORCE_AV_DELAY` -/
  forceAvDelay : Int
  /-- `AV_SYNC_DEFAULT` -/
  avSyncDefault : Bool
  /-- `AV_SYNC_RATE_CHANGE` -/
  avSyncRateChange : Int
  /-- `ENCODE_QUEUE_MIN_GAP` -/
  encodeQueueMinGap : Int

/-- The pixels of a window, or of a part of it, and the sequence in which they were grabbed. -/
structure Image where
  id : Nat
  sequence : Nat
  deriving DecidableEq

/-- What `make_data_packet_cb` is called with in the encode thread, which owns the image then. -/
structure Item where
  width : Nat
  height : Nat
  damageTime : Int
  now : Int
  image : Image
  coding : String
  sequence : Nat
  flush : Nat

structure WindowSource where
  settings : Settings
  sequence : Nat := 1
  damageCancelled : Nat := 0
  encodeQueue : List Item := []
  encodeFromQueueTimer : Nat := 0
  /-- 0 when there is no timer -/
  encodeFromQueueDue : Option Int := none
  timers : Sources Unit := .start
  /-- what the encode thread has still to do -/
  encodeWorkQueue : List Item := []
  /-- what the encode thread took from its queue -/
  taken : List Item := []
  /-- and what of it was given to an encoder -/
  encoded : List Item := []
  /-- all the images there were -/
  grabbed : List Image := []
  freed : List Image := []

/-- What was given to the encode thread so far. -/
def WindowSource.handed (s : WindowSource) : List Item := s.taken ++ s.encodeWorkQueue

def WindowSource.isCancelled (s : WindowSource) (sequence : Nat) : Bool :=
  decide (sequence ≤ s.damageCancelled)

/-- `free_image_wrapper`; an image that was freed is not freed again. -/
def WindowSource.free (s : WindowSource) (image : Image) : WindowSource :=
  if image ∈ s.freed then s else { s with freed := s.freed ++ [image] }

/-- Another image of the current sequence. -/
def WindowSource.newImage (s : WindowSource) : WindowSource × Image :=
  let image : Image := ⟨s.grabbed.length, s.sequence⟩
  ({ s with grabbed := s.grabbed ++ [image] }, image)

/-! ### The encode thread -/

def callInEncodeThread (s : WindowSource) (item : Item) : WindowSource :=
  { s with encodeWorkQueue := s.encodeWorkQueue ++ [item] }

def makeDataPacketCb (s : WindowSource) (item : Item) : WindowSource :=
  if s.isCancelled item.sequence = true then (s.free item.image).free item.image
  else { s with encoded := s.encoded ++ [item] }.free item.image

/-- The encode thread takes what is first in its queue. -/
def encodeLoop (s : WindowSource) : WindowSource :=
  match s.encodeWorkQueue with
  | [] => s
  | item :: items =>
      makeDataPacketCb { s with encodeWorkQueue := items, taken := s.taken ++ [item] } item

/-! ### The queue -/

def cancelEncodeFromQueue (s : WindowSource) : WindowSource :=
  let s := { s with encodeFromQueueDue := none }
  if s.encodeFromQueueTimer = 0 then s
  else
    { s with
      encodeFromQueueTimer := 0
      timers := s.timers.remove s.encodeFromQueueTimer }

def freeEncodeQueueImages (s : WindowSource) : WindowSource :=
  (s.encodeQueue.map Item.image).foldl WindowSource.free { s with encodeQueue := [] }

/-- Whether there is no timer, or it is due later. -/
def dueLater (s : WindowSource) (due : Int) : Bool :=
  match s.encodeFromQueueDue with
  | none => true
  | some current => decide (due < current)

/-- The timer will fire no later than this. -/
def scheduleEncodeFromQueue (s : WindowSource) (now avDelay : Int) : WindowSource :=
  let due := now + avDelay
  if dueLater s due = true then
    let s := cancelEncodeFromQueue s
    { s with
      encodeFromQueueDue := some due
      encodeFromQueueTimer := s.timers.next
      timers := s.timers.add () }
  else s

def getFrameEncodeDelay (s : WindowSource) (contentType : Option String) : Int :=
  let contentType := contentType.getD s.settings.contentType
  if s.settings.avSync = false then 0
  else if 0 ≤ s.settings.forceAvDelay then s.settings.forceAvDelay
  else if s.settings.avSyncDefault = true ∧ ["text", "picture"].any (mentions contentType) = true then 0
  else if s.settings.avSyncDefault = false ∧ mentions contentType "audio" = false then 0
  else if s.settings.encodeQueueMaxSize ≤ s.encodeQueue.length then 0
  else s.settings.avSyncDelay

def updateAvSyncDelay (s : WindowSource) : WindowSource :=
  let delta := s.settings.avSyncDelayTarget - s.settings.avSyncDelay
  let rdelta := min s.settings.avSyncRateChange (max (-s.settings.avSyncRateChange) delta)
  if delta = 0 then s
  else { s with settings := { s.settings with avSyncDelay := s.settings.avSyncDelay + rdelta } }

/-- What the loop of `encode_from_queue` has found so far. -/
structure Scan where
  /-- when the items that stay are due, from now on -/
  stillDue : List Int := []
  /-- the positions of the others -/
  remove : List Nat := []
  donePacket : Bool := false
  freed : List Image := []
  encoded : List Item := []

/-- The loop, from this position on. -/
def scanQueue (cancelled : Nat) (avDelay now : Int) : List Item → Nat → Scan → Scan
  | [], _, found => found
  | item :: items, index, found =>
      scanQueue cancelled avDelay now items (index + 1)
        (if item.sequence ≤ cancelled then
          { found with freed := found.freed ++ [item.image], remove := found.remove ++ [index] }
        else if item.now + avDelay ≤ now ∧ found.donePacket = false then
          { found with
            remove := found.remove ++ [index]
            encoded := found.encoded ++ [item]
            donePacket := true }
        else { found with stillDue := found.stillDue ++ [item.now + avDelay - now] })

/-- `for x in reversed(remove): eq.pop(x)` -/
def popReversed (queue : List Item) (remove : List Nat) : List Item :=
  remove.reverse.foldl List.eraseIdx queue

def queueAvDelay (s : WindowSource) : Int :=
  if s.settings.encodeQueueMaxSize ≤ s.encodeQueue.length then 0
  else if 0 < s.settings.forceAvDelay then s.settings.forceAvDelay
  else s.settings.avSyncDelay

def encodeFromQueue (s : WindowSource) (now : Int) : WindowSource :=
  if s.encodeQueue = [] then s
  else
    let s := updateAvSyncDelay s
    let found := scanQueue s.damageCancelled (queueAvDelay s) now s.encodeQueue 0 {}
    let s := found.encoded.foldl callInEncodeThread (found.freed.foldl WindowSource.free
      { s with encodeQueue := popReversed s.encodeQueue found.remove })
    match found.stillDue.min? with
    | none => s
    | some first => scheduleEncodeFromQueue s now (max s.settings.encodeQueueMinGap first)

def timerEncodeFromQueue (s : WindowSource) (now : Int) : WindowSource :=
  encodeFromQueue { s with encodeFromQueueTimer := 0, encodeFromQueueDue := none } now

/-! ### Regions -/

/-- What the window answers to `get_image`. -/
inductive Grab
  /-- not managed, off screen, or nothing is left of the region -/
  | refused
  | nodata
  /-- `copies` for the wrappers of X11, whose `get_sub_image` always makes another image -/
  | image (copies : Bool) (width height : Nat)

/-- The image that was grabbed, with its size. -/
structure Wrapper where
  image : Image
  copies : Bool
  width : Nat
  height : Nat

def getDamageImage (s : WindowSource) : Grab → WindowSource × Option Wrapper
  | .refused => (s, none)
  | .nodata => ({ s with sequence := s.sequence + 1 }, none)
  | .image copies width height =>
      let s := { s with sequence := s.sequence + 1 }
      if s.isCancelled s.sequence = true ∨ width = 0 ∨ height = 0 then (s, none)
      else
        let (s, image) := s.newImage
        (s, some ⟨image, copies, width, height⟩)

structure Region where
  width : Nat
  height : Nat
  image : Image
  encoding : String

/-- `call_encode` -/
def callEncode (s : WindowSource) (now damageTime avDelay : Int) (sequence : Nat) (region : Region)
    (flush : Nat) : WindowSource :=
  if s.isCancelled sequence = true then s.free region.image
  else
    let item : Item :=
      ⟨region.width, region.height, damageTime, now, region.image, region.encoding, sequence, flush⟩
    if avDelay ≤ 0 then callInEncodeThread s item
    else scheduleEncodeFromQueue { s with encodeQueue := s.encodeQueue ++ [item] } now avDelay

def callEncodes (now damageTime avDelay : Int) (sequence : Nat) :
    WindowSource → List Region → Nat → WindowSource
  | s, [], _ => s
  | s, region :: regions, flush =>
      callEncodes now damageTime avDelay sequence
        (callEncode s now damageTime avDelay sequence region flush) regions (flush - 1)

/-- `get_sub_image`: except on X11, an area with the position and the size of the image is the
image. -/
def getSubImage (s : WindowSource) (wrapper : Wrapper) (x y w h : Nat) : WindowSource × Image :=
  if wrapper.copies = false ∧ x = 0 ∧ y = 0 ∧ w = wrapper.width ∧ h = wrapper.height then
    (s, wrapper.image)
  else s.newImage

/-- The edge on the right of what the mask leaves. -/
def rightEdge (s : WindowSource) (wrapper : Wrapper) (w h : Nat) : WindowSource × List Region :=
  if 0 < wrapper.width - w ∧ 0 < h then
    let (s, sub) := getSubImage s wrapper w 0 (wrapper.width - w) wrapper.height
    (s, [⟨wrapper.width - w, h, sub, s.settings.edgeEncoding⟩])
  else (s, [])

/-- The edge below, with the size of the other one as in the source. -/
def bottomEdge (s : WindowSource) (wrapper : Wrapper) (w h : Nat) : WindowSource × List Region :=
  if 0 < wrapper.height - h ∧ 0 < w then
    let (s, sub) := getSubImage s wrapper 0 h wrapper.width (wrapper.height - h)
    (s, [⟨wrapper.width - w, h, sub, s.settings.edgeEncoding⟩])
  else (s, [])

/-- Whether the edges that the masks cut off are regions of their own. -/
def WindowSource.sendsEdges (s : WindowSource) (coding : String) : Bool :=
  let videoMode := s.settings.commonVideoEncodings.contains coding ||
    (coding = "auto" || coding = "stream") && !s.settings.commonVideoEncodings.isEmpty
  videoMode && s.settings.edgeEncoding ≠ ""

/-- The edges, and the main area last. -/
def splitRegion (s : WindowSource) (wrapper : Wrapper) (coding : String) :
    WindowSource × List Region :=
  let w := wrapper.width &&& s.settings.widthMask
  let h := wrapper.height &&& s.settings.heightMask
  let main : List Region := if 0 < w ∧ 0 < h then [⟨w, h, wrapper.image, coding⟩] else []
  if s.sendsEdges coding = true then
    let right := rightEdge s wrapper w h
    let bottom := bottomEdge right.1 wrapper w h
    (bottom.1, right.2 ++ bottom.2 ++ main)
  else (s, main)

def processDamageRegion (s : WindowSource) (now damageTime : Int) (grab : Grab) (coding : String)
    (avDelay : Int) (flush : Nat) : WindowSource × Bool :=
  match getDamageImage s grab with
  | (s, none) => (s, false)
  | (s, some wrapper) =>
      let split := splitRegion s wrapper coding
      (callEncodes now damageTime avDelay s.sequence split.1 split.2
        (max (split.2.length - 1) flush), true)

/-- `limit` is 0 for all that were grabbed so far. -/
def cancelDamage (s : WindowSource) (limit : Nat) : WindowSource :=
  freeEncodeQueueImages (cancelEncodeFromQueue
    { s with damageCancelled := if limit = 0 then s.sequence else limit })

end Catlink.EncodeQueue
