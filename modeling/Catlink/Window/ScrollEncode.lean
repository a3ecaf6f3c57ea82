import Catlink.Client.CairoBacking
import Catlink.Lib.Rows
import Catlink.Window.Motion
import Catlink.Window.DelayedRegions

/-! The encode thread of a window: scroll detection, and the packets of a picture. Elapsed times are
in milliseconds. -/

namespace Catlink.ScrollEncode

open Window Client

variable {C : Type}

/-! ### Pictures -/

structure Frame extends ImageWrapper where
  pixelFormat : String

/-- The bytes of a pixel. -/
def Frame.pixel (frame : Frame) (i j : Nat) : Bytes :=
  ((frame.row j).drop (i * frame.bytesperpixel)).take frame.bytesperpixel

/-- The lines of a sub-image one after another. -/
def Frame.lines (frame : Frame) (y h : Nat) : Bytes :=
  ((List.range h).map fun j => frame.row (y + j)).flatten

theorem Frame.row_length (frame : Frame) (data : frame.pixels ≠ []) {j : Nat} (below : j < frame.height) :
    (frame.row j).length = frame.width * frame.bytesperpixel := by
  obtain ⟨stride, enough⟩ := frame.enough data
  have before : (j + 1) * frame.rowstride ≤ frame.rowstride * frame.height := by
    rw [Nat.mul_comm]
    exact Nat.mul_le_mul_left _ below
  rw [Nat.add_mul, Nat.one_mul] at before
  rw [ImageWrapper.row, List.length_take, List.length_drop]
  omega

theorem Frame.row_nil (frame : Frame) (none : frame.pixels = []) (j : Nat) : frame.row j = [] := by
  rw [ImageWrapper.row, none, List.drop_nil, List.take_nil]

theorem Frame.lines_length (frame : Frame) (data : frame.pixels ≠ []) {y h : Nat}
    (inside : y + h ≤ frame.height) :
    (frame.lines y h).length = h * (frame.width * frame.bytesperpixel) :=
  Rows.flatten_map_length fun j below => frame.row_length data (by omega)

theorem Frame.lines_nil (frame : Frame) (none : frame.pixels = []) (y h : Nat) : frame.lines y h = [] := by
  unfold lines
  rw [List.flatten_eq_nil_iff]
  intro line member
  obtain ⟨j, -, rfl⟩ := List.mem_map.mp member
  exact frame.row_nil none _

theorem Frame.lines_enough (frame : Frame) {y h : Nat} (inside : y + h ≤ frame.height) :
    frame.lines y h ≠ [] →
      frame.width * frame.bytesperpixel ≤ frame.width * frame.bytesperpixel ∧
        frame.width * frame.bytesperpixel * h ≤ (frame.lines y h).length := by
  intro some
  have data : frame.pixels ≠ [] := fun none => some (frame.lines_nil none y h)
  rw [frame.lines_length data inside]
  exact ⟨Nat.le_refl _, Nat.le_of_eq (Nat.mul_comm _ _)⟩

/-- `get_sub_image(0, y, width, h)` -/
def Frame.subImage (frame : Frame) (y h : Nat) : Except Exn Frame :=
  if some : h = 0 then .error (.valueError s!"invalid sub-image size: {frame.width}x{h}")
  else if inside : y + h > frame.height then
    .error (.valueError s!"invalid sub-image height: {y}+{h} greater than image height {frame.height}")
  else if y = 0 ∧ h = frame.height then .ok frame
  else
    .ok
      { targetX := frame.targetX
        targetY := frame.targetY + y
        width := frame.width
        height := h
        bytesperpixel := frame.bytesperpixel
        rowstride := frame.width * frame.bytesperpixel
        pixels := frame.lines y h
        pixelFormat := frame.pixelFormat
        valid := ⟨frame.valid.1, Nat.pos_of_ne_zero some⟩
        enough := frame.lines_enough (Nat.le_of_not_gt inside) }

/-! ### The window source -/

/-- The options of an update. -/
structure Options where
  /-- scroll detection has been used on the image -/
  scroll : Bool := false
  autoRefresh : Bool := false
  quality : Option Int := none
  speed : Option Int := none
  /-- `window-size`, empty when it is not sent -/
  windowSize : List Int := []

/-- What an encoder returns. -/
structure Encoded (C : Type) where
  coding : String
  /-- `len(data)` -/
  size : Nat
  /-- what the client's decoder makes of the data -/
  colour : Nat → Nat → C
  /-- whether there is a `scaled_size` -/
  scaled : Bool
  quality : Option Int
  outw : Nat
  outh : Nat

/-- The methods that encoders are. -/
inductive Encoder
  | picture
  /-- `video_encode` -/
  | video
  /-- `scroll_encode` -/
  | scroll
  deriving DecidableEq

/-- What the rest of the window source and the encoders answer while an image is encoded. -/
structure Env (C : Type) where
  /-- `SCROLL_ALL` -/
  scrollAll : Bool
  /-- `MIN_SCROLL_IMAGE_SIZE` -/
  minScrollImageSize : Nat
  mmap : Bool
  encoding : String
  supportsScrolling : Bool
  contentType : String
  nonVideoEncodings : List String
  commonVideoEncodings : List String
  bFrameFlushTimer : Nat
  currentSpeed : Int
  currentQuality : Int
  fixedQuality : Int
  scrollPreference : Int
  scrollMinPercent : Int
  lastScrollEvent : Int
  now : Int
  depth : Nat
  encoders : String → Option Encoder
  bestNonvideoEncoding : Nat → Nat → Options → String
  /-- the encoders of the sub-images that are not scrolled -/
  encodeSub : String → Frame → Options → Except Exn (Option (Encoded C))
  /-- the picture and the video encoders for the whole image -/
  encodeImage : String → Frame → Options → Except Exn (Option (Encoded C))

/-- What `make_data_packet_cb` is called with. -/
structure Item where
  image : Frame
  coding : String
  sequence : Nat
  options : Options
  flush : Int

/-- What the encode thread is asked to do. -/
inductive Work
  | makeDataPacket (item : Item)
  | freeScrollData

/-- What the UI thread has still to do of a call. -/
inductive Todo
  /-- with `last_scroll_time` reset after it -/
  | freeScrollData
  | suspended (value : Bool)
  deriving DecidableEq

structure WindowVideoSource (C : Type) where
  windowDimensions : Nat × Nat
  scrollData : Option ScrollData := none
  /-- the image that was compared last; nothing reads it -/
  compared : Option Frame := none
  lastScrollTime : Int := 0
  sequence : Nat := 1
  damageCancelled : Nat := 0
  suspended : Bool := false
  todo : List Todo := []
  encodeWorkQueue : List Work := []
  /-- what the encode thread is busy with -/
  current : Option Item := none
  /-- the client's backing, with every packet queued so far drawn on it -/
  client : Backing C

def WindowVideoSource.isCancelled (s : WindowVideoSource C) (sequence : Nat) : Bool :=
  sequence ≤ s.damageCancelled

/-- A call in the encode thread: it may change the window source and the options of the image. -/
structure Outcome (C α : Type) where
  source : WindowVideoSource C
  options : Options
  result : Except Exn α

def doFreeScrollData (s : WindowVideoSource C) : WindowVideoSource C :=
  { s with scrollData := none }

def queueDamagePacket (s : WindowVideoSource C) (packet : Draw C) : WindowVideoSource C :=
  { s with client := s.client.drawRegion packet }

def makeDrawPacket (s : WindowVideoSource C) (x y : Int) (w h : Nat) (coding : String) (body : Body C)
    (scaled : Bool) (quality : Option Int) (flush : Int) (options : Options) :
    WindowVideoSource C × Draw C :=
  let packet : Draw C := ⟨x, y, w, h, coding, body, flush, options.windowSize⟩
  match s.scrollData with
  | none => (s, packet)
  | some sd =>
      if options.scroll = true then (s, packet)
      else if scaled = true ∨ quality.getD 100 < 20 then (doFreeScrollData s, packet)
      else ({ s with scrollData := some (sd.invalidate x y w h) }, packet)

/-- A packet with a picture is made and queued. -/
def sendPicture (s : WindowVideoSource C) (image : Frame) (ret : Encoded C) (flush : Int)
    (options : Options) : WindowVideoSource C :=
  let made := makeDrawPacket s image.targetX image.targetY ret.outw ret.outh ret.coding
    (.picture ret.colour) ret.scaled ret.quality flush options
  queueDamagePacket made.1 made.2

/-! ### The packets of a scrolled picture -/

/-- The parts that are scrolled and those that are not; nothing is returned when the comparison
does not end. -/
def zones (s : WindowVideoSource C) (sd : ScrollData) (image : Frame) (maxZones : Nat) :
    Option (Except Exn (Scrolls × Lines)) :=
  let all : Scrolls × Lines := ([], [(0, image.height)])
  if image.targetX + image.width > s.windowDimensions.1 ∨
      image.targetY + image.height > s.windowDimensions.2 then some (.ok all)
  else
    match sd.getScrollValues 2 with
    | none => none
    | some (.error e) => some (.error e)
    | some (.ok none) => some (.ok all)
    | some (.ok (some v)) =>
        -- avoid fragmentation
        if v.1.length ≥ maxZones ∨ v.2.length ≥ maxZones then some (.ok all) else some (.ok v)

/-- `(x, y+line, w, count, 0, scroll)` -/
def screenScroll (x y : Int) (w wh : Nat) (scroll : Int) (line : Nat × Nat) : Except Exn Scroll :=
  if y + line.1 + scroll < 0 then
    .error (.runtimeError s!"cannot scroll rectangle by {scroll} lines from {y}+{line.1}")
  else if y + line.1 + scroll > wh then
    .error (.runtimeError (s!"cannot scroll rectangle {line.2} high by {scroll} lines from {y}+{line.1} " ++
      s!"(window height is {wh})"))
  else .ok ⟨x, y + line.1, w, line.2, 0, scroll⟩

def screenLines (x y : Int) (w wh : Nat) (scroll : Int) : Lines → Except Exn (List Scroll)
  | [] => .ok []
  | line :: lines => do
      let first ← screenScroll x y w wh scroll line
      let rest ← screenLines x y w wh scroll lines
      return first :: rest

/-- The scrolls as rectangles of the window; a scroll by no distance is left out. -/
def screenScrolls (x y : Int) (w wh : Nat) : Scrolls → Except Exn (List Scroll)
  | [] => .ok []
  | scroll :: scrolls =>
      if scroll.1 = 0 then screenScrolls x y w wh scrolls
      else do
        let first ← screenLines x y w wh scroll.1 scroll.2
        let rest ← screenScrolls x y w wh scrolls
        return first ++ rest

/-- The quality for the parts that are not scrolled. -/
def boostQuality (env : Env C) (options : Options) (matchPct : Int) : Options :=
  if mentions env.contentType "text" = true then { options with quality := some 100 }
  else if env.fixedQuality ≤ 0 then
    { options with quality := some (min 100 (options.quality.getD env.currentQuality + max 60 matchPct / 2)) }
  else options

/-- `for sy, sh in non_scroll.items(): ...`; the flush counter, unless it stops half way. -/
def sendRest (env : Env C) (image : Frame) (options : Options) :
    WindowVideoSource C → Lines → Int → WindowVideoSource C × Except Exn (Option Int)
  | s, [], flush => (s, .ok (some flush))
  | s, (sy, sh) :: rest, flush =>
      match image.subImage sy sh with
      | .error e => (s, .error e)
      | .ok sub =>
          let encoding := env.bestNonvideoEncoding image.width sh options
          if encoding = "" then
            (s, .error (.runtimeError s!"no nonvideo encoding found for {image.width}x{sh} screen update"))
          else if env.encoders encoding = none then (s, .error (.other s!"KeyError: {encoding}"))
          else
            match env.encodeSub encoding sub options with
            | .error e => (s, .error e)
            | .ok none => (s, .ok none)
            | .ok (some ret) =>
                if ret.size = 0 then (s, .error (.runtimeError s!"no data from {encoding} function"))
                else sendRest env image options (sendPicture s sub ret (flush - 1) options) rest (flush - 1)

/-- The scroll packet, if there is one. -/
def sendScrolls (s : WindowVideoSource C) (image : Frame) (scrolls : List Scroll) (flush : Int)
    (options : Options) : WindowVideoSource C :=
  if scrolls = [] then s
  else
    let made := makeDrawPacket s image.targetX image.targetY image.width image.height "scroll"
      (.scroll scrolls) false none flush options
    queueDamagePacket made.1 made.2

def encodeScrolling (env : Env C) (s : WindowVideoSource C) (sd : ScrollData) (image : Frame)
    (options : Options) (matchPct : Int) (maxZones : Nat) : Option (Outcome C Unit) :=
  match zones s sd image maxZones with
  | none => none
  | some (.error e) => some ⟨s, options, .error e⟩
  | some (.ok (rawScroll, nonScroll)) =>
      let flush : Int := nonScroll.length
      match screenScrolls image.targetX image.targetY image.width s.windowDimensions.2 rawScroll with
      | .error e => some ⟨s, options, .error e⟩
      | .ok scrolls =>
          let s := sendScrolls s image scrolls flush options
          let options := if nonScroll = [] then options else boostQuality env options matchPct
          match sendRest env image options s nonScroll flush with
          | (s, .error e) => some ⟨s, options, .error e⟩
          | (s, .ok none) => some ⟨s, options, .ok ()⟩
          | (s, .ok (some flush)) =>
              if flush ≠ 0 then
                some ⟨s, options, .error (.runtimeError s!"flush counter mismatch: {flush}")⟩
              else some ⟨{ s with lastScrollTime := env.now }, options, .ok ()⟩

/-! ### Scroll detection -/

/-- The exceptions that start again from scratch. -/
def Caught : Exn → Prop
  | .runtimeError _ | .valueError _ => True
  | _ => False

instance : DecidablePred Caught := fun e => by
  unfold Caught
  split <;> infer_instance

/-- The part of `do_scroll_encode` that comes after the comparison. -/
def encodeMatched (env : Env C) (s : WindowVideoSource C) (sd : ScrollData) (image : Frame)
    (options : Options) (minPercent : Int) : Option (Outcome C Bool) :=
  let matchPct : Int := if minPercent > 0 then 100 * sd.getBestMatch.2 / image.height else minPercent
  let maxZones := if minPercent > 0 then 20 else 50
  if matchPct ≥ minPercent then
    match encodeScrolling env s sd image options matchPct maxZones with
    | none => none
    | some ⟨s, options, .ok _⟩ => some ⟨s, options, .ok true⟩
    | some ⟨s, options, .error e⟩ =>
        if Caught e then some ⟨doFreeScrollData s, options, .ok false⟩
        else some ⟨s, options, .error e⟩
  else some ⟨s, options, .ok false⟩

variable (xxh3 : Bytes → UInt64)

def doScrollEncode (env : Env C) (s : WindowVideoSource C) (image : Frame) (options : Options)
    (minPercent : Int) : Option (Outcome C Bool) :=
  if options.scroll = true ∨ image.width ≥ 32000 ∨ image.height ≥ 32000 then
    some ⟨s, options, .ok false⟩
  else
    let sd := s.scrollData.getD .new
    let s := { s with scrollData := some sd }
    if image.pixels = [] then some ⟨s, options, .ok false⟩
    else
      let sd := sd.update xxh3 image.toImageWrapper
      let s := { s with scrollData := some sd, compared := some image }
      let maxDistance := min 1000 ((100 - minPercent) * image.height / 100)
      if maxDistance < 0 then
        some ⟨s, options, .error (.overflowError "can't convert negative value to uint16_t")⟩
      else
        let sd := sd.calculate maxDistance.toNat
        encodeMatched env { s with scrollData := some sd } sd image { options with scroll := true } minPercent

def mayUseScrolling (env : Env C) (s : WindowVideoSource C) (image : Frame) (options : Options) :
    Option (Outcome C Bool) :=
  let speed := options.speed.getD env.currentSpeed
  let elapsed := min (env.now - env.lastScrollEvent) (env.now - s.lastScrollTime)
  let maxTime := 1000 + min (100 * (100 - speed)) (50 * env.scrollPreference)
  if (env.mmap = true ∧ env.encoding ≠ "scroll") ∨ env.supportsScrolling = false ∨
      options.autoRefresh = true ∨ image.pixels = [] ∨ mentions env.contentType "video" = true ∨
      env.nonVideoEncodings = [] ∨ image.width < env.minScrollImageSize ∨
      image.height < env.minScrollImageSize then
    some ⟨s, options, .ok false⟩
  else if env.bFrameFlushTimer ≠ 0 ∧ s.scrollData ≠ none then
    some ⟨doFreeScrollData s, options, .ok false⟩
  else if (speed ≥ 50 ∨ env.scrollPreference < 100) ∧ elapsed ≥ maxTime then
    some ⟨s, options, .ok false⟩
  else doScrollEncode xxh3 env s image options env.scrollMinPercent

/-! ### The packet of a picture -/

/-- `encoder(coding, image, options)` -/
def encode (env : Env C) (s : WindowVideoSource C) (item : Item) (options : Options) :
    Encoder → Option (Outcome C (Option (Encoded C)))
  | .picture => some ⟨s, options, env.encodeImage item.coding item.image options⟩
  | .video =>
      if s.isCancelled Delayed.maxSequence = true then some ⟨s, options, .ok none⟩
      else if (env.depth ≠ 24 ∧ env.depth ≠ 30 ∧ env.depth ≠ 32) ∨ env.commonVideoEncodings = [] then
        some ⟨s, options, env.encodeImage item.coding item.image options⟩
      else if item.image.pixelFormat = "" then some ⟨s, options, .ok none⟩
      else
        match mayUseScrolling xxh3 env s item.image options with
        | none => none
        | some ⟨s, options, .error e⟩ => some ⟨s, options, .error e⟩
        | some ⟨s, options, .ok true⟩ => some ⟨s, options, .ok none⟩
        | some ⟨s, options, .ok false⟩ =>
            some ⟨s, options, env.encodeImage item.coding item.image options⟩
  | .scroll =>
      match doScrollEncode xxh3 env s item.image options 0 with
      | none => none
      | some ⟨s, options, .error e⟩ => some ⟨s, options, .error e⟩
      | some ⟨s, options, .ok _⟩ => some ⟨s, options, .ok none⟩

/-- The rest of `make_data_packet_cb`; exceptions are logged. -/
def encodeAndSend (env : Env C) (s : WindowVideoSource C) (item : Item) (options : Options) :
    Option (WindowVideoSource C) :=
  match env.encoders item.coding with
  | none => some s
  | some encoder =>
      match encode xxh3 env s item options encoder with
      | none => none
      | some ⟨s, _, .error _⟩ => some s
      | some ⟨s, _, .ok none⟩ => some s
      | some ⟨s, options, .ok (some ret)⟩ =>
          if ret.coding ≠ "mmap" ∧ (s.isCancelled item.sequence = true ∨ s.suspended = true) then some s
          else some (sendPicture s item.image ret item.flush options)

def makeDataPacketCb (env : Env C) (s : WindowVideoSource C) (item : Item) :
    Option (WindowVideoSource C) :=
  if env.scrollAll = true then
    match mayUseScrolling xxh3 env s item.image item.options with
    | none => none
    | some ⟨s, _, .error _⟩ => some s
    | some ⟨s, _, .ok true⟩ => some s
    | some ⟨s, options, .ok false⟩ => encodeAndSend xxh3 env s item options
  else encodeAndSend xxh3 env s item item.options

/-! ### The two threads -/

inductive Event (C : Type)
  /-- `get_damage_image` takes a sequence number -/
  | grab
  /-- `call_encode` -/
  | callEncode (item : Item)
  /-- a full refresh -/
  | refresh
  /-- `limit` is 0 for all sequences so far -/
  | cancelDamage (limit : Nat)
  | suspend
  | resume
  /-- the UI thread goes on with a call -/
  | proceed
  /-- the encode thread takes what is first in its queue -/
  | take
  /-- and is done with it -/
  | finish (env : Env C)

def callInEncodeThread (s : WindowVideoSource C) (work : Work) : WindowVideoSource C :=
  { s with encodeWorkQueue := s.encodeWorkQueue ++ [work] }

/-- The sequences are cancelled before the scroll data is freed. -/
def cancelDamage (s : WindowVideoSource C) (limit : Nat) (more : List Todo) : WindowVideoSource C :=
  { s with
    damageCancelled := if limit = 0 then s.sequence else limit
    todo := .freeScrollData :: more }

def proceed (s : WindowVideoSource C) : WindowVideoSource C :=
  match s.todo with
  | [] => s
  | .freeScrollData :: todo =>
      { callInEncodeThread s .freeScrollData with todo, lastScrollTime := 0 }
  | .suspended value :: todo => { s with todo, suspended := value }

/-- What is cancelled or suspended by now is dropped. -/
def take (s : WindowVideoSource C) : WindowVideoSource C :=
  match s.encodeWorkQueue with
  | [] => s
  | .freeScrollData :: rest => doFreeScrollData { s with encodeWorkQueue := rest }
  | .makeDataPacket item :: rest =>
      if s.isCancelled item.sequence = true ∨ s.suspended = true then { s with encodeWorkQueue := rest }
      else { s with encodeWorkQueue := rest, current := some item }

/-- Nothing is returned when the encode thread does not come back. -/
def handle (s : WindowVideoSource C) : Event C → Option (WindowVideoSource C)
  | .grab => some { s with sequence := s.sequence + 1 }
  | .callEncode item =>
      if s.isCancelled item.sequence = true then some s
      else some (callInEncodeThread s (.makeDataPacket item))
  | .refresh => some { callInEncodeThread s .freeScrollData with lastScrollTime := 0 }
  | .cancelDamage limit => some (cancelDamage s limit [])
  | .suspend => some (cancelDamage s 0 [.suspended true])
  | .resume => some (cancelDamage s 0 [.suspended false])
  | .proceed => some (proceed s)
  | .take => some (take s)
  | .finish env =>
      match s.current with
      | none => some s
      | some item =>
          match makeDataPacketCb xxh3 env s item with
          | none => none
          | some s => some { s with current := none }

end Catlink.ScrollEncode
