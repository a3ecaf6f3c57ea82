import Catlink.Lib.MainLoop
import Catlink.Window.ScrollEncode
import Catlink.Window.ScrollValues

/-! The packets of a scrolled picture, and what the client shows once they are drawn. -/

namespace Catlink.ScrollEncode

open Paint Rows Window Client ScrollData

variable {C : Type} {xxh3 : Bytes → UInt64} {look : String → Bytes → C}

/-! ### Pixels of a picture -/

/-- What a pixel looks like. -/
def Frame.colour (look : String → Bytes → C) (frame : Frame) (i j : Nat) : C :=
  look frame.pixelFormat (frame.pixel i j)

/-- The pixel of the window is in the picture. -/
def Frame.covers (frame : Frame) (p : Int × Int) : Prop :=
  Within frame.targetX frame.targetY frame.width frame.height p

instance (frame : Frame) (p : Int × Int) : Decidable (frame.covers p) :=
  inferInstanceAs (Decidable (Within _ _ _ _ _))

/-- What it looks like there. -/
def Frame.colourAt (look : String → Bytes → C) (frame : Frame) (p : Int × Int) : C :=
  frame.colour look (p.1 - frame.targetX).toNat (p.2 - frame.targetY).toNat

theorem Frame.covers_add (frame : Frame) {i j : Nat} (left : i < frame.width) (below : j < frame.height) :
    frame.covers (frame.targetX + i, frame.targetY + j) := by
  unfold covers Within
  dsimp only
  omega

theorem Frame.colourAt_add (look : String → Bytes → C) (frame : Frame) (i j : Nat) :
    frame.colourAt look (frame.targetX + i, frame.targetY + j) = frame.colour look i j := by
  unfold colourAt
  dsimp only
  rw [add_sub_cancel_left, add_sub_cancel_left, Int.toNat_natCast, Int.toNat_natCast]

theorem Frame.lines_row (frame : Frame) {y h j : Nat} (inside : y + h ≤ frame.height) (below : j < h) :
    ((frame.lines y h).drop (j * (frame.width * frame.bytesperpixel))).take
      (frame.width * frame.bytesperpixel) = frame.row (y + j) := by
  by_cases none : frame.pixels = []
  · rw [frame.lines_nil none, frame.row_nil none, List.drop_nil, List.take_nil]
  · have length : ∀ i < h, (frame.row (y + i)).length = frame.width * frame.bytesperpixel :=
      fun i before => frame.row_length none (by omega)
    exact slice_flatten_map length below

/-- A sub-image of whole lines has their pixels. -/
theorem Frame.subImage_ok (look : String → Bytes → C) (frame : Frame) {y h : Nat} (some : 0 < h)
    (inside : y + h ≤ frame.height) :
    ∃ sub, frame.subImage y h = .ok sub ∧ sub.targetX = frame.targetX ∧
      sub.targetY = frame.targetY + y ∧ sub.width = frame.width ∧ sub.height = h ∧
      ∀ i j, j < h → sub.colour look i j = frame.colour look i (y + j) := by
  unfold subImage
  rw [dif_neg (Nat.ne_of_gt some), dif_neg (Nat.not_lt.mpr inside)]
  split
  · rename_i whole
    obtain ⟨rfl, rfl⟩ := whole
    refine ⟨frame, rfl, rfl, by simp, rfl, rfl, fun i j _ => ?_⟩
    rw [Nat.zero_add]
  · refine ⟨_, rfl, rfl, rfl, rfl, rfl, fun i j below => ?_⟩
    unfold colour pixel ImageWrapper.row
    dsimp only
    rw [frame.lines_row inside below]
    rfl

/-- Lines with the same bytes look alike. -/
theorem Frame.colour_congr {frame frame' : Frame} (format : frame.pixelFormat = frame'.pixelFormat)
    (bytes : frame.bytesperpixel = frame'.bytesperpixel) {j j' : Nat}
    (same : frame.row j = frame'.row j') (i : Nat) : frame.colour look i j = frame'.colour look i j' := by
  unfold colour pixel
  rw [format, bytes, same]

/-- The decoder makes the same picture of the data. -/
structure Encoded.Lossless (look : String → Bytes → C) (ret : Encoded C) (image : Frame) : Prop where
  outw : ret.outw = image.width
  outh : ret.outh = image.height
  colour : ∀ i < image.width, ∀ j < image.height, ret.colour i j = image.colour look i j

/-! ### What the client shows -/

/-- The picture is inside of the window. -/
def Fits (dimensions : Nat × Nat) (image : Frame) : Prop :=
  (0 ≤ image.targetX ∧ image.targetX + image.width ≤ dimensions.1) ∧
    0 ≤ image.targetY ∧ image.targetY + image.height ≤ dimensions.2

/-- The checksums are those of the picture, or are not to be matched. -/
structure Describes (xxh3 : Bytes → UInt64) (image : Frame) (sd : ScrollData) (a2 : Checksums) : Prop where
  x : sd.x = image.targetX
  y : sd.y = image.targetY
  width : sd.width = image.width
  height : sd.height = image.height
  lines : ∀ j < image.height, a2.getD j 0 ≠ 0 → a2.getD j 0 = xxh3 (image.row j)

/-- Every line with a checksum that can be matched is what the client shows. -/
structure Displayed (xxh3 : Bytes → UInt64) (look : String → Bytes → C) (client : Backing C)
    (image : Frame) (sd : ScrollData) (a2 : Checksums) : Prop
    extends Describes xxh3 image sd a2 where
  pixels : ∀ j < image.height, a2.getD j 0 ≠ 0 → ∀ i < image.width,
    client.pixels (image.targetX + i, image.targetY + j) = some (image.colour look i j)

def Shown (xxh3 : Bytes → UInt64) (look : String → Bytes → C) (s : WindowVideoSource C) : Prop :=
  ∀ sd a2, s.scrollData = some sd → sd.a2 = some a2 →
    ∃ image, s.compared = some image ∧ Fits s.windowDimensions image ∧
      Displayed xxh3 look s.client image sd a2

/-- The picture is where the one it is compared with was, in the same format, and their checksums
tell their lines apart. -/
def Follows (xxh3 : Bytes → UInt64) (s : WindowVideoSource C) (image : Frame) : Prop :=
  ∀ before sd, s.compared = some before → s.scrollData = some sd → sd.a2 ≠ none →
    before.width = image.width → before.height = image.height →
    before.targetX = image.targetX ∧ before.targetY = image.targetY ∧
      before.pixelFormat = image.pixelFormat ∧ before.bytesperpixel = image.bytesperpixel ∧
      ∀ j < image.height, ∀ j' < image.height,
        xxh3 (before.row j) = xxh3 (image.row j') → before.row j = image.row j'

/-- What the encoders do for an image that is not cancelled. -/
structure Honest (look : String → Bytes → C) (env : Env C) (item : Item) : Prop where
  percent : env.scrollMinPercent ≤ 100
  format : item.image.pixelFormat ≠ ""
  encoder : env.encoders item.coding = some .picture ∨ env.encoders item.coding = some .video
  listed : ∀ w h options, env.bestNonvideoEncoding w h options = "" ∨
    env.encoders (env.bestNonvideoEncoding w h options) ≠ none
  sub : ∀ coding image options, (∃ e, env.encodeSub coding image options = .error e ∧ Caught e) ∨
    ∃ ret, env.encodeSub coding image options = .ok (some ret) ∧ ret.Lossless look image
  /-- after scroll detection -/
  image : ∀ options, options.scroll = true →
    ∃ ret, env.encodeImage item.coding item.image options = .ok (some ret) ∧ ret.Lossless look item.image

/-- What the encoders of sub-images do: each gives all of its sub-image without loss, or it raises. -/
structure Subs (raises : Exn → Prop) (look : String → Bytes → C) (env : Env C) : Prop where
  caught : ∀ e, Caught e → raises e
  listed : ∀ w h options, env.bestNonvideoEncoding w h options = "" ∨
    env.encoders (env.bestNonvideoEncoding w h options) ≠ none ∨
      raises (.other s!"KeyError: {env.bestNonvideoEncoding w h options}")
  sub : ∀ coding image options, (∃ e, env.encodeSub coding image options = .error e ∧ raises e) ∨
    ∃ ret, env.encodeSub coding image options = .ok (some ret) ∧ ret.Lossless look image

theorem Honest.subs {env : Env C} {item : Item} (honest : Honest look env item) : Subs Caught look env where
  caught _ caught := caught
  listed w h options := (honest.listed w h options).imp_right .inl
  sub := honest.sub

/-- What the encode thread leaves alone. -/
structure Kept (s s' : WindowVideoSource C) : Prop where
  windowDimensions : s'.windowDimensions = s.windowDimensions
  sequence : s'.sequence = s.sequence
  damageCancelled : s'.damageCancelled = s.damageCancelled
  suspended : s'.suspended = s.suspended
  todo : s'.todo = s.todo
  encodeWorkQueue : s'.encodeWorkQueue = s.encodeWorkQueue
  current : s'.current = s.current
  size : s'.client.size = s.client.size

theorem Kept.refl (s : WindowVideoSource C) : Kept s s := ⟨rfl, rfl, rfl, rfl, rfl, rfl, rfl, rfl⟩

theorem Kept.trans {s s' s'' : WindowVideoSource C} (first : Kept s s') (second : Kept s' s'') :
    Kept s s'' where
  windowDimensions := second.windowDimensions.trans first.windowDimensions
  sequence := second.sequence.trans first.sequence
  damageCancelled := second.damageCancelled.trans first.damageCancelled
  suspended := second.suspended.trans first.suspended
  todo := second.todo.trans first.todo
  encodeWorkQueue := second.encodeWorkQueue.trans first.encodeWorkQueue
  current := second.current.trans first.current
  size := second.size.trans first.size

/-! ### Strokes of a picture -/

/-- The stroke leaves the colours of the picture. -/
def Right (look : String → Bytes → C) (image : Frame) (stroke : Stroke (Int × Int) (Option C)) : Prop :=
  ∀ p, stroke.covers p = true → image.covers p ∧ stroke.colour p = some (image.colourAt look p)

/-- The packets that are queued meanwhile paint these strokes. -/
structure Sends (s : WindowVideoSource C) (strokes : List (Stroke (Int × Int) (Option C)))
    (s' : WindowVideoSource C) : Prop where
  kept : Kept s s'
  scrollData : s'.scrollData = s.scrollData
  compared : s'.compared = s.compared
  painted : s.client.Painted strokes s'.client

theorem Sends.refl (s : WindowVideoSource C) : Sends s [] s := ⟨.refl s, rfl, rfl, .refl _⟩

theorem Sends.trans {s s' s'' : WindowVideoSource C}
    {strokes strokes' : List (Stroke (Int × Int) (Option C))} (first : Sends s strokes s')
    (second : Sends s' strokes' s'') : Sends s (strokes ++ strokes') s'' where
  kept := first.kept.trans second.kept
  scrollData := second.scrollData.trans first.scrollData
  compared := second.compared.trans first.compared
  painted := first.painted.trans second.painted

theorem Sends.timed {s s' : WindowVideoSource C} {strokes : List (Stroke (Int × Int) (Option C))}
    (sends : Sends s strokes s') (now : Int) : Sends s strokes { s' with lastScrollTime := now } := by
  obtain ⟨⟨dimensions, sequence, cancelled, suspended, todo, queue, current, size⟩, scrollData, compared,
    painted⟩ := sends
  exact ⟨⟨dimensions, sequence, cancelled, suspended, todo, queue, current, size⟩, scrollData, compared,
    painted⟩

/-- The options say the size of the window or nothing. -/
def Sized (s : WindowVideoSource C) (options : Options) : Prop :=
  options.windowSize = [] ∨ options.windowSize = [s.client.size.1, s.client.size.2]

theorem Sized.kept {s s' : WindowVideoSource C} {options : Options} (sized : Sized s options)
    (kept : Kept s s') : Sized s' options := by
  unfold Sized at sized ⊢
  rwa [kept.size]

/-- A packet for a picture that was compared does not touch the scroll data. -/
theorem makeDrawPacket_compared (s : WindowVideoSource C) {options : Options}
    (used : options.scroll = true) (x y : Int) (w h : Nat) (coding : String) (body : Body C)
    (scaled : Bool) (quality : Option Int) (flush : Int) :
    makeDrawPacket s x y w h coding body scaled quality flush options =
      (s, ⟨x, y, w, h, coding, body, flush, options.windowSize⟩) := by
  unfold makeDrawPacket
  simp only [used, if_true]
  split
  · rfl
  · rfl

theorem sendPicture_compared {s : WindowVideoSource C} {options : Options} (used : options.scroll = true)
    (sized : Sized s options) (image : Frame) (ret : Encoded C) (flush : Int) :
    Sends s [s.client.pictureStroke image.targetX image.targetY ret.outw ret.outh ret.colour]
      (sendPicture s image ret flush options) := by
  have made : sendPicture s image ret flush options = queueDamagePacket s ⟨image.targetX, image.targetY,
      ret.outw, ret.outh, ret.coding, .picture ret.colour, flush, options.windowSize⟩ := by
    unfold sendPicture
    rw [makeDrawPacket_compared s used]
  have painted := s.client.painted_picture ⟨image.targetX, image.targetY, ret.outw, ret.outh,
    ret.coding, .picture ret.colour, flush, options.windowSize⟩ rfl sized
  rw [made]
  exact ⟨⟨rfl, rfl, rfl, rfl, rfl, rfl, rfl, painted.size⟩, rfl, rfl, painted⟩

/-- Lines of a picture, painted without loss. -/
theorem right_lines {image sub : Frame} (line : Nat × Nat) (client : Backing C)
    (x : sub.targetX = image.targetX) (y : sub.targetY = image.targetY + line.1)
    (width : sub.width = image.width) (height : sub.height = line.2)
    (inside : line.1 + line.2 ≤ image.height)
    (colour : ∀ i j, j < line.2 → sub.colour look i j = image.colour look i (line.1 + j))
    {ret : Encoded C} (lossless : ret.Lossless look sub) :
    Right look image (client.pictureStroke sub.targetX sub.targetY ret.outw ret.outh ret.colour) := by
  intro p covered
  unfold Backing.pictureStroke at covered ⊢
  rw [lossless.outw, lossless.outh, x, y, width, height, decide_eq_true_eq] at covered
  obtain ⟨⟨⟨left, right⟩, top, bottom⟩, -⟩ := covered
  refine ⟨⟨⟨left, right⟩, by omega, by omega⟩, ?_⟩
  dsimp only
  rw [x, y, lossless.colour _ (by omega) _ (by omega), colour _ _ (by omega)]
  unfold Frame.colourAt
  congr 2
  omega

/-! ### The parts that are not scrolled -/

/-- Every pixel of the lines is painted. -/
def Covered (client : Backing C) (image : Frame) (lines : Lines)
    (strokes : List (Stroke (Int × Int) (Option C))) : Prop :=
  ∀ p, client.inside p → ∀ line ∈ lines,
    Within image.targetX (image.targetY + line.1) image.width line.2 p →
      ∃ stroke ∈ strokes, stroke.covers p = true

theorem sendRest_sends {raises : Exn → Prop} {env : Env C} {image : Frame} (subs : Subs raises look env)
    {options : Options} (used : options.scroll = true) (lines : Lines)
    (inside : ∀ line ∈ lines, 0 < line.2 ∧ line.1 + line.2 ≤ image.height)
    {s : WindowVideoSource C} (sized : Sized s options) (flush : Int) :
    ∃ strokes, Sends s strokes (sendRest env image options s lines flush).1 ∧
      (∀ stroke ∈ strokes, Right look image stroke) ∧
      (((sendRest env image options s lines flush).2 = .ok (some (flush - lines.length)) ∧
          Covered s.client image lines strokes) ∨
        ∃ e, (sendRest env image options s lines flush).2 = .error e ∧ raises e) := by
  induction lines generalizing s flush with
  | nil =>
      refine ⟨[], .refl s, by simp, .inl ⟨?_, ?_⟩⟩
      · simp [sendRest]
      · intro p _ line member
        cases member
  | cons line lines ih =>
      obtain ⟨first, others⟩ := List.forall_mem_cons.mp inside
      obtain ⟨sub, made, x, y, width, height, colour⟩ := image.subImage_ok look first.1 first.2
      have raised : ∀ e, sendRest env image options s (line :: lines) flush = (s, .error e) → raises e →
          ∃ strokes, Sends s strokes (sendRest env image options s (line :: lines) flush).1 ∧
            (∀ stroke ∈ strokes, Right look image stroke) ∧
            (((sendRest env image options s (line :: lines) flush).2 =
                  .ok (some (flush - (line :: lines).length)) ∧
                Covered s.client image (line :: lines) strokes) ∨
              ∃ e, (sendRest env image options s (line :: lines) flush).2 = .error e ∧ raises e) := by
        intro e same raised
        rw [same]
        exact ⟨[], .refl s, by simp, .inr ⟨e, rfl, raised⟩⟩
      by_cases unnamed : env.bestNonvideoEncoding image.width line.2 options = ""
      · have failed : sendRest env image options s (line :: lines) flush = (s, .error (.runtimeError
            s!"no nonvideo encoding found for {image.width}x{line.2} screen update")) := by
          rw [sendRest]
          simp only [made, if_pos unnamed]
        exact raised _ failed (subs.caught _ trivial)
      by_cases listed : env.encoders (env.bestNonvideoEncoding image.width line.2 options) = none
      · have failed : sendRest env image options s (line :: lines) flush = (s, .error (.other
            s!"KeyError: {env.bestNonvideoEncoding image.width line.2 options}")) := by
          rw [sendRest]
          simp only [made, if_neg unnamed, if_pos listed]
        rcases subs.listed image.width line.2 options with unnamed' | present | unlisted
        · exact absurd unnamed' unnamed
        · exact absurd listed present
        · exact raised _ failed unlisted
      rcases subs.sub (env.bestNonvideoEncoding image.width line.2 options) sub options with
        ⟨e, failed, allowed⟩ | ⟨ret, encoded, lossless⟩
      · have stopped : sendRest env image options s (line :: lines) flush = (s, .error e) := by
          rw [sendRest]
          simp only [made, if_neg unnamed, if_neg listed, failed]
        exact raised e stopped allowed
      by_cases empty : ret.size = 0
      · have failed : sendRest env image options s (line :: lines) flush = (s, .error (.runtimeError
            s!"no data from {env.bestNonvideoEncoding image.width line.2 options} function")) := by
          rw [sendRest]
          simp only [made, if_neg unnamed, if_neg listed, encoded, if_pos empty]
        exact raised _ failed (subs.caught _ trivial)
      have unfolded : sendRest env image options s (line :: lines) flush =
          sendRest env image options (sendPicture s sub ret (flush - 1) options) lines (flush - 1) := by
        rw [sendRest]
        simp only [made, if_neg unnamed, if_neg listed, encoded, if_neg empty]
      have sent := sendPicture_compared used sized sub ret (flush - 1)
      obtain ⟨strokes, sends, right, ends⟩ := ih others (sized.kept sent.kept) (flush - 1)
      rw [unfolded]
      refine ⟨_ :: strokes, sent.trans sends, ?_, ?_⟩
      · rw [List.forall_mem_cons]
        exact ⟨right_lines _ s.client x y width height first.2 colour lossless, right⟩
      · rcases ends with ⟨complete, covered⟩ | failed
        · left
          constructor
          · rw [complete, List.length_cons]
            congr 2
            omega
          · intro p here l member within
            rcases List.mem_cons.mp member with rfl | later
            · refine ⟨_, List.mem_cons_self, ?_⟩
              unfold Backing.pictureStroke
              rw [lossless.outw, lossless.outh, x, y, width, height, decide_eq_true_eq]
              exact ⟨within, here⟩
            · obtain ⟨stroke, there, covers⟩ := covered p
                ((Backing.inside_congr sent.painted.size p).mpr here) l later within
              exact ⟨stroke, List.mem_cons_of_mem _ there, covers⟩
        · exact .inr failed

/-! ### The parts that are scrolled -/

theorem screenScroll_ok {x y : Int} {w wh : Nat} {d : Int} {line : Nat × Nat} {scroll : Scroll}
    (made : screenScroll x y w wh d line = .ok scroll) : scroll = ⟨x, y + line.1, w, line.2, 0, d⟩ := by
  unfold screenScroll at made
  split at made
  · cases made
  · split at made
    · cases made
    · cases made
      rfl

theorem screenScroll_error {x y : Int} {w wh : Nat} {d : Int} {line : Nat × Nat} {e : Exn}
    (failed : screenScroll x y w wh d line = .error e) : Caught e := by
  unfold screenScroll at failed
  split at failed
  · cases failed
    trivial
  · split at failed
    · cases failed
      trivial
    · cases failed

theorem screenLines_ok {x y : Int} {w wh : Nat} {d : Int} {lines : Lines} {scrolls : List Scroll}
    (made : screenLines x y w wh d lines = .ok scrolls) :
    scrolls = lines.map fun line => ⟨x, y + line.1, w, line.2, 0, d⟩ := by
  induction lines generalizing scrolls with
  | nil =>
      cases made
      rfl
  | cons line lines ih =>
      obtain ⟨first, one, made⟩ := ok_of_bind made
      obtain ⟨rest, others, made⟩ := ok_of_bind made
      cases made
      rw [List.map_cons, screenScroll_ok one, ih others]

theorem screenLines_error {x y : Int} {w wh : Nat} {d : Int} {lines : Lines} {e : Exn}
    (failed : screenLines x y w wh d lines = .error e) : Caught e := by
  induction lines with
  | nil => cases failed
  | cons line lines ih =>
      unfold screenLines at failed
      cases one : screenScroll x y w wh d line with
      | error e' =>
          rw [one] at failed
          cases failed
          exact screenScroll_error one
      | ok first =>
          rw [one] at failed
          cases others : screenLines x y w wh d lines with
          | error e' =>
              rw [others] at failed
              cases failed
              exact ih others
          | ok rest =>
              rw [others] at failed
              cases failed

/-- The rectangles are the lines that are scrolled by some distance. -/
theorem mem_screenScrolls {x y : Int} {w wh : Nat} {raw : Scrolls} {scrolls : List Scroll}
    (made : screenScrolls x y w wh raw = .ok scrolls) {scroll : Scroll} :
    scroll ∈ scrolls ↔ ∃ entry ∈ raw, entry.1 ≠ 0 ∧ ∃ line ∈ entry.2,
      scroll = ⟨x, y + line.1, w, line.2, 0, entry.1⟩ := by
  induction raw generalizing scrolls with
  | nil =>
      cases made
      simp
  | cons entry raw ih =>
      rw [screenScrolls] at made
      by_cases still : entry.1 = 0
      · rw [if_pos still] at made
        rw [ih made]
        simp [still]
      · rw [if_neg still] at made
        obtain ⟨first, one, made⟩ := ok_of_bind made
        obtain ⟨rest, others, made⟩ := ok_of_bind made
        cases made
        rw [List.mem_append, ih others, screenLines_ok one]
        simp [still, eq_comm]

theorem screenScrolls_error {x y : Int} {w wh : Nat} {raw : Scrolls} {e : Exn}
    (failed : screenScrolls x y w wh raw = .error e) : Caught e := by
  induction raw with
  | nil => cases failed
  | cons entry raw ih =>
      rw [screenScrolls] at failed
      split at failed
      · exact ih failed
      · cases one : screenLines x y w wh entry.1 entry.2 with
        | error e' =>
            rw [one] at failed
            cases failed
            exact screenLines_error one
        | ok first =>
            rw [one] at failed
            cases others : screenScrolls x y w wh raw with
            | error e' =>
                rw [others] at failed
                cases failed
                exact ih others
            | ok rest =>
                rw [others] at failed
                cases failed

/-- The scrolls move lines with equal checksums, and what is not their target is sent. -/
structure Plan (a1 : Option Checksums) (a2 : Checksums) (h : Nat) (raw : Scrolls) (nonScroll : Lines) :
    Prop where
  sound : ∀ scroll ∈ raw, ∀ line ∈ scroll.2,
    ∃ a, a1 = some a ∧ IsScroll a a2 h scroll.1 line.1 line.2
  small : ∀ scroll ∈ raw, 2 * h < 2 ^ 15
  inside : ∀ line ∈ nonScroll, 0 < line.2 ∧ line.1 + line.2 ≤ h
  rest : ∀ j < h, (∃ line ∈ nonScroll, line.1 ≤ j ∧ j < line.1 + line.2) ∨ IsTarget raw j

theorem plan_all (a1 : Option Checksums) (a2 : Checksums) {h : Nat} (some : 0 < h) :
    Plan a1 a2 h [] [(0, h)] where
  sound scroll member := by cases member
  small scroll member := by cases member
  inside line member := by
    cases List.mem_singleton.mp member
    exact ⟨some, Nat.le_of_eq (Nat.zero_add h)⟩
  rest j below := .inl ⟨_, List.mem_singleton_self _, Nat.zero_le j, by rwa [Nat.zero_add]⟩

theorem getScrollValues_ends {sd : ScrollData} {a1 a2 : Checksums} (first : sd.a1 = some a1)
    (second : sd.a2 = some a2) {minHits : Nat} {values : Except Exn (Option (Scrolls × Lines))}
    (ends : sd.getScrollValues minHits = some values) : 2 * sd.height < 2 ^ 15 := by
  by_contra large
  unfold getScrollValues at ends
  have forever : int16Range (2 * sd.height) = none := if_neg large
  rw [first, second] at ends
  simp only [forever, Option.bind_eq_bind, Option.bind_none, Option.bind_fun_none] at ends
  cases ends

theorem zones_plan {s : WindowVideoSource C} {sd : ScrollData} {image : Frame} {a2 : Checksums}
    (height : sd.height = image.height) (second : sd.a2 = some a2)
    (counted : sd.a1 ≠ none → sd.distances ≠ none) {maxZones : Nat}
    {found : Except Exn (Scrolls × Lines)} (zoned : zones s sd image maxZones = some found) :
    ∃ raw nonScroll, found = .ok (raw, nonScroll) ∧ Plan sd.a1 a2 image.height raw nonScroll := by
  have all : ∀ a1, Plan a1 a2 image.height [] [(0, image.height)] :=
    fun a1 => plan_all a1 a2 image.valid.2
  unfold zones at zoned
  split at zoned
  · cases zoned
    exact ⟨_, _, rfl, all _⟩
  cases first : sd.a1 with
  | none =>
      have nothing : sd.getScrollValues 2 = some (.ok none) := by
        unfold getScrollValues
        rw [first]
      rw [nothing] at zoned
      cases zoned
      exact ⟨_, _, rfl, all _⟩
  | some a1 =>
      cases values : sd.getScrollValues 2 with
      | none =>
          rw [values] at zoned
          cases zoned
      | some value =>
          obtain ⟨distances, hits⟩ := Option.ne_none_iff_exists'.mp (counted (by rw [first]; nofun))
          have small := getScrollValues_ends first second values
          obtain ⟨raw, nonScroll, same, delta⟩ := getScrollValues_ok sd first second hits small 2
          rw [same] at zoned
          dsimp only at zoned
          split at zoned
          · cases zoned
            exact ⟨_, _, rfl, all _⟩
          · cases zoned
            rw [height] at delta small
            refine ⟨raw, nonScroll, rfl, ⟨fun scroll member line there => ?_, fun _ _ => small, delta.inside,
              fun j below => ?_⟩⟩
            · exact ⟨a1, rfl, delta.sound scroll member line there⟩
            · by_cases target : IsTarget raw j
              · exact .inr target
              · exact .inl ((delta.rest j below).mpr target)

/-- The lines that can be matched look like those that they match. -/
def Movable (look : String → Bytes → C) (client : Backing C) (image : Frame) (a1 : Option Checksums)
    (a2 : Checksums) : Prop :=
  ∀ a, a1 = some a → ∀ j < image.height, a.getD j 0 ≠ 0 →
    ∀ j' < image.height, a.getD j 0 = a2.getD j' 0 →
      ∀ i < image.width, client.pixels (image.targetX + i, image.targetY + j) =
        some (image.colour look i j')

/-- A scroll copies lines of the picture to where they are now. -/
theorem right_scroll {client : Backing C} {image : Frame} {w h : Nat} (fits : Fits (w, h) image)
    (size : client.size = ((w : Int), (h : Int))) {a1 : Option Checksums} {a2 a : Checksums}
    (movable : Movable look client image a1 a2) (here : a1 = some a) {d : Int} {line : Nat × Nat}
    (scrolls : IsScroll a a2 image.height d line.1 line.2) :
    Right look image (client.scrollStroke ⟨image.targetX, image.targetY + line.1, image.width, line.2, 0, d⟩) := by
  obtain ⟨⟨fitX, fitW⟩, fitY, fitH⟩ := fits
  have above := scrolls.above
  have below := scrolls.below
  have source := scrolls.source
  intro p covered
  unfold Backing.scrollStroke Within at covered
  rw [decide_eq_true_eq] at covered
  obtain ⟨⟨⟨left, right⟩, top, bottom⟩, -⟩ := covered
  dsimp only at left right top bottom fitW fitH
  have line_same := scrolls.same (p.2 - image.targetY - d - line.1).toNat (by omega)
  have row : line.1 + (p.2 - image.targetY - d - line.1).toNat = (p.2 - image.targetY - d).toNat := by omega
  have target : ((line.1 : Int) + d + ((p.2 - image.targetY - d - line.1).toNat : Nat)).toNat =
      (p.2 - image.targetY).toNat := by omega
  rw [row, target] at line_same
  have moved := movable a here (p.2 - image.targetY - d).toNat (by omega) line_same.2
    (p.2 - image.targetY).toNat (by omega) line_same.1 (p.1 - image.targetX).toNat (by omega)
  have place : (image.targetX + ((p.1 - image.targetX).toNat : Nat),
      image.targetY + ((p.2 - image.targetY - d).toNat : Nat)) = (p.1 - 0, p.2 - d) := by
    rw [Prod.mk.injEq]
    constructor
    · omega
    · omega
  rw [place] at moved
  refine ⟨⟨⟨by omega, by omega⟩, by omega, by omega⟩, ?_⟩
  unfold Backing.scrollStroke
  dsimp only
  rw [if_pos, moved]
  · rfl
  · unfold Backing.inside
    rw [size]
    dsimp only
    omega

/-! ### All packets of a picture -/

/-- The window is as large as the client's backing. -/
def SameSize (s : WindowVideoSource C) : Prop :=
  s.client.size = ((s.windowDimensions.1 : Int), (s.windowDimensions.2 : Int))

/-- The client shows the picture. -/
def Shows (look : String → Bytes → C) (client : Backing C) (image : Frame) : Prop :=
  ∀ p, image.covers p → client.pixels p = some (image.colourAt look p)

theorem Fits.inside {s : WindowVideoSource C} {image : Frame} (fits : Fits s.windowDimensions image)
    (same : SameSize s) {p : Int × Int} (within : image.covers p) : s.client.inside p := by
  obtain ⟨⟨fitX, fitW⟩, fitY, fitH⟩ := fits
  obtain ⟨⟨left, right⟩, top, bottom⟩ := within
  unfold Backing.inside
  rw [same]
  dsimp only
  omega

/-- The pixels that the strokes of a plan leave. -/
theorem plan_shows {s : WindowVideoSource C} {image : Frame} (fits : Fits s.windowDimensions image)
    (same : SameSize s) {a1 : Option Checksums} {a2 : Checksums}
    (movable : Movable look s.client image a1 a2) {raw : Scrolls} {nonScroll : Lines}
    (plan : Plan a1 a2 image.height raw nonScroll) {scrolls : List Scroll}
    (made : screenScrolls image.targetX image.targetY image.width s.windowDimensions.2 raw = .ok scrolls)
    {strokes : List (Stroke (Int × Int) (Option C))}
    (moves : ∀ scroll ∈ scrolls, s.client.scrollStroke scroll ∈ strokes)
    (covered : Covered s.client image nonScroll strokes)
    (right : ∀ stroke ∈ strokes, Right look image stroke) {p : Int × Int} (within : image.covers p) :
    paint strokes s.client.pixels p = some (image.colourAt look p) := by
  have inside := fits.inside same within
  obtain ⟨⟨left, right'⟩, top, bottom⟩ := id within
  apply paint_eq
  · intro stroke member covers
    exact (right stroke member p covers).2
  · intro untouched
    have clear : ∀ stroke ∈ strokes, ¬ stroke.covers p = true := by
      intro stroke member covers
      rw [untouched stroke member] at covers
      cases covers
    rcases plan.rest (p.2 - image.targetY).toNat (by omega) with ⟨line, member, low, high⟩ | target
    · obtain ⟨stroke, there, covers⟩ := covered p inside line member
        ⟨⟨left, right'⟩, by omega, by omega⟩
      exact absurd covers (clear stroke there)
    · obtain ⟨entry, member, line, there, low, high⟩ := target
      obtain ⟨a, here, scroll⟩ := plan.sound entry member line there
      have above := scroll.above
      have below := scroll.below
      by_cases still : entry.1 = 0
      · -- a scroll by no distance is not sent: the line is there already
        rw [still] at scroll low high
        have alike := scroll.same ((p.2 - image.targetY).toNat - line.1) (by omega)
        have row : line.1 + ((p.2 - image.targetY).toNat - line.1) = (p.2 - image.targetY).toNat := by omega
        have target : ((line.1 : Int) + 0 + (((p.2 - image.targetY).toNat - line.1 : Nat) : Int)).toNat =
            (p.2 - image.targetY).toNat := by omega
        rw [row, target] at alike
        have shown := movable a here (p.2 - image.targetY).toNat (by omega) alike.2
          (p.2 - image.targetY).toNat (by omega) alike.1 (p.1 - image.targetX).toNat (by omega)
        have place : (image.targetX + ((p.1 - image.targetX).toNat : Nat),
            image.targetY + ((p.2 - image.targetY).toNat : Nat)) = p := by
          apply Prod.ext
          · dsimp only
            omega
          · dsimp only
            omega
        rw [place] at shown
        exact shown
      · have listed := (mem_screenScrolls made).mpr ⟨entry, member, still, line, there, rfl⟩
        refine absurd ?_ (clear _ (moves _ listed))
        unfold Backing.scrollStroke Within
        rw [decide_eq_true_eq]
        refine ⟨⟨⟨?_, ?_⟩, ?_, ?_⟩, inside⟩
        · dsimp only
          omega
        · dsimp only
          omega
        · dsimp only
          omega
        · dsimp only
          omega

theorem sendScrolls_sends {s : WindowVideoSource C} (image : Frame) (scrolls : List Scroll) (flush : Int)
    {options : Options} (used : options.scroll = true) :
    Sends s (scrolls.map s.client.scrollStroke) (sendScrolls s image scrolls flush options) := by
  unfold sendScrolls
  split
  · rename_i none
    rw [none]
    exact .refl s
  · rw [makeDrawPacket_compared s used]
    exact ⟨⟨rfl, rfl, rfl, rfl, rfl, rfl, rfl, rfl⟩, rfl, rfl, s.client.painted_scroll scrolls⟩

theorem boostQuality_same (env : Env C) (options : Options) (matchPct : Int) :
    (boostQuality env options matchPct).scroll = options.scroll ∧
      (boostQuality env options matchPct).windowSize = options.windowSize := by
  unfold boostQuality
  split
  · exact ⟨rfl, rfl⟩
  · split
    · exact ⟨rfl, rfl⟩
    · exact ⟨rfl, rfl⟩

/-- What `encode_scrolling` leaves, complete or not. -/
structure Scrolled (raises : Exn → Prop) (look : String → Bytes → C) (s : WindowVideoSource C) (image : Frame)
    (options : Options) (outcome : Outcome C Unit) : Prop where
  sends : ∃ strokes, Sends s strokes outcome.source ∧ ∀ stroke ∈ strokes, Right look image stroke
  scroll : outcome.options.scroll = options.scroll
  windowSize : outcome.options.windowSize = options.windowSize
  ends : (outcome.result = .ok () ∧ Shows look outcome.source.client image) ∨
    ∃ e, outcome.result = .error e ∧ raises e

theorem encodeScrolling_scrolled {raises : Exn → Prop} {env : Env C} {s : WindowVideoSource C}
    {sd : ScrollData} (subs : Subs raises look env) {image : Frame} (fits : Fits s.windowDimensions image)
    (same : SameSize s) {options : Options} (used : options.scroll = true) (sized : Sized s options)
    {a1 : Option Checksums} {a2 : Checksums} {maxZones : Nat}
    (zoned : ∀ found, zones s sd image maxZones = some found →
      ∃ raw nonScroll, found = .ok (raw, nonScroll) ∧ Plan a1 a2 image.height raw nonScroll)
    (movable : Movable look s.client image a1 a2) {matchPct : Int} {outcome : Outcome C Unit}
    (ends : encodeScrolling env s sd image options matchPct maxZones = some outcome) :
    Scrolled raises look s image options outcome := by
  unfold encodeScrolling at ends
  split at ends
  · cases ends
  · rename_i e failed
    obtain ⟨raw, nonScroll, planned, -⟩ := zoned _ failed
    cases planned
  · rename_i raw nonScroll found
    obtain ⟨raw', nonScroll', planned, plan⟩ := zoned _ found
    cases planned
    dsimp only at ends
    split at ends
    · rename_i e failed
      cases ends
      exact ⟨⟨[], .refl s, by simp⟩, rfl, rfl, .inr ⟨e, rfl, subs.caught e (screenScrolls_error failed)⟩⟩
    · rename_i scrolls made
      have scrolled := sendScrolls_sends image scrolls nonScroll.length used (s := s)
      have rightScrolls : ∀ stroke ∈ scrolls.map s.client.scrollStroke, Right look image stroke := by
        intro stroke member
        obtain ⟨scroll, there, rfl⟩ := List.mem_map.mp member
        obtain ⟨entry, listed, -, line, within, rfl⟩ := (mem_screenScrolls made).mp there
        obtain ⟨a, here, scrolls⟩ := plan.sound entry listed line within
        exact right_scroll fits same movable here scrolls
      -- the options with their quality
      have kept : (if nonScroll = [] then options else boostQuality env options matchPct).scroll =
            options.scroll ∧
          (if nonScroll = [] then options else boostQuality env options matchPct).windowSize =
            options.windowSize := by
        split
        · exact ⟨rfl, rfl⟩
        · exact boostQuality_same env options matchPct
      generalize (if nonScroll = [] then options else boostQuality env options matchPct) = boosted
        at ends kept
      have sized' : Sized (sendScrolls s image scrolls nonScroll.length options) boosted := by
        have moved := sized.kept scrolled.kept
        unfold Sized at moved ⊢
        rwa [kept.2]
      obtain ⟨strokes, sends, right, complete⟩ := sendRest_sends subs (kept.1.trans used) nonScroll
        plan.inside sized' nonScroll.length
      generalize sendRest env image boosted (sendScrolls s image scrolls nonScroll.length options) nonScroll
        nonScroll.length = rest at ends sends complete
      obtain ⟨after, result⟩ := rest
      dsimp only at ends sends complete
      have together := scrolled.trans sends
      have all : ∀ stroke ∈ scrolls.map s.client.scrollStroke ++ strokes, Right look image stroke := by
        intro stroke member
        rcases List.mem_append.mp member with one | other
        · exact rightScrolls stroke one
        · exact right stroke other
      rcases complete with ⟨done, covered⟩ | ⟨e, failed, raised⟩
      · rw [done] at ends
        dsimp only at ends
        rw [if_neg (not_not.mpr (Int.sub_self _))] at ends
        cases ends
        refine ⟨⟨_, together.timed env.now, all⟩, kept.1, kept.2, .inl ⟨rfl, fun p within => ?_⟩⟩
        refine (together.painted.pixels p (fits.inside same within)).trans ?_
        apply plan_shows fits same movable plan made _ _ all within
        · intro scroll member
          exact List.mem_append_left _ (List.mem_map_of_mem member)
        · intro q here line member within
          obtain ⟨stroke, there, covers⟩ := covered q
            ((Backing.inside_congr scrolled.painted.size q).mpr here) line member within
          exact ⟨stroke, List.mem_append_right _ there, covers⟩
      · rw [failed] at ends
        cases ends
        exact ⟨⟨_, together, all⟩, kept.1, kept.2, .inr ⟨e, rfl, raised⟩⟩

end Catlink.ScrollEncode
