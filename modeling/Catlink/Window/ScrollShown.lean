import Catlink.Window.ScrollPackets

/-! The checksums of scroll detection are of what the client shows. -/

namespace Catlink.ScrollEncode

open Paint Window Client ScrollData

variable {C : Type} {xxh3 : Bytes → UInt64} {look : String → Bytes → C}

/-! ### The scroll data of a picture -/

def checksums (xxh3 : Bytes → UInt64) (image : Frame) : Checksums :=
  (List.range image.height).map fun i => xxh3 (image.row i)

theorem checksums_getD (xxh3 : Bytes → UInt64) (image : Frame) {j : Nat} (below : j < image.height) :
    (checksums xxh3 image).getD j 0 = xxh3 (image.row j) := by
  rw [checksums, List.getD_eq_getElem?_getD, List.getElem?_map, List.getElem?_range below]
  rfl

/-- What a picture leaves in the scroll data, and what it is compared with. -/
structure Updated (xxh3 : Bytes → UInt64) (sd : ScrollData) (image : Frame) (sd' : ScrollData) : Prop where
  describes : Describes xxh3 image sd' (checksums xxh3 image)
  a2 : sd'.a2 = some (checksums xxh3 image)
  a1 : ∀ a1, sd'.a1 = some a1 → sd.a2 = some a1 ∧ sd.width = image.width ∧ sd.height = image.height

theorem updated (xxh3 : Bytes → UInt64) (sd : ScrollData) (image : Frame) :
    Updated xxh3 sd image (sd.update xxh3 image.toImageWrapper) := by
  unfold update
  dsimp only
  split
  · rename_i same
    refine ⟨⟨rfl, rfl, same.2.symm, same.1.symm, ?_⟩, rfl, fun a1 first => ⟨first, same.2.symm, same.1.symm⟩⟩
    intro j below _
    exact checksums_getD xxh3 image below
  · refine ⟨⟨rfl, rfl, rfl, rfl, ?_⟩, rfl, fun a1 first => ?_⟩
    · intro j below _
      exact checksums_getD xxh3 image below
    · cases first

/-- Counting the hits does not change the rest. -/
theorem Updated.calculate {sd sd' : ScrollData} {image : Frame} (updated : Updated xxh3 sd image sd')
    (maxDistance : Nat) : Updated xxh3 sd image (sd'.calculate maxDistance) ∧
      ((sd'.calculate maxDistance).a1 ≠ none → (sd'.calculate maxDistance).distances ≠ none) := by
  cases first : sd'.a1 with
  | none =>
      have same : sd'.calculate maxDistance = sd' := by
        cases sd'
        cases first
        rfl
      rw [same, first]
      exact ⟨updated, fun absurd => (absurd rfl).elim⟩
  | some a1 =>
      obtain ⟨distances, same⟩ := calculate_ok first updated.a2 maxDistance
      rw [same]
      exact ⟨⟨⟨updated.describes.x, updated.describes.y, updated.describes.width,
        updated.describes.height, updated.describes.lines⟩, updated.a2, updated.a1⟩, fun _ => nofun⟩

/-- The lines of the picture before may be moved: the client shows them where they were. -/
theorem Updated.movable {s : WindowVideoSource C} {sd sd' : ScrollData} {image : Frame}
    (updated : Updated xxh3 sd image sd') (known : s.scrollData = some sd) (shown : Shown xxh3 look s)
    (follows : Follows xxh3 s image) :
    Movable look s.client image sd'.a1 (checksums xxh3 image) := by
  intro a1 first j below nonzero j' below' same i left
  obtain ⟨second, width, height⟩ := updated.a1 a1 first
  obtain ⟨before, compared, -, displayed⟩ := shown sd a1 known second
  have sameWidth : before.width = image.width := displayed.width.symm.trans width
  have sameHeight : before.height = image.height := displayed.height.symm.trans height
  obtain ⟨x, y, format, bytes, apart⟩ := follows before sd compared known (by rw [second]; nofun)
    sameWidth sameHeight
  have line := displayed.lines j (sameHeight ▸ below) nonzero
  have row : before.row j = image.row j' := by
    apply apart j below j' below'
    rw [← line, same, checksums_getD xxh3 image below']
  rw [← x, ← y, displayed.pixels j (sameHeight ▸ below) nonzero i (sameWidth ▸ left)]
  exact congrArg some (Frame.colour_congr format bytes row i)

/-! ### Invalidated lines -/

theorem getD_foldl_zero (a : Checksums) (start n j : Nat) :
    ((List.range' start n).foldl (fun a i => a.set i 0) a).getD j 0 =
      if start ≤ j ∧ j < start + n then 0 else a.getD j 0 := by
  induction n generalizing a start with
  | zero =>
      rw [if_neg (by omega)]
      rfl
  | succ n ih =>
      rw [List.range'_succ, List.foldl_cons, ih]
      simp only [List.getD_eq_getElem?_getD, List.getElem?_set]
      by_cases first : start = j
      · subst first
        rw [if_neg (by omega), if_pos rfl, if_pos (show start ≤ start ∧ start < start + (n + 1) by omega)]
        split
        · rfl
        · rfl
      · rw [if_neg first]
        split
        · rw [if_pos (by omega)]
        · rw [if_neg (by omega)]

/-- A point of both is in a row of what they have in common. -/
theorem intersection_row {rect : Util.Rectangle} {x y : Int} {w h : Nat} {p : Int × Int}
    (inside : (rect.x ≤ p.1 ∧ p.1 < rect.x + rect.width) ∧ rect.y ≤ p.2 ∧ p.2 < rect.y + rect.height)
    (within : Within x y w h p) :
    ∃ inter, rect.intersection x y w h = some inter ∧ inter.y ≤ p.2 ∧ p.2 < inter.y + inter.height := by
  unfold Within at within
  unfold Util.Rectangle.intersection
  dsimp only
  split
  · omega
  · split
    · omega
    · refine ⟨_, rfl, ?_, ?_⟩
      · dsimp only
        omega
      · dsimp only
        omega

/-- What is left of the checksums is of lines outside of the area. -/
theorem invalidate_ok (sd : ScrollData) {a2 : Checksums} (second : sd.a2 = some a2) (x y : Int)
    (w h : Nat) {a2' : Checksums} (left : (sd.invalidate x y w h).a2 = some a2') :
    ((sd.invalidate x y w h).x = sd.x ∧ (sd.invalidate x y w h).y = sd.y ∧
      (sd.invalidate x y w h).width = sd.width ∧ (sd.invalidate x y w h).height = sd.height) ∧
    ∀ j < sd.height, a2'.getD j 0 ≠ 0 → a2'.getD j 0 = a2.getD j 0 ∧
      ∀ i < sd.width, ¬ Within x y w h (sd.x + i, sd.y + j) := by
  unfold invalidate at left ⊢
  split at left
  · rename_i none
    rw [second] at none
    cases none
  · rename_i a present
    rw [second] at present
    cases present
    dsimp only at left ⊢
    split at left
    · rename_i apart
      rw [second] at left
      cases left
      refine ⟨⟨rfl, rfl, rfl, rfl⟩, fun j below _ => ⟨rfl, fun i before within => ?_⟩⟩
      obtain ⟨inter, there, -⟩ := @intersection_row
        ⟨sd.x, sd.y, sd.width, sd.height, by omega⟩ _ _ _ _ _ (by dsimp only; omega) within
      rw [there] at apart
      cases apart
    · rename_i inter there
      split at left
      · cases left
      · rename_i enough
        rw [if_neg enough]
        cases left
        refine ⟨⟨rfl, rfl, rfl, rfl⟩, fun j below => ?_⟩
        rw [getD_foldl_zero]
        split
        · exact fun nonzero => absurd rfl nonzero
        · rename_i outside
          refine fun _ => ⟨rfl, fun i before within => outside ?_⟩
          obtain ⟨inter', there', top, bottom⟩ := @intersection_row
            ⟨sd.x, sd.y, sd.width, sd.height, by omega⟩ _ _ _ _ _ (by dsimp only; omega) within
          rw [there] at there'
          cases there'
          dsimp only at top bottom
          omega

/-! ### Scroll detection -/

/-- Outside of the picture nothing changes. -/
def Outside (image : Frame) (before after : Backing C) : Prop :=
  ∀ p, before.inside p → ¬ image.covers p → after.pixels p = before.pixels p

/-- If there are checksums, they are of this picture. -/
def Checked (xxh3 : Bytes → UInt64) (s : WindowVideoSource C) (image : Frame) : Prop :=
  ∀ sd a2, s.scrollData = some sd → sd.a2 = some a2 →
    s.compared = some image ∧ Describes xxh3 image sd a2

/-- The picture has still to be sent. -/
structure Ready (xxh3 : Bytes → UInt64) (look : String → Bytes → C) (start s : WindowVideoSource C)
    (image : Frame) (options : Options) : Prop where
  kept : Kept start s
  outside : Outside image start.client s.client
  sized : Sized start options
  fresh : options.scroll = false →
    s.client = start.client ∧ Shown xxh3 look s ∧ Follows xxh3 s image
  used : options.scroll = true → Checked xxh3 s image

/-- The client has the picture. -/
structure Done (xxh3 : Bytes → UInt64) (look : String → Bytes → C) (start s : WindowVideoSource C)
    (image : Frame) : Prop where
  kept : Kept start s
  outside : Outside image start.client s.client
  checked : Checked xxh3 s image
  shows : Shows look s.client image

theorem Done.shown {start s : WindowVideoSource C} {image : Frame} (done : Done xxh3 look start s image)
    (fits : Fits start.windowDimensions image) : Shown xxh3 look s := by
  intro sd a2 known second
  obtain ⟨compared, describes⟩ := done.checked sd a2 known second
  refine ⟨image, compared, done.kept.windowDimensions ▸ fits, ⟨describes, fun j below _ i left => ?_⟩⟩
  rw [done.shows _ (image.covers_add left below), image.colourAt_add look i j]

/-- Without checksums there is nothing to be wrong. -/
theorem shown_none {s : WindowVideoSource C} (none : s.scrollData = none) : Shown xxh3 look s := by
  intro sd a2 known
  rw [none] at known
  cases known

theorem checked_none {s : WindowVideoSource C} {image : Frame} (none : s.scrollData = none) :
    Checked xxh3 s image := by
  intro sd a2 known
  rw [none] at known
  cases known

theorem follows_none {s : WindowVideoSource C} {image : Frame} (none : s.scrollData = none) :
    Follows xxh3 s image := by
  intro before sd _ known
  rw [none] at known
  cases known

theorem Ready.freed {start s : WindowVideoSource C} {image : Frame} {options : Options}
    (ready : Ready xxh3 look start s image options) :
    Ready xxh3 look start (doFreeScrollData s) image options := by
  obtain ⟨⟨dimensions, sequence, cancelled, suspended, todo, queue, current, size⟩, outside, sized, fresh,
    used⟩ := ready
  refine ⟨⟨dimensions, sequence, cancelled, suspended, todo, queue, current, size⟩, outside, sized, ?_, ?_⟩
  · exact fun unused => ⟨(fresh unused).1, shown_none rfl, follows_none rfl⟩
  · exact fun _ => checked_none rfl

/-- New scroll data has no checksums. -/
theorem Ready.created {start s : WindowVideoSource C} {image : Frame} {options : Options}
    (ready : Ready xxh3 look start s image options) (unused : options.scroll = false) :
    Ready xxh3 look start { s with scrollData := some (s.scrollData.getD .new) } image options := by
  obtain ⟨⟨dimensions, sequence, cancelled, suspended, todo, queue, current, size⟩, outside, sized, fresh,
    used⟩ := ready
  obtain ⟨client, shown, follows⟩ := fresh unused
  refine ⟨⟨dimensions, sequence, cancelled, suspended, todo, queue, current, size⟩, outside, sized, ?_, ?_⟩
  · refine fun _ => ⟨client, ?_, ?_⟩
    · intro sd a2 known second
      cases held : s.scrollData with
      | none =>
          rw [held] at known
          cases known
          cases second
      | some sd' =>
          rw [held] at known
          cases known
          exact shown sd' a2 held second
    · intro before sd compared known second
      cases held : s.scrollData with
      | none =>
          rw [held] at known
          cases known
          exact absurd rfl second
      | some sd' =>
          rw [held] at known
          cases known
          exact follows before sd' compared held second
  · intro used
    rw [unused] at used
    cases used

/-- What strokes of the picture leave. -/
theorem Sends.outside {s s' : WindowVideoSource C} {image : Frame}
    {strokes : List (Stroke (Int × Int) (Option C))} (sends : Sends s strokes s')
    (right : ∀ stroke ∈ strokes, Right look image stroke) : Outside image s.client s'.client := by
  intro p inside apart
  rw [sends.painted.pixels p inside]
  apply paint_outside
  intro stroke member
  by_contra covers
  exact apart (right stroke member p (Bool.not_eq_false _ ▸ covers)).1

/-- How scroll detection ends when the encoders do their work. -/
inductive Detected (xxh3 : Bytes → UInt64) (look : String → Bytes → C) (start : WindowVideoSource C)
    (image : Frame) : Outcome C Bool → Prop
  | unused {s options} (ready : Ready xxh3 look start s image options) :
      Detected xxh3 look start image ⟨s, options, .ok false⟩
  | used {s options} (done : Done xxh3 look start s image) :
      Detected xxh3 look start image ⟨s, options, .ok true⟩

theorem encodeMatched_detected {env : Env C} {start s : WindowVideoSource C} {item : Item}
    (honest : Honest look env item) {image : Frame} (fits : Fits start.windowDimensions image)
    (same : SameSize start) (kept : Kept start s) (client : s.client = start.client)
    (checked : Checked xxh3 s image) {options : Options} (used : options.scroll = true)
    (sized : Sized start options) {sd : ScrollData} {a2 : Checksums} (height : sd.height = image.height)
    (second : sd.a2 = some a2) (counted : sd.a1 ≠ none → sd.distances ≠ none)
    (movable : Movable look s.client image sd.a1 a2) {minPercent : Int} {outcome : Outcome C Bool}
    (ends : encodeMatched env s sd image options minPercent = some outcome) :
    Detected xxh3 look start image outcome := by
  have same' : SameSize s := by
    unfold SameSize at same ⊢
    rw [kept.size, kept.windowDimensions]
    exact same
  unfold encodeMatched at ends
  dsimp only at ends
  generalize (if minPercent > 0 then (20 : Nat) else 50) = maxZones at ends
  generalize (if minPercent > 0 then (100 * sd.getBestMatch.2 / image.height : Int) else minPercent) =
    matchPct at ends
  have through {outcome : Outcome C Unit}
      (ends : encodeScrolling env s sd image options matchPct maxZones = some outcome) :
      Scrolled Caught look s image options outcome :=
    encodeScrolling_scrolled honest.subs (kept.windowDimensions ▸ fits) same' used (sized.kept kept)
      (fun _ => zones_plan height second counted) movable ends
  have still {s' : WindowVideoSource C} {strokes : List (Stroke (Int × Int) (Option C))}
      (sends : Sends s strokes s') : Checked xxh3 s' image := by
    intro sd a2 known second
    rw [sends.scrollData] at known
    rw [sends.compared]
    exact checked sd a2 known second
  split at ends
  · split at ends
    · cases ends
    · rename_i after options' complete encoded
      cases ends
      have scrolled := through encoded
      obtain ⟨strokes, sends, right⟩ := scrolled.sends
      rcases scrolled.ends with ⟨-, shows⟩ | ⟨e, failed, -⟩
      · exact .used ⟨kept.trans sends.kept, client ▸ sends.outside right, still sends, shows⟩
      · cases failed
    · rename_i after options' e encoded
      have scrolled := through encoded
      obtain ⟨strokes, sends, right⟩ := scrolled.sends
      rcases scrolled.ends with ⟨complete, -⟩ | ⟨e', failed, caught⟩
      · cases complete
      · cases failed
        rw [if_pos caught] at ends
        cases ends
        have stillUsed : options'.scroll = true := scrolled.scroll.trans used
        have sized' : Sized start options' := by
          have unchanged : options'.windowSize = options.windowSize := scrolled.windowSize
          unfold Sized at sized ⊢
          rwa [unchanged]
        have ready : Ready xxh3 look start after image options' := by
          refine ⟨kept.trans sends.kept, client ▸ sends.outside right, sized', ?_, fun _ => still sends⟩
          intro unused
          rw [stillUsed] at unused
          cases unused
        exact .unused ready.freed
  · cases ends
    refine .unused ⟨kept, ?_, sized, ?_, fun _ => checked⟩
    · intro p _ _
      rw [client]
    · intro unused
      rw [used] at unused
      cases unused

theorem doScrollEncode_detected {env : Env C} {start s : WindowVideoSource C} {item : Item}
    (honest : Honest look env item) {image : Frame} (fits : Fits start.windowDimensions image)
    (same : SameSize start) {options : Options} (ready : Ready xxh3 look start s image options)
    {minPercent : Int} (percent : minPercent ≤ 100) {outcome : Outcome C Bool}
    (ends : doScrollEncode xxh3 env s image options minPercent = some outcome) :
    Detected xxh3 look start image outcome := by
  unfold doScrollEncode at ends
  split at ends
  · cases ends
    exact .unused ready
  rename_i allowed
  have unused : options.scroll = false := by
    rw [Bool.eq_false_iff]
    exact fun used => allowed (.inl used)
  have created := ready.created unused
  dsimp only at ends
  generalize s.scrollData.getD .new = sd at ends created
  split at ends
  · cases ends
    exact .unused created
  have positive : ¬ min 1000 ((100 - minPercent) * image.height / 100) < 0 := by
    have product : 0 ≤ (100 - minPercent) * (image.height : Int) :=
      Int.mul_nonneg (by omega) (by omega)
    omega
  rw [if_neg positive] at ends
  obtain ⟨client, shown, follows⟩ := created.fresh unused
  obtain ⟨checks, counted⟩ := (updated xxh3 sd image).calculate
    (min 1000 ((100 - minPercent) * image.height / 100)).toNat
  have movable := checks.movable rfl shown follows
  generalize (sd.update xxh3 image.toImageWrapper).calculate
    (min 1000 ((100 - minPercent) * image.height / 100)).toNat = sd' at ends checks counted movable
  obtain ⟨dimensions, sequence, cancelled, suspended, todo, queue, current, size⟩ := created.kept
  have kept : Kept start { s with scrollData := some sd', compared := some image } :=
    ⟨dimensions, sequence, cancelled, suspended, todo, queue, current, size⟩
  have checked : Checked xxh3 { s with scrollData := some sd', compared := some image } image := by
    intro sd a2 known second
    cases known
    rw [checks.a2] at second
    cases second
    exact ⟨rfl, checks.describes⟩
  have sized : Sized start { options with scroll := true } := ready.sized
  exact encodeMatched_detected honest fits same kept client checked rfl sized checks.describes.height
    checks.a2 counted movable ends

theorem mayUseScrolling_detected {env : Env C} {start s : WindowVideoSource C} {item : Item}
    (honest : Honest look env item) {image : Frame} (fits : Fits start.windowDimensions image)
    (same : SameSize start) {options : Options} (ready : Ready xxh3 look start s image options)
    {outcome : Outcome C Bool} (ends : mayUseScrolling xxh3 env s image options = some outcome) :
    Detected xxh3 look start image outcome := by
  unfold mayUseScrolling at ends
  dsimp only at ends
  split at ends
  · cases ends
    exact .unused ready
  · split at ends
    · cases ends
      exact .unused ready.freed
    · split at ends
      · cases ends
        exact .unused ready
      · exact doScrollEncode_detected honest fits same ready honest.percent ends

/-! ### The packet of a picture -/

/-- The scroll data after a packet that was not compared. -/
def Invalidated (s : WindowVideoSource C) (x y : Int) (w h : Nat) (scrollData : Option ScrollData) : Prop :=
  scrollData = none ∨ ∃ sd, s.scrollData = some sd ∧ scrollData = some (sd.invalidate x y w h)

/-- Only the scroll data and what the client has change. -/
theorem sendPicture_eq (s : WindowVideoSource C) (image : Frame) (ret : Encoded C) (flush : Int)
    (options : Options) : ∃ scrollData,
      sendPicture s image ret flush options =
        { s with
          scrollData
          client := s.client.drawRegion ⟨image.targetX, image.targetY, ret.outw, ret.outh, ret.coding,
            .picture ret.colour, flush, options.windowSize⟩ } ∧
      (options.scroll = false →
        Invalidated s image.targetX image.targetY ret.outw ret.outh scrollData) := by
  unfold sendPicture makeDrawPacket queueDamagePacket
  dsimp only
  split
  · rename_i none
    exact ⟨_, rfl, fun _ => .inl none⟩
  · rename_i sd held
    split
    · rename_i used
      refine ⟨_, rfl, fun unused => ?_⟩
      rw [used] at unused
      cases unused
    · split
      · exact ⟨_, rfl, fun _ => .inl rfl⟩
      · exact ⟨_, rfl, fun _ => .inr ⟨sd, held, rfl⟩⟩

theorem sendPicture_painted {s : WindowVideoSource C} {options : Options} (sized : Sized s options)
    (image : Frame) (ret : Encoded C) (flush : Int) :
    s.client.Painted [s.client.pictureStroke image.targetX image.targetY ret.outw ret.outh ret.colour]
      (sendPicture s image ret flush options).client := by
  obtain ⟨scrollData, same, -⟩ := sendPicture_eq s image ret flush options
  rw [same]
  exact s.client.painted_picture ⟨image.targetX, image.targetY, ret.outw, ret.outh, ret.coding,
    .picture ret.colour, flush, options.windowSize⟩ rfl sized

theorem sendPicture_kept {s : WindowVideoSource C} {options : Options} (sized : Sized s options)
    (image : Frame) (ret : Encoded C) (flush : Int) : Kept s (sendPicture s image ret flush options) := by
  have size := (sendPicture_painted sized image ret flush).size
  obtain ⟨scrollData, same, -⟩ := sendPicture_eq s image ret flush options
  rw [same] at size ⊢
  exact ⟨rfl, rfl, rfl, rfl, rfl, rfl, rfl, size⟩

/-- A picture that was not compared takes the lines that it paints over out of the checksums. -/
theorem sendPicture_shown {s : WindowVideoSource C} {options : Options} (unused : options.scroll = false)
    (sized : Sized s options) (same : SameSize s) (shown : Shown xxh3 look s) (image : Frame)
    (ret : Encoded C) (flush : Int) : Shown xxh3 look (sendPicture s image ret flush options) := by
  have painted := sendPicture_painted sized image ret flush
  obtain ⟨scrollData, made, invalidated⟩ := sendPicture_eq s image ret flush options
  rw [made] at painted ⊢
  rcases invalidated unused with none | ⟨sd, held, left⟩
  · exact shown_none none
  intro sd' a2' known second
  rw [show scrollData = some sd' from known, Option.some_inj] at left
  rw [left] at second
  -- the checksums before, of which some lines are left
  cases first : sd.a2 with
  | none =>
      have idle : sd.invalidate image.targetX image.targetY ret.outw ret.outh = sd := by
        unfold invalidate
        split
        · rfl
        · rename_i a present
          rw [first] at present
          cases present
      rw [idle, first] at second
      cases second
  | some a2 =>
      obtain ⟨before, compared, fits, displayed⟩ := shown sd a2 held first
      obtain ⟨⟨x, y, width, height⟩, lines⟩ := invalidate_ok sd first _ _ _ _ second
      rw [← left] at x y width height
      refine ⟨before, compared, fits, ⟨⟨x.trans displayed.x, y.trans displayed.y,
        width.trans displayed.width, height.trans displayed.height, ?_⟩, ?_⟩⟩
      · intro j below nonzero
        obtain ⟨kept, -⟩ := lines j (displayed.height ▸ below) nonzero
        rw [kept]
        exact displayed.lines j below (kept ▸ nonzero)
      · intro j below nonzero i before'
        obtain ⟨kept, apart⟩ := lines j (displayed.height ▸ below) nonzero
        have within : before.covers (before.targetX + i, before.targetY + j) := by
          unfold Frame.covers Within
          dsimp only
          omega
        have elsewhere := apart i (displayed.width ▸ before')
        rw [displayed.x, displayed.y] at elsewhere
        rw [← displayed.pixels j below (kept ▸ nonzero) i before']
        refine (painted.pixels _ (fits.inside same within)).trans (paint_outside ?_)
        intro stroke member
        cases List.mem_singleton.mp member
        unfold Backing.pictureStroke
        rw [decide_eq_false_iff_not]
        exact fun both => elsewhere both.1

/-- A picture without loss. -/
theorem sendPicture_shows {s : WindowVideoSource C} {options : Options} (sized : Sized s options)
    (same : SameSize s) {image : Frame} (fits : Fits s.windowDimensions image) {ret : Encoded C}
    (lossless : ret.Lossless look image) (flush : Int) :
    Shows look (sendPicture s image ret flush options).client image ∧
      Outside image s.client (sendPicture s image ret flush options).client := by
  have painted := sendPicture_painted sized image ret flush
  have right := right_lines (0, image.height) s.client rfl (by simp) rfl rfl
    (Nat.le_of_eq (Nat.zero_add _)) (fun i j _ => by rw [Nat.zero_add]) lossless
  constructor
  · intro p within
    have inside := fits.inside same within
    rw [painted.pixels p inside, paint_cons, paint_nil, Stroke.apply, if_pos]
    · apply (right p _).2
      unfold Backing.pictureStroke
      rw [lossless.outw, lossless.outh, decide_eq_true_eq]
      exact ⟨within, inside⟩
    · unfold Backing.pictureStroke
      rw [lossless.outw, lossless.outh, decide_eq_true_eq]
      exact ⟨within, inside⟩
  · intro p inside apart
    rw [painted.pixels p inside]
    apply paint_outside
    intro stroke member
    cases List.mem_singleton.mp member
    by_contra covers
    exact apart (right p (Bool.not_eq_false _ ▸ covers)).1

/-- The encoder of the image gives all of it, without loss. -/
def Delivers (look : String → Bytes → C) (env : Env C) (item : Item) : Prop :=
  ∀ options, ∃ ret, env.encodeImage item.coding item.image options = .ok (some ret) ∧
    ret.Lossless look item.image

/-- The encoder is called for the image, unless it was scrolled before that. -/
inductive Encoding (xxh3 : Bytes → UInt64) (look : String → Bytes → C) (env : Env C)
    (start : WindowVideoSource C) (item : Item) : Outcome C (Option (Encoded C)) → Prop
  | image {s options} (ready : Ready xxh3 look start s item.image options) :
      Encoding xxh3 look env start item ⟨s, options, env.encodeImage item.coding item.image options⟩
  | scrolled {s options} (done : Done xxh3 look start s item.image) :
      Encoding xxh3 look env start item ⟨s, options, .ok none⟩

theorem encode_encoding {env : Env C} {start s : WindowVideoSource C} {item : Item}
    (honest : Honest look env item) (fits : Fits start.windowDimensions item.image)
    (same : SameSize start) (going : start.isCancelled Delayed.maxSequence = false) {options : Options}
    (ready : Ready xxh3 look start s item.image options) {encoder : Encoder}
    (kind : encoder = .picture ∨ encoder = .video) {outcome : Outcome C (Option (Encoded C))}
    (ends : encode xxh3 env s item options encoder = some outcome) :
    Encoding xxh3 look env start item outcome := by
  rcases kind with rfl | rfl
  · cases ends
    exact .image ready
  · have going' : ¬ s.isCancelled Delayed.maxSequence = true := by
      unfold WindowVideoSource.isCancelled at going ⊢
      rw [ready.kept.damageCancelled, going]
      nofun
    unfold encode at ends
    dsimp only at ends
    rw [if_neg going'] at ends
    split at ends
    · cases ends
      exact .image ready
    rw [if_neg honest.format] at ends
    split at ends
    · cases ends
    · rename_i detected
      cases mayUseScrolling_detected honest fits same ready detected
    · rename_i detected
      cases ends
      cases mayUseScrolling_detected honest fits same ready detected with
      | used done => exact .scrolled done
    · rename_i detected
      cases ends
      cases mayUseScrolling_detected honest fits same ready detected with
      | unused ready => exact .image ready

/-- What the encode thread leaves when it is done with an image that is not cancelled. -/
structure Finished (xxh3 : Bytes → UInt64) (look : String → Bytes → C) (env : Env C)
    (start s : WindowVideoSource C) (item : Item) : Prop where
  kept : Kept start s
  shown : Shown xxh3 look s
  delivered : Delivers look env item →
    Shows look s.client item.image ∧ Outside item.image start.client s.client

theorem Done.finished {env : Env C} {start s : WindowVideoSource C} {item : Item}
    (done : Done xxh3 look start s item.image) (fits : Fits start.windowDimensions item.image) :
    Finished xxh3 look env start s item :=
  ⟨done.kept, done.shown fits, fun _ => ⟨done.shows, done.outside⟩⟩

theorem Ready.sends {env : Env C} {start s : WindowVideoSource C} {item : Item} {options : Options}
    (ready : Ready xxh3 look start s item.image options) (fits : Fits start.windowDimensions item.image)
    (same : SameSize start) {ret : Encoded C}
    (encoded : env.encodeImage item.coding item.image options = .ok (some ret))
    (whole : options.scroll = true → ret.Lossless look item.image) (flush : Int) :
    Finished xxh3 look env start (sendPicture s item.image ret flush options) item := by
  have same' : SameSize s := by
    unfold SameSize at same ⊢
    rw [ready.kept.size, ready.kept.windowDimensions]
    exact same
  have sized := ready.sized.kept ready.kept
  have kept := sendPicture_kept sized item.image ret flush
  have fits' : Fits s.windowDimensions item.image := ready.kept.windowDimensions ▸ fits
  have lossless_done (lossless : ret.Lossless look item.image) :
      Shows look (sendPicture s item.image ret flush options).client item.image ∧
        Outside item.image start.client (sendPicture s item.image ret flush options).client := by
    obtain ⟨shows, outside⟩ := sendPicture_shows sized same' fits' lossless flush
    refine ⟨shows, fun p inside apart => ?_⟩
    rw [outside p ((Backing.inside_congr ready.kept.size p).mpr inside) apart]
    exact ready.outside p inside apart
  refine ⟨ready.kept.trans kept, ?_, fun delivers => ?_⟩
  · cases used : options.scroll with
    | false =>
        exact sendPicture_shown used sized same' (ready.fresh used).2.1 item.image ret flush
    | true =>
        obtain ⟨shows, outside⟩ := lossless_done (whole used)
        have sends := sendPicture_compared used sized item.image ret flush
        refine Done.shown ⟨ready.kept.trans kept, outside, ?_, shows⟩ fits
        intro sd a2 known second
        rw [sends.scrollData] at known
        rw [sends.compared]
        exact ready.used used sd a2 known second
  · obtain ⟨ret', same, lossless⟩ := delivers options
    rw [encoded] at same
    cases same
    exact lossless_done lossless

theorem encodeAndSend_finished {env : Env C} {start s s' : WindowVideoSource C} {item : Item}
    (honest : Honest look env item) (fits : Fits start.windowDimensions item.image)
    (same : SameSize start) (going : start.isCancelled Delayed.maxSequence = false)
    (alive : start.isCancelled item.sequence = false) (awake : start.suspended = false)
    {options : Options} (ready : Ready xxh3 look start s item.image options)
    (ends : encodeAndSend xxh3 env s item options = some s') :
    Finished xxh3 look env start s' item := by
  have encoders : ∃ encoder, env.encoders item.coding = some encoder ∧
      (encoder = .picture ∨ encoder = .video) := by
    rcases honest.encoder with picture | video
    · exact ⟨_, picture, .inl rfl⟩
    · exact ⟨_, video, .inr rfl⟩
  obtain ⟨encoder, known, kind⟩ := encoders
  unfold encodeAndSend at ends
  rw [known] at ends
  dsimp only at ends
  cases encoded : encode xxh3 env s item options encoder with
  | none =>
      rw [encoded] at ends
      cases ends
  | some outcome =>
      rw [encoded] at ends
      cases encode_encoding honest fits same going ready kind encoded with
      | scrolled done =>
          cases ends
          exact done.finished fits
      | image ready =>
          rename_i after options'
          -- without data nothing is sent, and the encoders do not do that to a compared image
          have idle : (∀ ret, env.encodeImage item.coding item.image options' ≠ .ok (some ret)) →
              Finished xxh3 look env start after item := by
            intro nothing
            have unused : options'.scroll = false := by
              rw [Bool.eq_false_iff]
              intro used
              obtain ⟨ret, same, -⟩ := honest.image options' used
              exact nothing ret same
            refine ⟨ready.kept, (ready.fresh unused).2.1, fun delivers => ?_⟩
            obtain ⟨ret, same, -⟩ := delivers options'
            exact absurd same (nothing ret)
          cases returned : env.encodeImage item.coding item.image options' with
          | error e =>
              rw [returned] at ends
              cases ends
              exact idle fun ret same => by rw [returned] at same; cases same
          | ok value =>
              cases value with
              | none =>
                  rw [returned] at ends
                  cases ends
                  exact idle fun ret same => by rw [returned] at same; cases same
              | some ret =>
                  have alive' : after.isCancelled item.sequence = false := by
                    unfold WindowVideoSource.isCancelled at alive ⊢
                    rw [ready.kept.damageCancelled]
                    exact alive
                  have awake' : after.suspended = false := ready.kept.suspended.trans awake
                  have goes : ¬ (ret.coding ≠ "mmap" ∧
                      (after.isCancelled item.sequence = true ∨ after.suspended = true)) := by
                    rw [alive', awake']
                    rintro ⟨-, absurd | absurd⟩
                    · cases absurd
                    · cases absurd
                  rw [returned] at ends
                  dsimp only at ends
                  rw [if_neg goes] at ends
                  cases ends
                  refine ready.sends fits same returned (fun used => ?_) item.flush
                  obtain ⟨ret', same', lossless⟩ := honest.image options' used
                  rw [returned] at same'
                  cases same'
                  exact lossless

theorem makeDataPacketCb_finished {env : Env C} {s s' : WindowVideoSource C} {item : Item}
    (honest : Honest look env item) (fits : Fits s.windowDimensions item.image) (same : SameSize s)
    (going : s.isCancelled Delayed.maxSequence = false) (alive : s.isCancelled item.sequence = false)
    (awake : s.suspended = false) (unused : item.options.scroll = false) (sized : Sized s item.options)
    (shown : Shown xxh3 look s) (follows : Follows xxh3 s item.image)
    (ends : makeDataPacketCb xxh3 env s item = some s') : Finished xxh3 look env s s' item := by
  have ready : Ready xxh3 look s s item.image item.options := by
    refine ⟨.refl s, fun _ _ _ => rfl, sized, fun _ => ⟨rfl, shown, follows⟩, fun used => ?_⟩
    rw [unused] at used
    cases used
  unfold makeDataPacketCb at ends
  split at ends
  · split at ends
    · cases ends
    · rename_i detected
      cases mayUseScrolling_detected honest fits same ready detected
    · rename_i detected
      cases ends
      cases mayUseScrolling_detected honest fits same ready detected with
      | used done => exact done.finished fits
    · rename_i detected
      cases mayUseScrolling_detected honest fits same ready detected with
      | unused ready => exact encodeAndSend_finished honest fits same going alive awake ready ends
  · exact encodeAndSend_finished honest fits same going alive awake ready ends

end Catlink.ScrollEncode
