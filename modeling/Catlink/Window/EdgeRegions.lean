import Catlink.Util.Rectangle

/-! One damaged region of a window that may use video: the edges that the video encoder cannot take
are cut off and encoded by themselves. -/

namespace Catlink.EdgeRegions

open Util Cover

inductive PlanarFormat
  | packed
  | planar2
  | planar3
  | planar4
  | invalid
  deriving DecidableEq

structure ImageWrapper where
  x : Int
  y : Int
  targetX : Int
  targetY : Int
  width : Nat
  height : Nat
  pixels : Bytes
  pixelFormat : String
  depth : Nat
  rowstride : Nat
  bytesperpixel : Nat
  planes : PlanarFormat
  threadSafe : Bool
  palette : Option (List (Nat × Nat × Nat))
  fullRange : Bool

namespace ImageWrapper

/-- The row of pixels at `pos`, as `pixels[pos:pos + newstride]` has it. -/
def line (self : ImageWrapper) (pos newstride : Nat) : Bytes := (self.pixels.drop pos).take newstride

/-- `h` lines, with `oldstride` between them. -/
def lines (self : ImageWrapper) (newstride : Nat) : Nat → Nat → List Bytes
  | _, 0 => []
  | pos, h + 1 => self.line pos newstride :: self.lines newstride (pos + self.rowstride) h

def getSubImage (self : ImageWrapper) (x y w h : Nat) : Except Exn ImageWrapper :=
  if w ≤ 0 ∨ h ≤ 0 then .error (.valueError s!"invalid sub-image size: {w}x{h}")
  else if self.width < x + w then
    .error (.valueError s!"invalid sub-image width: {x}+{w} greater than image width {self.width}")
  else if self.height < y + h then
    .error (.valueError s!"invalid sub-image height: {y}+{h} greater than image height {self.height}")
  else if self.planes ≠ .packed then .error (.other "cannot sub-divide a planar image!")
  else if x = 0 ∧ y = 0 ∧ w = self.width ∧ h = self.height then .ok self
  else
    let pos := y * self.rowstride + x * self.bytesperpixel
    let newstride := w * self.bytesperpixel
    .ok {
      x := self.x + x
      y := self.y + y
      targetX := self.targetX + x
      targetY := self.targetY + y
      width := w
      height := h
      pixels := (self.lines newstride pos h).flatten
      pixelFormat := self.pixelFormat
      depth := self.depth
      rowstride := newstride
      -- the default of the constructor, whatever the image has
      bytesperpixel := 4
      planes := self.planes
      threadSafe := true
      palette := self.palette
      fullRange := self.fullRange }

/-- Where the first `w` columns and `h` rows of the image are painted. -/
def corner (self : ImageWrapper) (w h : Nat) : Rectangle :=
  ⟨self.targetX, self.targetY, w, h, by omega⟩

def target (self : ImageWrapper) : Rectangle := self.corner self.width self.height

end ImageWrapper

structure WindowVideoSource where
  sequence : Nat
  damageCancelled : Nat
  commonVideoEncodings : List String
  edgeEncoding : String
  widthMask : Nat
  heightMask : Nat

namespace WindowVideoSource

def isCancelled (s : WindowVideoSource) : Bool := s.sequence ≤ s.damageCancelled

/-- `window` is the answer of `window.get_image`, after the checks of the geometry. -/
def getDamageImage (s : WindowVideoSource) (window : Option ImageWrapper) :
    Option ImageWrapper × WindowVideoSource :=
  let s := { s with sequence := s.sequence + 1 }
  if s.isCancelled = true then (none, s)
  else
    match window with
    | none => (none, s)
    | some image => if image.width = 0 ∨ image.height = 0 then (none, s) else (some image, s)

def videoMode (s : WindowVideoSource) (coding : String) : Bool :=
  s.commonVideoEncodings.contains coding ||
    (coding = "auto" || coding = "stream") && !s.commonVideoEncodings.isEmpty

def maskedWidth (s : WindowVideoSource) (image : ImageWrapper) : Nat := image.width &&& s.widthMask

def maskedHeight (s : WindowVideoSource) (image : ImageWrapper) : Nat :=
  image.height &&& s.heightMask

end WindowVideoSource

inductive Part
  | right
  | bottom
  | main
  deriving DecidableEq

/-- An entry of `regions`: the size is for the statistics only. -/
structure Region where
  width : Nat
  height : Nat
  image : ImageWrapper
  coding : String
  part : Part

/-- The arguments of `call_encode`. -/
structure Encode where
  region : Region
  flush : Nat

def rightStrip (s : WindowVideoSource) (image : ImageWrapper) : Except Exn (List Region) := do
  let w := s.maskedWidth image
  let h := s.maskedHeight image
  let dw := image.width - w
  if 0 < dw ∧ 0 < h then
    let sub ← image.getSubImage w 0 dw image.height
    return [⟨dw, h, sub, s.edgeEncoding, .right⟩]
  else return []

def bottomStrip (s : WindowVideoSource) (image : ImageWrapper) : Except Exn (List Region) := do
  let w := s.maskedWidth image
  let h := s.maskedHeight image
  let dw := image.width - w
  let dh := image.height - h
  if 0 < dh ∧ 0 < w then
    let sub ← image.getSubImage 0 h image.width dh
    return [⟨dw, h, sub, s.edgeEncoding, .bottom⟩]
  else return []

def mainArea (s : WindowVideoSource) (image : ImageWrapper) (coding : String) : List Region :=
  let w := s.maskedWidth image
  let h := s.maskedHeight image
  if 0 < w ∧ 0 < h then [⟨w, h, image, coding, .main⟩] else []

def splitEdges (s : WindowVideoSource) (image : ImageWrapper) (coding : String) :
    Except Exn (List Region) :=
  if s.videoMode coding = true ∧ s.edgeEncoding ≠ "" then do
    let right ← rightStrip s image
    let bottom ← bottomStrip s image
    return right ++ bottom ++ mainArea s image coding
  else return mainArea s image coding

/-- Each region with its flush counter. -/
def callEncodes (flush : Nat) : List Region → List Encode
  | [] => []
  | region :: regions => ⟨region, flush⟩ :: callEncodes (flush - 1) regions

/-- The result, and what is handed over for encoding. -/
def processDamageRegion (s : WindowVideoSource) (window : Option ImageWrapper) (coding : String)
    (flush : Nat) : Except Exn (Bool × List Encode) :=
  if coding = "" then .error (.runtimeError "no encoding specified")
  else
    let (obtained, s) := s.getDamageImage window
    match obtained with
    | none => .ok (false, [])
    | some image => do
        let regions ← splitEdges s image coding
        -- the sequence has been checked for this image
        if s.isCancelled = true then .ok (true, [])
        else .ok (true, callEncodes (max (regions.length - 1) flush) regions)

/-- A video encoder takes the masked part of the main image only. Anything else is for a picture
encoder, but for `grayscale`, which is not a video mode and is encoded as video. -/
def encodesMasked (s : WindowVideoSource) (coding : String) : Bool :=
  s.videoMode coding || coding = "grayscale" && !s.commonVideoEncodings.isEmpty

def encodedArea (s : WindowVideoSource) (region : Region) : Rectangle :=
  let image := region.image
  if region.part = .main ∧ encodesMasked s region.coding = true then
    image.corner (s.maskedWidth image) (s.maskedHeight image)
  else image.target

/-! ### The part of an image -/

theorem getSubImage_cases (self : ImageWrapper) (x y w h : Nat) :
    (∃ sub, self.getSubImage x y w h = .ok sub ∧ self.planes = .packed ∧
      sub.target = ⟨self.targetX + x, self.targetY + y, w, h, by omega⟩) ∨
    (∃ e, self.getSubImage x y w h = .error e) ∧
      (self.planes = .packed → 0 < w → 0 < h → x + w ≤ self.width → self.height < y + h) := by
  unfold ImageWrapper.getSubImage
  split
  · right
    exact ⟨⟨_, rfl⟩, by omega⟩
  split
  · right
    exact ⟨⟨_, rfl⟩, by omega⟩
  split
  next high =>
    right
    exact ⟨⟨_, rfl⟩, fun _ _ _ _ => high⟩
  split
  next planar =>
    right
    exact ⟨⟨_, rfl⟩, fun packed => absurd packed planar⟩
  next packed =>
    left
    have packed := not_ne_iff.mp packed
    split
    next whole =>
      obtain ⟨rfl, rfl, rfl, rfl⟩ := whole
      refine ⟨self, rfl, packed, ?_⟩
      simp [ImageWrapper.target, ImageWrapper.corner]
    · exact ⟨_, rfl, packed, rfl⟩

theorem mem_corner {image : ImageWrapper} {w h : Nat} {p : Int × Int} :
    p ∈ pixels (image.corner w h) ↔ image.targetX ≤ p.1 ∧ p.1 < image.targetX + w ∧
      image.targetY ≤ p.2 ∧ p.2 < image.targetY + h :=
  mem_pixels

theorem encodedArea_edge (s : WindowVideoSource) {region : Region} (edge : region.part ≠ .main) :
    encodedArea s region = region.image.target :=
  if_neg fun masked => edge masked.1

theorem maskedWidth_le (s : WindowVideoSource) (image : ImageWrapper) :
    s.maskedWidth image ≤ image.width :=
  Nat.and_le_left

theorem maskedHeight_le (s : WindowVideoSource) (image : ImageWrapper) :
    s.maskedHeight image ≤ image.height :=
  Nat.and_le_left

/-! ### Each of the three parts -/

theorem rightStrip_covers (s : WindowVideoSource) (image : ImageWrapper)
    (high : 0 < s.maskedHeight image)
    (whole : image.planes ≠ .packed → s.maskedWidth image = image.width) :
    ∃ right, rightStrip s image = .ok right ∧
      ∀ p ∈ pixels image.target, image.targetX + s.maskedWidth image ≤ p.1 →
        p ∈ covered (fun r => pixels (encodedArea s r)) right := by
  have narrow := maskedWidth_le s image
  have low := maskedHeight_le s image
  unfold rightStrip
  dsimp only
  split
  · rcases getSubImage_cases image (s.maskedWidth image) 0 (image.width - s.maskedWidth image)
      image.height with ⟨sub, found, packed, there⟩ | ⟨-, wrong⟩
    · rw [found]
      refine ⟨_, rfl, ?_⟩
      intro p inside beyond
      have edge : Part.right ≠ Part.main := by decide
      rw [covered_cons, covered_nil, Finset.union_empty, encodedArea_edge s edge, there, mem_pixels]
      have bounds := mem_corner.mp inside
      dsimp only
      omega
    · have packed : image.planes = .packed := by
        by_contra planar
        have same := whole planar
        omega
      have outside := wrong packed (by omega) (by omega) (by omega)
      omega
  · refine ⟨[], rfl, ?_⟩
    intro p inside beyond
    have bounds := mem_corner.mp inside
    omega

theorem bottomStrip_covers (s : WindowVideoSource) (image : ImageWrapper)
    (wide : 0 < s.maskedWidth image)
    (whole : image.planes ≠ .packed → s.maskedHeight image = image.height) :
    ∃ bottom, bottomStrip s image = .ok bottom ∧
      ∀ p ∈ pixels image.target, image.targetY + s.maskedHeight image ≤ p.2 →
        p ∈ covered (fun r => pixels (encodedArea s r)) bottom := by
  have narrow := maskedWidth_le s image
  have low := maskedHeight_le s image
  unfold bottomStrip
  dsimp only
  split
  · rcases getSubImage_cases image 0 (s.maskedHeight image) image.width
      (image.height - s.maskedHeight image) with ⟨sub, found, packed, there⟩ | ⟨-, wrong⟩
    · rw [found]
      refine ⟨_, rfl, ?_⟩
      intro p inside beyond
      have edge : Part.bottom ≠ Part.main := by decide
      rw [covered_cons, covered_nil, Finset.union_empty, encodedArea_edge s edge, there, mem_pixels]
      have bounds := mem_corner.mp inside
      dsimp only
      omega
    · have packed : image.planes = .packed := by
        by_contra planar
        have same := whole planar
        omega
      have outside := wrong packed (by omega) (by omega) (by omega)
      omega
  · refine ⟨[], rfl, ?_⟩
    intro p inside beyond
    have bounds := mem_corner.mp inside
    omega

/-- A planar image has no strips. -/
theorem rightStrip_planar {s : WindowVideoSource} {image : ImageWrapper} {right : List Region}
    (found : rightStrip s image = .ok right) (planar : image.planes ≠ .packed)
    (high : 0 < s.maskedHeight image) : s.maskedWidth image = image.width := by
  have narrow := maskedWidth_le s image
  unfold rightStrip at found
  dsimp only at found
  split at found
  · rcases getSubImage_cases image (s.maskedWidth image) 0 (image.width - s.maskedWidth image)
      image.height with ⟨sub, -, packed, -⟩ | ⟨⟨e, wrong⟩, -⟩
    · exact absurd packed planar
    · rw [wrong] at found
      cases found
  · omega

theorem bottomStrip_planar {s : WindowVideoSource} {image : ImageWrapper} {bottom : List Region}
    (found : bottomStrip s image = .ok bottom) (planar : image.planes ≠ .packed)
    (wide : 0 < s.maskedWidth image) : s.maskedHeight image = image.height := by
  have low := maskedHeight_le s image
  unfold bottomStrip at found
  dsimp only at found
  split at found
  · rcases getSubImage_cases image 0 (s.maskedHeight image) image.width
      (image.height - s.maskedHeight image) with ⟨sub, -, packed, -⟩ | ⟨⟨e, wrong⟩, -⟩
    · exact absurd packed planar
    · rw [wrong] at found
      cases found
  · omega

theorem rightStrip_empty {s : WindowVideoSource} {image : ImageWrapper}
    (flat : s.maskedHeight image = 0) : rightStrip s image = .ok [] :=
  if_neg fun strip => by omega

theorem bottomStrip_empty {s : WindowVideoSource} {image : ImageWrapper}
    (thin : s.maskedWidth image = 0) : bottomStrip s image = .ok [] :=
  if_neg fun strip => by omega

theorem mainArea_some {s : WindowVideoSource} {image : ImageWrapper} (coding : String)
    (wide : 0 < s.maskedWidth image) (high : 0 < s.maskedHeight image) :
    mainArea s image coding =
      [⟨s.maskedWidth image, s.maskedHeight image, image, coding, .main⟩] :=
  if_pos ⟨wide, high⟩

theorem mainArea_empty {s : WindowVideoSource} {image : ImageWrapper} (coding : String)
    (nothing : s.maskedWidth image = 0 ∨ s.maskedHeight image = 0) :
    mainArea s image coding = [] :=
  if_neg fun filled => by omega

theorem target_pixel {image : ImageWrapper} {i j : Nat} (column : i < image.width) (row : j < image.height) :
    (image.targetX + i, image.targetY + j) ∈ pixels image.target := by
  rw [ImageWrapper.target, mem_corner]
  dsimp only
  omega

/-! ### The parts together -/

def Whole (s : WindowVideoSource) (image : ImageWrapper) (regions : List Region) : Prop :=
  pixels image.target ⊆ covered (fun r => pixels (encodedArea s r)) regions

theorem not_whole_nil {s : WindowVideoSource} {image : ImageWrapper} (wide : 0 < image.width)
    (high : 0 < image.height) : ¬ Whole s image [] := by
  intro whole
  have corner := whole (target_pixel wide high)
  rw [covered_nil] at corner
  exact absurd corner (Finset.notMem_empty _)

/-- When the update loses no pixel. -/
def Reached (s : WindowVideoSource) (image : ImageWrapper) (coding : String) : Prop :=
  if s.videoMode coding = true then
    (0 < s.maskedWidth image ∨ 0 < s.maskedHeight image) ∧
      (image.planes ≠ .packed →
        s.maskedWidth image = image.width ∧ s.maskedHeight image = image.height)
  else
    0 < s.maskedWidth image ∧ 0 < s.maskedHeight image ∧
      (encodesMasked s coding = true →
        s.maskedWidth image = image.width ∧ s.maskedHeight image = image.height)

/-- With both strips there: what is not in them is in the main area. -/
theorem strips_whole {s : WindowVideoSource} {image : ImageWrapper} (coding : String)
    {right bottom : List Region} (filled : 0 < s.maskedWidth image ∨ 0 < s.maskedHeight image)
    (onRight : 0 < s.maskedHeight image → ∀ p ∈ pixels image.target,
      image.targetX + s.maskedWidth image ≤ p.1 →
        p ∈ covered (fun r => pixels (encodedArea s r)) right)
    (below : 0 < s.maskedWidth image → ∀ p ∈ pixels image.target,
      image.targetY + s.maskedHeight image ≤ p.2 →
        p ∈ covered (fun r => pixels (encodedArea s r)) bottom) :
    Whole s image (right ++ bottom ++ mainArea s image coding) := by
  intro p inside
  have bounds := mem_corner.mp inside
  rw [covered_append, covered_append, Finset.mem_union, Finset.mem_union]
  by_cases beyond : 0 < s.maskedHeight image ∧ image.targetX + s.maskedWidth image ≤ p.1
  · exact .inl (.inl (onRight beyond.1 p inside beyond.2))
  by_cases under : 0 < s.maskedWidth image ∧ image.targetY + s.maskedHeight image ≤ p.2
  · exact .inl (.inr (below under.1 p inside under.2))
  · right
    have wide : 0 < s.maskedWidth image := by omega
    have high : 0 < s.maskedHeight image := by omega
    rw [mainArea_some coding wide high, covered_cons, covered_nil, Finset.union_empty]
    unfold encodedArea
    dsimp only
    split
    · rw [mem_corner]
      omega
    · exact inside

theorem video_split (s : WindowVideoSource) (image : ImageWrapper) (coding : String)
    (wide : 0 < image.width) (high : 0 < image.height) (video : s.videoMode coding = true)
    (edges : s.edgeEncoding ≠ "") :
    (∃ regions, splitEdges s image coding = .ok regions ∧ Whole s image regions) ↔
      (0 < s.maskedWidth image ∨ 0 < s.maskedHeight image) ∧
        (image.planes ≠ .packed →
          s.maskedWidth image = image.width ∧ s.maskedHeight image = image.height) := by
  have narrow := maskedWidth_le s image
  have low := maskedHeight_le s image
  unfold splitEdges
  rw [if_pos ⟨video, edges⟩]
  constructor
  · rintro ⟨regions, found, whole⟩
    obtain ⟨right, rightFound, found⟩ := ok_of_bind found
    obtain ⟨bottom, bottomFound, found⟩ := ok_of_bind found
    cases found
    have filled : 0 < s.maskedWidth image ∨ 0 < s.maskedHeight image := by
      by_contra nothing
      rw [rightStrip_empty (by omega)] at rightFound
      rw [bottomStrip_empty (by omega)] at bottomFound
      cases rightFound
      cases bottomFound
      rw [mainArea_empty coding (by omega)] at whole
      exact not_whole_nil wide high whole
    refine ⟨filled, ?_⟩
    intro planar
    have sameWidth := rightStrip_planar rightFound planar
    have sameHeight := bottomStrip_planar bottomFound planar
    omega
  · rintro ⟨filled, planar⟩
    have rightFound : ∃ right, rightStrip s image = .ok right ∧
        (0 < s.maskedHeight image → ∀ p ∈ pixels image.target,
          image.targetX + s.maskedWidth image ≤ p.1 →
            p ∈ covered (fun r => pixels (encodedArea s r)) right) := by
      rcases Nat.eq_zero_or_pos (s.maskedHeight image) with flat | tall
      · exact ⟨[], rightStrip_empty flat, fun tall => by omega⟩
      · obtain ⟨right, found, covers⟩ := rightStrip_covers s image tall fun h => (planar h).1
        exact ⟨right, found, fun _ => covers⟩
    have bottomFound : ∃ bottom, bottomStrip s image = .ok bottom ∧
        (0 < s.maskedWidth image → ∀ p ∈ pixels image.target,
          image.targetY + s.maskedHeight image ≤ p.2 →
            p ∈ covered (fun r => pixels (encodedArea s r)) bottom) := by
      rcases Nat.eq_zero_or_pos (s.maskedWidth image) with thin | broad
      · exact ⟨[], bottomStrip_empty thin, fun broad => by omega⟩
      · obtain ⟨bottom, found, covers⟩ := bottomStrip_covers s image broad fun h => (planar h).2
        exact ⟨bottom, found, fun _ => covers⟩
    obtain ⟨right, rightFound, onRight⟩ := rightFound
    obtain ⟨bottom, bottomFound, below⟩ := bottomFound
    rw [rightFound, bottomFound]
    exact ⟨_, rfl, strips_whole coding filled onRight below⟩

theorem picture_split (s : WindowVideoSource) (image : ImageWrapper) (coding : String)
    (wide : 0 < image.width) (high : 0 < image.height) (picture : s.videoMode coding = false) :
    (∃ regions, splitEdges s image coding = .ok regions ∧ Whole s image regions) ↔
      0 < s.maskedWidth image ∧ 0 < s.maskedHeight image ∧
        (encodesMasked s coding = true →
          s.maskedWidth image = image.width ∧ s.maskedHeight image = image.height) := by
  have narrow := maskedWidth_le s image
  have low := maskedHeight_le s image
  unfold splitEdges
  rw [picture, if_neg fun both => absurd both.1 Bool.false_ne_true]
  constructor
  · rintro ⟨regions, found, whole⟩
    cases found
    have filled : 0 < s.maskedWidth image ∧ 0 < s.maskedHeight image := by
      by_contra nothing
      rw [mainArea_empty coding (by omega)] at whole
      exact not_whole_nil wide high whole
    refine ⟨filled.1, filled.2, ?_⟩
    intro masked
    -- the last pixel of the image is in the part that is encoded
    have last := whole (target_pixel (Nat.sub_lt wide Nat.one_pos) (Nat.sub_lt high Nat.one_pos))
    rw [mainArea_some coding filled.1 filled.2, covered_cons, covered_nil, Finset.union_empty] at last
    unfold encodedArea at last
    rw [if_pos ⟨rfl, masked⟩, mem_corner] at last
    dsimp only at last
    omega
  · rintro ⟨broad, tall, same⟩
    refine ⟨_, rfl, ?_⟩
    intro p inside
    rw [mainArea_some coding broad tall, covered_cons, covered_nil, Finset.union_empty]
    unfold encodedArea
    dsimp only
    split
    next masked =>
      rw [(same masked.2).1, (same masked.2).2]
      exact inside
    · exact inside

/-! ### What is handed over -/

theorem callEncodes_region (flush : Nat) (regions : List Region) :
    (callEncodes flush regions).map Encode.region = regions := by
  induction regions generalizing flush with
  | nil => rfl
  | cons region regions ih => rw [callEncodes, List.map_cons, ih]

theorem callEncodes_length (flush : Nat) (regions : List Region) :
    (callEncodes flush regions).length = regions.length := by
  rw [← List.length_map Encode.region, callEncodes_region]

/-- `n - 1` down to zero. -/
def countdown : Nat → List Nat
  | 0 => []
  | n + 1 => n :: countdown n

theorem callEncodes_flush (regions : List Region) :
    (callEncodes (regions.length - 1) regions).map Encode.flush = countdown regions.length := by
  induction regions with
  | nil => rfl
  | cons region regions ih =>
      rw [callEncodes, List.map_cons, List.length_cons, countdown]
      dsimp only
      rw [Nat.add_sub_cancel, ih]

theorem getDamageImage_obtained {s s' : WindowVideoSource} {window : Option ImageWrapper}
    {image : ImageWrapper} (obtained : s.getDamageImage window = (some image, s')) :
    s' = { s with sequence := s.sequence + 1 } ∧ s'.isCancelled = false ∧
      0 < image.width ∧ 0 < image.height := by
  unfold WindowVideoSource.getDamageImage at obtained
  dsimp only at obtained
  split at obtained
  · cases obtained
  next current =>
    have current := Bool.not_eq_true _ ▸ current
    split at obtained
    · cases obtained
    · split at obtained
      · cases obtained
      next filled =>
        cases obtained
        exact ⟨rfl, current, by omega, by omega⟩

/-- The images handed over cover the grabbed one, and their flush counters end with zero. -/
def Complete (s : WindowVideoSource) (image : ImageWrapper) :
    Except Exn (Bool × List Encode) → Prop
  | .error _ => False
  | .ok (result, handed) => result = true ∧
      pixels image.target ⊆ covered (fun e => pixels (encodedArea s e.region)) handed ∧
      handed.map Encode.flush = countdown handed.length

theorem covered_regions (s : WindowVideoSource) (handed : List Encode) :
    covered (fun e => pixels (encodedArea s e.region)) handed =
      covered (fun r => pixels (encodedArea s r)) (handed.map Encode.region) := by
  ext p
  rw [mem_covered, mem_covered]
  simp

theorem edges_covered_iff (s s' : WindowVideoSource) (window : Option ImageWrapper)
    (image : ImageWrapper) (coding : String) (requested : coding ≠ "")
    (edges : s.videoMode coding = true → s.edgeEncoding ≠ "")
    (obtained : s.getDamageImage window = (some image, s')) :
    Complete s image (processDamageRegion s window coding 0) ↔ Reached s image coding := by
  obtain ⟨rfl, current, wide, high⟩ := getDamageImage_obtained obtained
  have split : (∃ regions, splitEdges s image coding = .ok regions ∧ Whole s image regions) ↔
      Reached s image coding := by
    unfold Reached
    split
    next video => exact video_split s image coding wide high video (edges video)
    next picture =>
      exact picture_split s image coding wide high (Bool.eq_false_of_not_eq_true picture)
  rw [← split]
  unfold processDamageRegion
  rw [if_neg requested, obtained]
  dsimp only
  -- the sequence number is nothing to the split
  change Complete s image (splitEdges s image coding >>= _) ↔ _
  cases found : splitEdges s image coding with
  | error e =>
      constructor
      · exact False.elim
      · rintro ⟨regions, ok, -⟩
        cases ok
  | ok regions =>
      change Complete s image (if _ then _ else _) ↔ _
      rw [current, if_neg (by decide), Nat.max_zero]
      unfold Complete
      dsimp only
      rw [covered_regions, callEncodes_region, callEncodes_flush, callEncodes_length]
      constructor
      · rintro ⟨-, whole, -⟩
        exact ⟨regions, rfl, whole⟩
      · rintro ⟨same, ok, whole⟩
        cases ok
        exact ⟨rfl, whole, rfl⟩

/-- A source whose pipeline needs even dimensions. -/
def evenSource : WindowVideoSource where
  sequence := 7
  damageCancelled := 0
  commonVideoEncodings := ["h264"]
  edgeEncoding := "png"
  widthMask := 0xFFFE
  heightMask := 0xFFFE

def grabbed (width height : Nat) : ImageWrapper where
  x := 10
  y := 20
  targetX := 10
  targetY := 20
  width := width
  height := height
  pixels := []
  pixelFormat := "BGRX"
  depth := 24
  rowstride := 4 * width
  bytesperpixel := 4
  planes := .packed
  threadSafe := false
  palette := none
  fullRange := true

theorem edges_covered_iff_odd :
    Complete evenSource (grabbed 5 3)
        (processDamageRegion evenSource (some (grabbed 5 3)) "h264" 0) ↔
      Reached evenSource (grabbed 5 3) "h264" :=
  edges_covered_iff evenSource _ (some (grabbed 5 3)) (grabbed 5 3) "h264" (by decide)
    (fun _ => by decide) rfl

/-- A column of pixels as a picture: nothing is handed over. -/
theorem not_edges_covered :
    (evenSource.getDamageImage (some (grabbed 1 100))).1 = some (grabbed 1 100) ∧
      evenSource.videoMode "png" = false ∧ encodesMasked evenSource "png" = false ∧
      processDamageRegion evenSource (some (grabbed 1 100)) "png" 0 = .ok (true, []) ∧
      ¬ Complete evenSource (grabbed 1 100)
        (processDamageRegion evenSource (some (grabbed 1 100)) "png" 0) := by
  have nothing : processDamageRegion evenSource (some (grabbed 1 100)) "png" 0 = .ok (true, []) := rfl
  refine ⟨rfl, by decide, by decide, nothing, ?_⟩
  rw [nothing]
  rintro ⟨-, whole, -⟩
  exact not_whole_nil (s := evenSource) (by decide) (by decide) whole

end Catlink.EdgeRegions
