import Catlink.Util.Region
import Mathlib.Tactic

/-! The rectangles that are sent for a list of damaged ones: the whole window, the rectangle around
all of them, or each one by itself. -/

namespace Catlink.SendRegions

open Util Cover

/-- What `WindowVideoSource` adds. -/
structure VideoEncodings where
  videoEncodings : List String
  nonVideoEncodings : List String

structure WindowSource where
  windowDimensions : Nat × Nat
  encoding : String
  fullFramesOnly : Bool
  maxSmallRegions : Nat
  maxBytesPercent : Int
  smallPacketCost : Int
  mmap : Bool
  /-- nothing in the base class -/
  video : Option VideoEncodings
  /-- `MERGE_REGIONS` -/
  mergeRegions : Bool
  /-- `MIN_WINDOW_REGION_SIZE` -/
  minWindowRegionSize : Nat

def mustEncodeFullFrame (s : WindowSource) (encoding : String) : Bool :=
  match s.video with
  | none => s.fullFramesOnly
  | some v =>
      s.fullFramesOnly || v.nonVideoEncodings.isEmpty ||
        v.videoEncodings.contains encoding && !v.nonVideoEncodings.contains encoding

/-- The order in which the elements of a set come. -/
structure SetOrder where
  order : List Rectangle → List Rectangle
  perm : ∀ regions, (order regions).Perm regions

/-- `tuple(set(regions))` -/
def SetOrder.unique (iteration : SetOrder) (regions : List Rectangle) : List Rectangle :=
  iteration.order regions.dedup

/-- A call of `process_damage_region`. -/
structure Passed where
  region : Rectangle
  encoding : String
  flush : Nat

def WindowSource.window (s : WindowSource) : Rectangle :=
  ⟨0, 0, s.windowDimensions.1, s.windowDimensions.2, by omega⟩

def WindowSource.area (s : WindowSource) : Nat := s.windowDimensions.1 * s.windowDimensions.2

/-- `get_best_encoding` may answer otherwise at each call; the calls are counted. -/
abbrev GetEncoding := Nat → Int → Int → String

/-- Where it is called, `get_encoding` has not been called before. -/
def sendFullWindowUpdate (s : WindowSource) (getEncoding : GetEncoding) :
    Except Exn (List Passed) :=
  let ww := s.windowDimensions.1
  let wh := s.windowDimensions.2
  let encoding := getEncoding 0 ww wh
  if encoding = "" then .error (.runtimeError s!"no encoding for {ww}x{wh} full screen update")
  else .ok [⟨s.window, encoding, 0⟩]

/-- The region without the exclusion. -/
def cut (merged : Rectangle) : Option Rectangle → List Rectangle
  | some ex => merged.subtractRect ex
  | none => [merged]

/-- The regions, or the one around them, or nothing for the full window. -/
def tryMerge (s : WindowSource) (regions : List Rectangle) (excludeRegion : Option Rectangle) :
    Except Exn (Option (List Rectangle)) :=
  if s.mergeRegions = true ∧ 1 < regions.length then
    let mergeThreshold := s.area * s.maxBytesPercent / 100
    let pixelCount := totalArea regions
    let packetCost := pixelCount + s.smallPacketCost * regions.length
    if packetCost ≥ mergeThreshold ∧ excludeRegion = none then .ok none
    else do
      let merged ← mergeAll regions
      let mergedRects := cut merged excludeRegion
      let mergedPixelCount := totalArea mergedRects
      let mergedPacketCost := mergedPixelCount + s.smallPacketCost * mergedRects.length
      if s.mmap = true ∨ mergedPacketCost < packetCost ∨ mergedPixelCount < pixelCount then
        .ok (some mergedRects)
      else .ok (some regions)
  else .ok (some regions)

def chooseRegions (s : WindowSource) (iteration : SetOrder) (regions : List Rectangle)
    (excludeRegion : Option Rectangle) : Except Exn (Option (List Rectangle)) :=
  match excludeRegion with
  | none =>
      if s.fullFramesOnly = true ∨ s.encoding = "stream" then .ok none
      else if s.maxSmallRegions < regions.length then .ok none
      else if s.area ≤ s.minWindowRegionSize then .ok none
      else tryMerge s (iteration.unique regions) none
  | some ex =>
      tryMerge s (iteration.unique (regions.flatMap fun r => r.subtractRect ex)) (some ex)

/-- The encodings of the regions, or one that needs a full frame. -/
def chooseEncodings (s : WindowSource) (getEncoding : GetEncoding) :
    Nat → List Rectangle → String ⊕ List Passed
  | _, [] => .inr []
  | i, region :: regions =>
      let actualEncoding := getEncoding i region.width region.height
      if mustEncodeFullFrame s actualEncoding = true then .inl actualEncoding
      else
        match chooseEncodings s getEncoding (i + 1) regions with
        | .inl encoding => .inl encoding
        | .inr rest => .inr (⟨region, actualEncoding, i⟩ :: rest)

def queueRegions (s : WindowSource) (getEncoding : GetEncoding) (regions : List Rectangle) :
    List Passed :=
  match chooseEncodings s getEncoding 0 regions with
  | .inl actualEncoding => [⟨s.window, actualEncoding, 0⟩]
  | .inr regEnc => regEnc.reverse

/-- One region covers almost the entire window. -/
def coversAlmost (s : WindowSource) (merged : Rectangle) : Bool :=
  merged.x ≤ 1 && merged.y ≤ 1 && (s.windowDimensions.1 - merged.width).natAbs < 2 &&
    (s.windowDimensions.2 - merged.height).natAbs < 2

def doSendRegions (s : WindowSource) (iteration : SetOrder) (getEncoding : GetEncoding)
    (regions : List Rectangle) (excludeRegion : Option Rectangle) : Except Exn (List Passed) := do
  match ← chooseRegions s iteration regions excludeRegion with
  | none => sendFullWindowUpdate s getEncoding
  | some [merged] =>
      if coversAlmost s merged = true then sendFullWindowUpdate s getEncoding
      else .ok (queueRegions s getEncoding [merged])
  | some regions => .ok (queueRegions s getEncoding regions)

/-! ### Every damaged pixel -/

theorem covered_unique (iteration : SetOrder) (regions : List Rectangle) :
    covered pixels (iteration.unique regions) = covered pixels regions := by
  ext p
  rw [mem_covered, mem_covered]
  constructor
  · rintro ⟨r, member, inside⟩
    have listed := (iteration.perm regions.dedup).mem_iff.mp member
    exact ⟨r, List.mem_dedup.mp listed, inside⟩
  · rintro ⟨r, listed, inside⟩
    exact ⟨r, (iteration.perm regions.dedup).mem_iff.mpr (List.mem_dedup.mpr listed), inside⟩

/-- The chosen regions have all these pixels. -/
def Keeps (area : Finset (Int × Int)) : Except Exn (Option (List Rectangle)) → Prop
  | .ok none => True
  | .ok (some regions) => area ⊆ covered pixels regions
  | .error _ => False

/-- The pixels outside of the exclusion. -/
noncomputable def without (area : Finset (Int × Int)) (excludeRegion : Option Rectangle) :
    Finset (Int × Int) :=
  match excludeRegion with
  | none => area
  | some ex => area \ pixels ex

theorem without_subset (area : Finset (Int × Int)) (excludeRegion : Option Rectangle) :
    without area excludeRegion ⊆ area := by
  cases excludeRegion with
  | none => exact Finset.Subset.refl _
  | some ex => exact Finset.sdiff_subset

theorem covered_cut (merged : Rectangle) (excludeRegion : Option Rectangle) :
    covered pixels (cut merged excludeRegion) = without (pixels merged) excludeRegion := by
  cases excludeRegion with
  | none => exact Finset.union_empty _
  | some ex => exact covered_subtract_all merged ex

theorem without_mono {area area' : Finset (Int × Int)} (within : area ⊆ area')
    (excludeRegion : Option Rectangle) : without area excludeRegion ⊆ without area' excludeRegion := by
  cases excludeRegion with
  | none => exact within
  | some ex => exact Finset.sdiff_subset_sdiff within (Finset.Subset.refl _)

theorem tryMerge_keeps (s : WindowSource) (regions : List Rectangle)
    (excludeRegion : Option Rectangle) :
    Keeps (without (covered pixels regions) excludeRegion) (tryMerge s regions excludeRegion) := by
  have same := without_subset (covered pixels regions) excludeRegion
  unfold tryMerge
  split
  next several =>
    dsimp only
    split
    · trivial
    · have some : regions ≠ [] := by
        intro none
        rw [none] at several
        exact absurd several.2 (by decide)
      obtain ⟨merged, found, around⟩ := mergeAll_covers some
      rw [found]
      dsimp only [bind, Except.bind]
      split
      · change without _ excludeRegion ⊆ covered pixels (cut merged excludeRegion)
        rw [covered_cut]
        exact without_mono around excludeRegion
      · exact same
  · exact same

theorem chooseRegions_keeps (s : WindowSource) (iteration : SetOrder) (regions : List Rectangle)
    (excludeRegion : Option Rectangle) :
    Keeps (without (covered pixels regions) excludeRegion)
      (chooseRegions s iteration regions excludeRegion) := by
  unfold chooseRegions
  cases excludeRegion with
  | none =>
      dsimp only
      split
      · trivial
      split
      · trivial
      split
      · trivial
      · have kept := tryMerge_keeps s (iteration.unique regions) none
        rw [covered_unique] at kept
        exact kept
  | some ex =>
      have kept := tryMerge_keeps s (iteration.unique (regions.flatMap fun r => r.subtractRect ex))
        (some ex)
      have pieces : covered pixels (regions.flatMap fun r => r.subtractRect ex) =
          covered pixels regions \ pixels ex :=
        covered_flatMap fun r _ => covered_subtract_all r ex
      have twice : without (covered pixels regions \ pixels ex) (some ex) =
          without (covered pixels regions) (some ex) := sdiff_idem
      rw [covered_unique, pieces, twice] at kept
      exact kept

theorem chooseEncodings_regions (s : WindowSource) (getEncoding : GetEncoding) (i : Nat)
    (regions : List Rectangle) (passed : List Passed)
    (chosen : chooseEncodings s getEncoding i regions = .inr passed) :
    passed.map Passed.region = regions := by
  induction regions generalizing i passed with
  | nil =>
      cases chosen
      rfl
  | cons region regions ih =>
      rw [chooseEncodings] at chosen
      split at chosen
      · cases chosen
      cases later : chooseEncodings s getEncoding (i + 1) regions with
      | inl encoding =>
          rw [later] at chosen
          cases chosen
      | inr rest =>
          rw [later] at chosen
          cases chosen
          rw [List.map_cons, ih (i + 1) rest later]

theorem covered_passed {passed : List Passed} {p : Int × Int} :
    p ∈ covered (fun x : Passed => pixels x.region) passed ↔
      p ∈ covered pixels (passed.map Passed.region) := by
  rw [mem_covered, mem_covered]
  simp

/-- The regions are queued one by one, or the whole window is. -/
theorem queueRegions_covers (s : WindowSource) (getEncoding : GetEncoding) (regions : List Rectangle)
    (area : Finset (Int × Int)) (inside : area ⊆ pixels s.window)
    (kept : area ⊆ covered pixels regions) :
    area ⊆ covered (fun x : Passed => pixels x.region) (queueRegions s getEncoding regions) := by
  intro p member
  unfold queueRegions
  split
  · rw [covered_cons]
    exact Finset.mem_union_left _ (inside member)
  next passed chosen =>
    rw [covered_passed, List.map_reverse, chooseEncodings_regions s getEncoding 0 regions passed chosen]
    obtain ⟨r, listed, inR⟩ := mem_covered.mp (kept member)
    exact mem_covered.mpr ⟨r, List.mem_reverse.mpr listed, inR⟩

/-- The calls cover the area, or there is no encoding for the full window. -/
def Covers (s : WindowSource) (getEncoding : GetEncoding) (area : Finset (Int × Int)) :
    Except Exn (List Passed) → Prop
  | .ok passed => area ⊆ covered (fun x : Passed => pixels x.region) passed
  | .error _ => getEncoding 0 s.windowDimensions.1 s.windowDimensions.2 = ""

theorem sendFullWindowUpdate_covers (s : WindowSource) (getEncoding : GetEncoding)
    {area : Finset (Int × Int)} (inside : area ⊆ pixels s.window) :
    Covers s getEncoding area (sendFullWindowUpdate s getEncoding) := by
  unfold sendFullWindowUpdate
  dsimp only
  split
  next none => exact none
  · change area ⊆ covered (fun x : Passed => pixels x.region) _
    rw [covered_cons, covered_nil, Finset.union_empty]
    exact inside

/-- Every damaged pixel outside of the exclusion is in one of the rectangles that are passed on. -/
theorem do_send_regions_covers (s : WindowSource) (iteration : SetOrder) (getEncoding : GetEncoding)
    (regions : List Rectangle) (excludeRegion : Option Rectangle)
    (inside : ∀ r ∈ regions, s.window.containsRect r = true) :
    Covers s getEncoding (without (covered pixels regions) excludeRegion)
      (doSendRegions s iteration getEncoding regions excludeRegion) := by
  have kept := chooseRegions_keeps s iteration regions excludeRegion
  have within : without (covered pixels regions) excludeRegion ⊆ pixels s.window := by
    intro p member
    have listed := without_subset _ excludeRegion member
    obtain ⟨r, there, inR⟩ := mem_covered.mp listed
    exact containsRect_pixels (inside r there) inR
  unfold doSendRegions
  cases chosen : chooseRegions s iteration regions excludeRegion with
  | error e =>
      rw [chosen] at kept
      exact kept.elim
  | ok choice =>
      rw [chosen] at kept
      dsimp only [bind, Except.bind]
      split
      · exact sendFullWindowUpdate_covers s getEncoding within
      next merged =>
        split
        · exact sendFullWindowUpdate_covers s getEncoding within
        · exact queueRegions_covers s getEncoding [merged] _ within kept
      next chosenRegions _ => exact queueRegions_covers s getEncoding chosenRegions _ within kept

def desktop : WindowSource where
  windowDimensions := (1000, 1000)
  encoding := "auto"
  fullFramesOnly := false
  maxSmallRegions := 40
  maxBytesPercent := 60
  smallPacketCost := 1024
  mmap := false
  video := none
  mergeRegions := true
  minWindowRegionSize := 1024

def inOrder : SetOrder := ⟨id, fun regions => List.Perm.refl regions⟩

theorem hundred_valid : (0 : Int) ≤ 100 ∧ (0 : Int) ≤ 100 := by decide

/-- Two regions far from each other. -/
def farApart : List Rectangle := [⟨0, 0, 100, 100, hundred_valid⟩, ⟨800, 0, 100, 100, hundred_valid⟩]

def videoArea : Rectangle := ⟨50, 0, 400, 400, by decide⟩

theorem farApart_inside : ∀ r ∈ farApart, desktop.window.containsRect r = true := by decide

theorem do_send_regions_covers_two :
    Covers desktop (fun _ _ _ => "jpeg") (without (covered pixels farApart) (some videoArea))
      (doSendRegions desktop inOrder (fun _ _ _ => "jpeg") farApart (some videoArea)) :=
  do_send_regions_covers desktop inOrder (fun _ _ _ => "jpeg") farApart (some videoArea)
    farApart_inside

end Catlink.SendRegions
