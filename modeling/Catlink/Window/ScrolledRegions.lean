import Catlink.Lib.Growing
import Catlink.Window.RefreshDebt

/-! Scroll packets: the areas that wait for a refresh move with the pixels. -/

namespace Catlink.Refresh

open Util Cover Growing

/-! ### The override of `do_schedule_auto_refresh` -/

/-- An area, and how far its pixels have moved. -/
structure Scroll where
  x : Int
  y : Int
  w : Int
  h : Int
  dx : Int
  dy : Int
  valid : 0 ≤ w ∧ 0 ≤ h

def Scroll.srcRect (scroll : Scroll) : Rectangle := ⟨scroll.x, scroll.y, scroll.w, scroll.h, scroll.valid⟩

def Scroll.dstRect (scroll : Scroll) (inter : Rectangle) : Rectangle :=
  ⟨inter.x + scroll.dx, inter.y + scroll.dy, inter.width, inter.height, inter.valid⟩

/-- The pixels that `add_refresh_region` has added to the list of the window. -/
def addedPixels (s : WindowVideoSource) (region : Rectangle) : Int :=
  match s.videoSubregion.rectangle with
  | none => (addTo s.refreshRegions region).1
  | some vr =>
      if vr.containsRect region = true then 0
      else
        match vr.intersectionRect region with
        | none => (addTo s.refreshRegions region).1
        | some _ =>
            ((region.subtractRect vr).foldl (fun (total, regions) r =>
              let (added, regions) := addTo regions r
              (total + added, regions)) ((0 : Int), s.refreshRegions)).1

/-- What is pending of the source area is added where it has moved to. -/
def shift (scroll : Scroll) (run : Int × WindowVideoSource) (rect : Rectangle) :
    Int × WindowVideoSource :=
  match scroll.srcRect.intersectionRect rect with
  | none => run
  | some inter =>
      let dstRect := scroll.dstRect inter
      (run.1 + addedPixels run.2 dstRect, addRefreshRegion run.2 dstRect)

/-- `for rect in self.refresh_regions`, a list that `add_refresh_region` appends to -/
def scrollOne (fuel : Nat) (run : Int × WindowVideoSource) (scroll : Scroll) :
    Option (Int × WindowVideoSource) :=
  forEach (fun run => run.2.refreshRegions) (shift scroll) fuel 0 run

def scrollAll (fuel : Nat) (run : Int × WindowVideoSource) (scrollData : List Scroll) :
    Option (Int × WindowVideoSource) :=
  scrollData.foldlM (scrollOne fuel) run

/-- With too many rectangles, one for all of them. -/
def simplify (run : Int × WindowVideoSource) : WindowVideoSource :=
  if run.1 ≠ 0 ∧ 200 ≤ run.2.refreshRegions.length then
    match mergeAll run.2.refreshRegions with
    | .ok merged => { run.2 with refreshRegions := [merged] }
    | .error _ => run.2
  else run.2

/-- No pending refresh intersects the area of the packet. -/
def skips (s : WindowVideoSource) (region : Rectangle) : Bool :=
  s.refreshRegions.isEmpty || !s.refreshRegions.any region.intersectsRect

/-- The list that is walked grows, so there is a bound on the turns. -/
def scheduleAutoRefresh (fuel : Nat) (s : WindowVideoSource) (update : Update)
    (scrollData : List Scroll) (now : Nat) : Option WindowVideoSource :=
  if scrollData = [] then some (doScheduleAutoRefresh s update now)
  else if skips s update.region = true then some s
  else (scrollAll fuel (0, s) scrollData).map simplify

/-! ### A rectangle more -/

/-- A list that was appended to, by no more rectangles than there are pixels more. -/
structure Extends (regions regions' : List Rectangle) : Prop where
  appended : regions <+: regions'
  fewer : regions'.length + (covered pixels regions).card ≤
    regions.length + (covered pixels regions').card

theorem Extends.refl (regions : List Rectangle) : Extends regions regions :=
  ⟨List.prefix_refl _, Nat.le_refl _⟩

theorem Extends.trans {regions regions' regions'' : List Rectangle} (first : Extends regions regions')
    (second : Extends regions' regions'') : Extends regions regions'' := by
  refine ⟨first.appended.trans second.appended, ?_⟩
  have one := first.fewer
  have two := second.fewer
  omega

theorem addAll_extends {add : List Rectangle → Rectangle → Option (Int × List Rectangle)}
    {subs : List Rectangle}
    (each : ∀ sub ∈ subs, ∀ regions added regions', add regions sub = some (added, regions') →
      Extends regions regions')
    {regions regions' : List Rectangle} {total : Int}
    (result : addAll add regions subs = some (total, regions')) : Extends regions regions' := by
  induction subs generalizing regions total with
  | nil =>
      cases result
      exact .refl _
  | cons sub subs ih =>
      obtain ⟨first, others⟩ := List.forall_mem_cons.mp each
      rw [addAll] at result
      cases one : add regions sub with
      | none =>
          rw [one] at result
          cases result
      | some added =>
          obtain ⟨added, middle⟩ := added
          rw [one] at result
          simp only [Option.bind_eq_bind, Option.bind_some] at result
          cases rest : addAll add middle subs with
          | none =>
              rw [rest] at result
              cases result
          | some more =>
              obtain ⟨more, last⟩ := more
              rw [rest] at result
              cases result
              exact (first regions added middle one).trans (ih others rest)

theorem addRectangle_extends (depth : Nat) {region : Rectangle} (filled : region.Nonempty)
    {regions regions' : List Rectangle} {added : Int}
    (result : addRectangle depth regions region = some (added, regions')) :
    Extends regions regions' := by
  induction depth generalizing region regions regions' added with
  | zero => cases result
  | succ depth ih =>
      have means := firstHit_means region regions
      unfold addRectangle at result
      cases hit : firstHit region regions with
      | contained =>
          rw [hit] at result
          cases result
          exact .refl _
      | intersects r =>
          rw [hit] at result
          have apart := apart_subtractRect region r filled
          apply addAll_extends _ result
          intro sub member regions added regions' one
          exact ih (pixels_nonempty.mp (apart.filled sub member)) one
      | clear =>
          rw [hit] at result means
          cases result
          have separate : Disjoint (covered pixels regions) (pixels region) := means
          have some := Finset.card_pos.mpr (pixels_nonempty.mpr filled)
          refine ⟨List.prefix_append _ _, ?_⟩
          rw [covered_append, covered_cons, covered_nil, Finset.union_empty,
            Finset.card_union_of_disjoint separate, List.length_append, List.length_singleton]
          omega

theorem addTo_extends {region : Rectangle} (filled : region.Nonempty) (regions : List Rectangle) :
    Extends regions (addTo regions region).2 := by
  have count := card_pixels region
  obtain ⟨added, regions', found, -⟩ :=
    addRectangle_covers ((region.width * region.height).toNat + 1) region (by omega) regions
  have extended := addRectangle_extends _ filled found
  rw [addTo, found]
  exact extended

theorem foldl_addBaseRegion_extends {subs : List Rectangle} (filled : ∀ sub ∈ subs, sub.Nonempty)
    (s : WindowVideoSource) :
    Extends s.refreshRegions (subs.foldl addBaseRegion s).refreshRegions := by
  induction subs generalizing s with
  | nil => exact .refl _
  | cons sub subs ih =>
      obtain ⟨first, others⟩ := List.forall_mem_cons.mp filled
      exact (addTo_extends first s.refreshRegions).trans (ih others (addBaseRegion s sub))

/-! ### A region more -/

/-- The pixels of the video region. -/
noncomputable def videoPixels (s : WindowVideoSource) : Finset (Int × Int) :=
  match s.videoSubregion.rectangle with
  | none => ∅
  | some vr => pixels vr

noncomputable def videoDebt (s : WindowVideoSource) : Finset (Int × Int) :=
  covered pixels s.videoSubregion.refreshRegions ∪ covered pixels s.videoSubregion.nonvideoRegions

/-- What adding a region does. -/
structure AddsRegion (s : WindowVideoSource) (region : Rectangle) (s' : WindowVideoSource) : Prop where
  rectangle : s'.videoSubregion.rectangle = s.videoSubregion.rectangle
  extended : Extends s.refreshRegions s'.refreshRegions
  base : covered pixels s'.refreshRegions =
    covered pixels s.refreshRegions ∪ (pixels region \ videoPixels s)
  video : videoDebt s' = videoDebt s ∪ (pixels region ∩ videoPixels s)

theorem AddsRegion.debt {s s' : WindowVideoSource} {region : Rectangle} (adds : AddsRegion s region s') :
    debt s' = debt s ∪ pixels region := by
  change covered pixels s'.refreshRegions ∪ videoDebt s' =
    covered pixels s.refreshRegions ∪ videoDebt s ∪ pixels region
  rw [adds.base, adds.video]
  ext p
  simp only [Finset.mem_union, Finset.mem_sdiff, Finset.mem_inter]
  tauto

theorem covered_outside (rect : Rectangle) (regions : List Rectangle) :
    covered pixels (VideoSubregion.outside rect regions) = covered pixels regions \ pixels rect := by
  apply covered_flatMap
  intro r _
  split
  · next inside => rw [covered_nil, Finset.sdiff_eq_empty_iff_subset.mpr (containsRect_pixels inside)]
  · exact covered_subtract_all r rect

/-- The pixels of the video region's lists, wherever the video region is now. -/
theorem addVideoRefresh_debt {s : WindowVideoSource} {rect : Rectangle}
    (known : s.videoSubregion.rectangle = some rect) (region : Rectangle) :
    videoDebt (VideoSubregion.addVideoRefresh s region) = videoDebt s ∪ pixels region := by
  obtain ⟨-, video, nonvideo, rectangle, -⟩ := cancelVideoTimer_lists s
  unfold VideoSubregion.addVideoRefresh videoDebt
  rw [known] at rectangle ⊢
  dsimp only
  rw [← video, ← nonvideo]
  generalize VideoSubregion.cancelRefreshTimer s = s₁
  have started (s' : WindowVideoSource) :
      (if s'.videoSubregion.refreshRegions = [] then s'
        else VideoSubregion.startRefreshTimer s').videoSubregion.refreshRegions =
          s'.videoSubregion.refreshRegions ∧
      (if s'.videoSubregion.refreshRegions = [] then s'
        else VideoSubregion.startRefreshTimer s').videoSubregion.nonvideoRegions =
          s'.videoSubregion.nonvideoRegions := by
    split
    · exact ⟨rfl, rfl⟩
    · exact ⟨rfl, rfl⟩
  rw [(started _).1, (started _).2]
  split
  next none =>
    have empty := (List.append_eq_nil_iff.mp none).1
    change covered pixels (addTo s₁.videoSubregion.refreshRegions region).2 ∪ covered pixels [] = _
    rw [covered_addTo, empty, covered_nil, Finset.union_empty, Finset.union_empty]
  next some =>
    change covered pixels ((addTo s₁.videoSubregion.refreshRegions region).2.filterMap
        rect.intersectionRect) ∪
      covered pixels (s₁.videoSubregion.nonvideoRegions ++ VideoSubregion.outside rect
        (addTo s₁.videoSubregion.refreshRegions region).2) = _
    rw [covered_append, covered_outside, covered_addTo]
    ext p
    rw [Finset.mem_union, mem_intersections, covered_addTo]
    simp only [Finset.mem_union, Finset.mem_sdiff]
    tauto

theorem addBaseRegion_adds {s : WindowVideoSource} {region : Rectangle} (filled : region.Nonempty)
    (separate : Disjoint (pixels region) (videoPixels s)) :
    AddsRegion s region (addBaseRegion s region) := by
  constructor
  · rfl
  · exact addTo_extends filled s.refreshRegions
  · rw [Finset.sdiff_eq_self_of_disjoint separate]
    exact covered_addTo _ _
  · rw [Finset.disjoint_iff_inter_eq_empty.mp separate, Finset.union_empty]
    rfl

theorem addRefreshRegion_adds (s : WindowVideoSource) {region : Rectangle} (filled : region.Nonempty) :
    AddsRegion s region (addRefreshRegion s region) := by
  unfold addRefreshRegion
  cases known : s.videoSubregion.rectangle with
  | none =>
      apply addBaseRegion_adds filled
      rw [videoPixels, known]
      exact Finset.disjoint_empty_right _
  | some vr =>
      have here : videoPixels s = pixels vr := by rw [videoPixels, known]
      dsimp only
      split
      next contained =>
        have adds := addVideoRefresh_adds known region
        have inside := containsRect_pixels contained
        constructor
        · exact adds.rectangle.trans known.symm
        · rw [adds.refreshRegions]
          exact .refl _
        · rw [adds.refreshRegions, here, Finset.sdiff_eq_empty_iff_subset.mpr inside,
            Finset.union_empty]
        · rw [addVideoRefresh_debt known, here, Finset.inter_eq_left.mpr inside]
      cases crosses : vr.intersectionRect region with
      | none =>
          apply addBaseRegion_adds filled
          rw [here, Finset.disjoint_left]
          intro p inRegion inRect
          obtain ⟨both, there, _⟩ := (intersectionRect_pixels vr region p).mpr ⟨inRect, inRegion⟩
          rw [crosses] at there
          cases there
      | some ir =>
          have common : pixels ir = pixels region ∩ pixels vr := by
            ext p
            rw [Finset.mem_inter, and_comm, ← intersectionRect_pixels vr region p]
            constructor
            · intro inside
              exact ⟨ir, crosses, inside⟩
            · rintro ⟨both, there, inside⟩
              rw [crosses] at there
              cases there
              exact inside
          have adds := addVideoRefresh_adds known ir
          have apart := apart_subtractRect region vr filled
          have pieces : ∀ sub ∈ region.subtractRect vr, sub.Nonempty :=
            fun sub member => pixels_nonempty.mp (apart.filled sub member)
          have extended := foldl_addBaseRegion_extends pieces (VideoSubregion.addVideoRefresh s ir)
          obtain ⟨regions, rest, covers⟩ :=
            foldl_addBaseRegion (region.subtractRect vr) (VideoSubregion.addVideoRefresh s ir)
          rw [adds.refreshRegions, rest] at extended
          dsimp only
          rw [rest]
          constructor
          · exact adds.rectangle.trans known.symm
          · exact extended
          · rw [covers, adds.refreshRegions, covered_subtract_all, here]
          · have same := addVideoRefresh_debt known ir
            rw [common] at same
            rw [here]
            exact same

end Catlink.Refresh
