import Catlink.Window.ScrolledRegions
import Mathlib.Tactic

/-! When what waits for a refresh is still known after its pixels were scrolled. -/

namespace Catlink.Refresh

open Util Cover Growing

/-! ### Where the pixels go -/

def Scroll.move (scroll : Scroll) (p : Int × Int) : Int × Int := (p.1 + scroll.dx, p.2 + scroll.dy)

def Scroll.area (scroll : Scroll) : Nat := (scroll.w * scroll.h).toNat

/-- The pixels on the list of the window once the source area of a scroll has been moved: where they
fall into that area again they are moved again. -/
inductive Carried (video : Finset (Int × Int)) (scroll : Scroll) (listed : Set (Int × Int)) :
    Int × Int → Prop
  | here {p : Int × Int} (waits : p ∈ listed) : Carried video scroll listed p
  | moved {p : Int × Int} (carried : Carried video scroll listed p)
      (inside : p ∈ pixels scroll.srcRect) (outside : scroll.move p ∉ video) :
      Carried video scroll listed (scroll.move p)

/-- A pixel that one scroll adds. -/
def Lands (video : Finset (Int × Int)) (scroll : Scroll) (listed : Set (Int × Int)) (q : Int × Int) :
    Prop :=
  ∃ p, Carried video scroll listed p ∧ p ∈ pixels scroll.srcRect ∧ scroll.move p = q

/-- A pixel that one of the scrolls adds, in their order. -/
def Shifted (video : Finset (Int × Int)) : Set (Int × Int) → List Scroll → Int × Int → Prop
  | _, [], _ => False
  | listed, scroll :: scrolls, q =>
      Lands video scroll listed q ∨ Shifted video (Set.ofPred (Carried video scroll listed)) scrolls q

/-- What was on the list of the window is shifted by every scroll. -/
theorem shifted_of_listed {video : Finset (Int × Int)} {listed : Set (Int × Int)}
    {scrolls : List Scroll} {scroll : Scroll} (member : scroll ∈ scrolls) {p : Int × Int}
    (waits : p ∈ listed) (inside : p ∈ pixels scroll.srcRect) :
    Shifted video listed scrolls (scroll.move p) := by
  induction scrolls generalizing listed with
  | nil => cases member
  | cons first scrolls ih =>
      rcases List.mem_cons.mp member with rfl | later
      · exact .inl ⟨p, .here waits, inside, rfl⟩
      · exact .inr (ih later (Carried.here waits))

theorem move_dstRect {scroll : Scroll} {inter : Rectangle} {q : Int × Int} :
    q ∈ pixels (scroll.dstRect inter) ↔ ∃ p ∈ pixels inter, scroll.move p = q := by
  constructor
  · intro inside
    refine ⟨(q.1 - scroll.dx, q.2 - scroll.dy), ?_, ?_⟩
    · rw [mem_pixels] at inside ⊢
      dsimp only [Scroll.dstRect] at inside ⊢
      omega
    · rw [Scroll.move]
      ext
      · exact Int.sub_add_cancel _ _
      · exact Int.sub_add_cancel _ _
  · rintro ⟨p, inside, rfl⟩
    rw [mem_pixels] at inside ⊢
    dsimp only [Scroll.dstRect, Scroll.move]
    omega

theorem intersectionRect_nonempty {self rect both : Rectangle}
    (crosses : self.intersectionRect rect = some both) : both.Nonempty := by
  unfold Rectangle.intersectionRect Rectangle.intersection at crosses
  dsimp only at crosses
  split at crosses
  · cases crosses
  · split at crosses
    · cases crosses
    · cases crosses
      constructor
      · dsimp only
        omega
      · dsimp only
        omega

/-! ### One rectangle of the list -/

/-- Nothing, or the pixels in common at their new place. -/
theorem shift_cases (scroll : Scroll) (run : Int × WindowVideoSource) (rect : Rectangle) :
    (shift scroll run rect = run ∧ ∀ p ∈ pixels scroll.srcRect, p ∉ pixels rect) ∨
      ∃ region, AddsRegion run.2 region (shift scroll run rect).2 ∧
        ∀ q, q ∈ pixels region ↔
          ∃ p, (p ∈ pixels scroll.srcRect ∧ p ∈ pixels rect) ∧ scroll.move p = q := by
  unfold shift
  cases crosses : scroll.srcRect.intersectionRect rect with
  | none =>
      refine .inl ⟨rfl, fun p inSrc inRect => ?_⟩
      obtain ⟨both, there, _⟩ := (intersectionRect_pixels scroll.srcRect rect p).mpr ⟨inSrc, inRect⟩
      rw [crosses] at there
      cases there
  | some inter =>
      have some := intersectionRect_nonempty crosses
      have filled : (scroll.dstRect inter).Nonempty := some
      refine .inr ⟨scroll.dstRect inter, addRefreshRegion_adds run.2 filled, fun q => ?_⟩
      have both (p : Int × Int) : p ∈ pixels inter ↔ p ∈ pixels scroll.srcRect ∧ p ∈ pixels rect := by
        rw [← intersectionRect_pixels scroll.srcRect rect p]
        constructor
        · intro inside
          exact ⟨inter, crosses, inside⟩
        · rintro ⟨both, there, inside⟩
          rw [crosses] at there
          cases there
          exact inside
      rw [move_dstRect]
      simp only [both]

/-- What the loop of one scroll keeps. -/
structure Scrolling (s : WindowVideoSource) (scroll : Scroll) (run : Int × WindowVideoSource) : Prop where
  rectangle : run.2.videoSubregion.rectangle = s.videoSubregion.rectangle
  extended : Extends s.refreshRegions run.2.refreshRegions
  kept : covered pixels s.refreshRegions ⊆ covered pixels run.2.refreshRegions
  carried : ∀ p ∈ covered pixels run.2.refreshRegions,
    Carried (videoPixels s) scroll (covered pixels s.refreshRegions) p
  owed : debt s ⊆ debt run.2
  lands : ∀ q ∈ debt run.2, q ∈ debt s ∨
    Lands (videoPixels s) scroll (covered pixels s.refreshRegions) q

/-- What the turn for a rectangle does. -/
def Turned (s : WindowVideoSource) (scroll : Scroll) (run : Int × WindowVideoSource)
    (rect : Rectangle) : Prop :=
  ∀ p ∈ pixels rect, p ∈ pixels scroll.srcRect → scroll.move p ∈ debt run.2 ∧
    (scroll.move p ∉ videoPixels s → scroll.move p ∈ covered pixels run.2.refreshRegions)

variable {s s' : WindowVideoSource} {scroll : Scroll} {run run' : Int × WindowVideoSource}
  {rect : Rectangle}

theorem Scrolling.start (n : Int) (s : WindowVideoSource) (scroll : Scroll) :
    Scrolling s scroll (n, s) := by
  constructor
  · rfl
  · exact .refl _
  · exact Finset.Subset.refl _
  · intro p waits
    exact .here waits
  · exact Finset.Subset.refl _
  · intro q waits
    exact .inl waits

theorem Scrolling.video (scrolling : Scrolling s scroll run) : videoPixels run.2 = videoPixels s := by
  rw [videoPixels, videoPixels, scrolling.rectangle]

theorem Scrolling.shift (scrolling : Scrolling s scroll run) (member : rect ∈ run.2.refreshRegions) :
    Scrolling s scroll (shift scroll run rect) := by
  rcases shift_cases scroll run rect with ⟨same, -⟩ | ⟨region, adds, there⟩
  · rw [same]
    exact scrolling
  · have from' (q : Int × Int) (inside : q ∈ pixels region) :
        ∃ p, Carried (videoPixels s) scroll (covered pixels s.refreshRegions) p ∧
          p ∈ pixels scroll.srcRect ∧ scroll.move p = q := by
      obtain ⟨p, ⟨inSrc, inRect⟩, moves⟩ := (there q).mp inside
      exact ⟨p, scrolling.carried p (cells_subset_covered member inRect), inSrc, moves⟩
    constructor
    · exact adds.rectangle.trans scrolling.rectangle
    · exact scrolling.extended.trans adds.extended
    · rw [adds.base]
      exact scrolling.kept.trans Finset.subset_union_left
    · intro q waits
      rw [adds.base, scrolling.video, Finset.mem_union, Finset.mem_sdiff] at waits
      rcases waits with before | ⟨inside, outside⟩
      · exact scrolling.carried q before
      · obtain ⟨p, carried, inSrc, rfl⟩ := from' q inside
        exact .moved carried inSrc outside
    · rw [adds.debt]
      exact scrolling.owed.trans Finset.subset_union_left
    · intro q waits
      rw [adds.debt, Finset.mem_union] at waits
      rcases waits with before | now
      · exact scrolling.lands q before
      · exact .inr (from' q now)

theorem shift_appends (scroll : Scroll) (run : Int × WindowVideoSource) (rect : Rectangle) :
    Extends run.2.refreshRegions (shift scroll run rect).2.refreshRegions ∧
      debt run.2 ⊆ debt (shift scroll run rect).2 ∧
        covered pixels run.2.refreshRegions ⊆
          covered pixels (shift scroll run rect).2.refreshRegions := by
  rcases shift_cases scroll run rect with ⟨same, -⟩ | ⟨region, adds, -⟩
  · rw [same]
    exact ⟨.refl _, Finset.Subset.refl _, Finset.Subset.refl _⟩
  · refine ⟨adds.extended, ?_, ?_⟩
    · rw [adds.debt]
      exact Finset.subset_union_left
    · rw [adds.base]
      exact Finset.subset_union_left

theorem Scrolling.turned (scrolling : Scrolling s scroll run) (rect : Rectangle) :
    Turned s scroll (Refresh.shift scroll run rect) rect := by
  intro p inRect inSrc
  rcases shift_cases scroll run rect with ⟨-, apart⟩ | ⟨region, adds, there⟩
  · exact absurd inRect (apart p inSrc)
  · have inside : scroll.move p ∈ pixels region := (there _).mpr ⟨p, ⟨inSrc, inRect⟩, rfl⟩
    rw [adds.debt, adds.base, scrolling.video]
    refine ⟨Finset.mem_union_right _ inside, fun outside => ?_⟩
    exact Finset.mem_union_right _ (Finset.mem_sdiff.mpr ⟨inside, outside⟩)

theorem Turned.stays (turned : Turned s scroll run rect) (other : Rectangle) :
    Turned s scroll (Refresh.shift scroll run other) rect := by
  obtain ⟨-, owed, listed⟩ := shift_appends scroll run other
  intro p inRect inSrc
  obtain ⟨moved, outside⟩ := turned p inRect inSrc
  exact ⟨owed moved, fun away => listed (outside away)⟩

/-! ### One scroll -/

/-- The list of the window and the debt after a scroll. -/
structure Scrolled (s : WindowVideoSource) (scroll : Scroll) (s' : WindowVideoSource) : Prop where
  rectangle : s'.videoSubregion.rectangle = s.videoSubregion.rectangle
  listed : ∀ p, p ∈ covered pixels s'.refreshRegions ↔
    Carried (videoPixels s) scroll (covered pixels s.refreshRegions) p
  debt : ∀ q, q ∈ debt s' ↔ q ∈ debt s ∨
    Lands (videoPixels s) scroll (covered pixels s.refreshRegions) q

theorem scrollOne_scrolled {fuel : Nat} (result : scrollOne fuel run scroll = some run') :
    Scrolled run.2 scroll run'.2 := by
  have start := Scrolling.start run.1 run.2 scroll
  have scrolling : Scrolling run.2 scroll run' :=
    forEach_keeps (Scrolling run.2 scroll) (fun _ _ scrolling member => scrolling.shift member) result
      start
  have turned : ∀ rect ∈ run'.2.refreshRegions, Turned run.2 scroll run' rect :=
    forEach_visits (Scrolling run.2 scroll)
      (fun _ _ scrolling member => scrolling.shift member)
      (fun run rect _ _ => (shift_appends scroll run rect).1.appended)
      (fun _ rect scrolling _ => scrolling.turned rect)
      (fun _ other _ _ _ turned => turned.stays other) result start (by simp)
  have all (p : Int × Int)
      (carried : Carried (videoPixels run.2) scroll (covered pixels run.2.refreshRegions) p) :
      p ∈ covered pixels run'.2.refreshRegions := by
    induction carried with
    | here waits => exact scrolling.kept waits
    | @moved p carried inside outside ih =>
        obtain ⟨rect, member, inRect⟩ := mem_covered.mp ih
        exact (turned rect member p inRect inside).2 outside
  constructor
  · exact scrolling.rectangle
  · intro p
    exact ⟨scrolling.carried p, all p⟩
  · intro q
    constructor
    · exact scrolling.lands q
    · rintro (before | ⟨p, carried, inside, rfl⟩)
      · exact scrolling.owed before
      · obtain ⟨rect, member, inRect⟩ := mem_covered.mp (all p carried)
        exact (turned rect member p inRect inside).1

/-- Where the pixels of the list can be. -/
noncomputable def reach (s : WindowVideoSource) (scroll : Scroll) : Finset (Int × Int) :=
  covered pixels s.refreshRegions ∪ (pixels scroll.srcRect).image scroll.move

theorem Scrolling.within (scrolling : Scrolling s scroll run) :
    covered pixels run.2.refreshRegions ⊆ reach s scroll := by
  intro p waits
  rw [reach, Finset.mem_union, Finset.mem_image]
  cases scrolling.carried p waits with
  | here before => exact .inl before
  | @moved q carried inside outside => exact .inr ⟨q, inside, rfl⟩

theorem reach_card (s : WindowVideoSource) (scroll : Scroll) :
    (reach s scroll).card ≤ (covered pixels s.refreshRegions).card + scroll.area := by
  have count : ((pixels scroll.srcRect).card : Int) = scroll.w * scroll.h := card_pixels scroll.srcRect
  have size : (pixels scroll.srcRect).card = scroll.area := by
    rw [Scroll.area, ← count, Int.toNat_natCast]
  have image := Finset.card_image_le (s := pixels scroll.srcRect) (f := scroll.move)
  have union := Finset.card_union_le (covered pixels s.refreshRegions)
    ((pixels scroll.srcRect).image scroll.move)
  rw [reach]
  omega

/-- The loop over the growing list ends. -/
theorem scrollOne_ends {fuel : Nat} (enough : run.2.refreshRegions.length + scroll.area < fuel) :
    ∃ run', scrollOne fuel run scroll = some run' ∧
      run'.2.refreshRegions.length ≤ run.2.refreshRegions.length + scroll.area := by
  have start := Scrolling.start run.1 run.2 scroll
  have most := reach_card run.2 scroll
  let left (now : Int × WindowVideoSource) : Nat :=
    (reach run.2 scroll).card - (covered pixels now.2.refreshRegions).card
  have room_left (now : Int × WindowVideoSource) :
      left now = (reach run.2 scroll).card - (covered pixels now.2.refreshRegions).card := rfl
  have uses (now : Int × WindowVideoSource) (rect : Rectangle) (scrolling : Scrolling run.2 scroll now)
      (member : rect ∈ now.2.refreshRegions) :
      (shift scroll now rect).2.refreshRegions.length + left (shift scroll now rect) ≤
        now.2.refreshRegions.length + left now := by
    have fewer := (shift_appends scroll now rect).1.fewer
    have within := Finset.card_le_card (scrolling.shift member).within
    rw [room_left, room_left]
    omega
  have room : run.2.refreshRegions.length + left run < fuel + 0 := by
    rw [room_left]
    omega
  obtain ⟨run', result⟩ : ∃ run', scrollOne fuel run scroll = some run' :=
    forEach_ends (Scrolling run.2 scroll) left
      (fun _ _ scrolling member => scrolling.shift member) uses start room (Nat.zero_le _)
      (fun now rect _ _ => (shift_appends scroll now rect).1.appended)
  refine ⟨run', result, ?_⟩
  have scrolling : Scrolling run.2 scroll run' :=
    forEach_keeps (Scrolling run.2 scroll) (fun _ _ scrolling member => scrolling.shift member) result
      start
  have fewer := scrolling.extended.fewer
  have within := Finset.card_le_card scrolling.within
  omega

/-! ### All scrolls -/

theorem scrollAll_shifted {fuel : Nat} {scrollData : List Scroll}
    (result : scrollAll fuel run scrollData = some run') :
    ∀ q, q ∈ debt run'.2 ↔ q ∈ debt run.2 ∨
      Shifted (videoPixels run.2) (covered pixels run.2.refreshRegions) scrollData q := by
  induction scrollData generalizing run with
  | nil =>
      intro q
      cases result
      exact ⟨.inl, fun waits => waits.elim id False.elim⟩
  | cons scroll scrollData ih =>
      intro q
      rw [scrollAll, List.foldlM_cons] at result
      cases one : scrollOne fuel run scroll with
      | none =>
          rw [one] at result
          cases result
      | some middle =>
          rw [one] at result
          have scrolled := scrollOne_scrolled one
          have video : videoPixels middle.2 = videoPixels run.2 := by
            rw [videoPixels, videoPixels, scrolled.rectangle]
          have listed : (covered pixels middle.2.refreshRegions : Set (Int × Int)) =
              Set.ofPred (Carried (videoPixels run.2) scroll (covered pixels run.2.refreshRegions)) :=
            Set.ext scrolled.listed
          rw [ih result q, scrolled.debt q, video, listed, or_assoc]
          exact Iff.rfl

theorem scrollAll_ends {fuel : Nat} (scrollData : List Scroll)
    (enough : run.2.refreshRegions.length + (scrollData.map Scroll.area).sum < fuel) :
    ∃ run', scrollAll fuel run scrollData = some run' := by
  induction scrollData generalizing run with
  | nil => exact ⟨run, rfl⟩
  | cons scroll scrollData ih =>
      rw [List.map_cons, List.sum_cons] at enough
      have first : run.2.refreshRegions.length + scroll.area < fuel := by omega
      obtain ⟨middle, one, longer⟩ := scrollOne_ends first
      rw [scrollAll, List.foldlM_cons, one]
      exact ih (by omega)

/-- The rectangle that replaces the others covers them. -/
theorem simplify_debt (run : Int × WindowVideoSource) : debt run.2 ⊆ debt (simplify run) := by
  unfold simplify
  split
  · next many =>
      have some : run.2.refreshRegions ≠ [] := by
        intro none
        rw [none] at many
        exact absurd many.2 (by decide)
      obtain ⟨merged, result, covers⟩ := mergeAll_covers some
      rw [result]
      apply Finset.union_subset_union _ (Finset.Subset.refl _)
      rw [covered_cons, covered_nil, Finset.union_empty]
      exact covers
  · exact Finset.Subset.refl _

/-! ### A scroll packet -/

/-- Where there was a pixel that waits, there is one at its new place. -/
def DebtMoves (s s' : WindowVideoSource) (scrollData : List Scroll) : Prop :=
  ∀ scroll ∈ scrollData, ∀ p ∈ pixels scroll.srcRect, p ∈ debt s → scroll.move p ∈ debt s'

/-- The pixels that wait are on the list of the window, which is looked at, or their new places
wait anyway. -/
def Followed (s : WindowVideoSource) (region : Rectangle) (scrollData : List Scroll) : Prop :=
  ∀ scroll ∈ scrollData, ∀ p ∈ pixels scroll.srcRect, p ∈ debt s →
    scroll.move p ∈ debt s ∨ (skips s region = false ∧
      (p ∈ covered pixels s.refreshRegions ∨
        Shifted (videoPixels s) (covered pixels s.refreshRegions) scrollData (scroll.move p)))

/-- There are too many rectangles in the end. -/
def Simplifies (fuel : Nat) (s : WindowVideoSource) (scrollData : List Scroll) : Prop :=
  ∃ run, scrollAll fuel (0, s) scrollData = some run ∧ run.1 ≠ 0 ∧ 200 ≤ run.2.refreshRegions.length

/-- A scroll packet is processed to its end, and nothing is forgotten. The debt moves with the pixels
when the scrolls follow it, and only then as long as there are not too many rectangles. -/
theorem scroll_debt (s : WindowVideoSource) (update : Update) {scrollData : List Scroll}
    (scrolls : scrollData ≠ []) (now : Nat) {fuel : Nat}
    (enough : s.refreshRegions.length + (scrollData.map Scroll.area).sum < fuel) :
    ∃ s', scheduleAutoRefresh fuel s update scrollData now = some s' ∧ debt s ⊆ debt s' ∧
      (Followed s update.region scrollData → DebtMoves s s' scrollData) ∧
      (¬Simplifies fuel s scrollData → DebtMoves s s' scrollData →
        Followed s update.region scrollData) := by
  rw [scheduleAutoRefresh, if_neg scrolls]
  split
  · next skipped =>
      refine ⟨s, rfl, Finset.Subset.refl _, ?_, ?_⟩
      · intro followed scroll member p inside waits
        rcases followed scroll member p inside waits with there | ⟨looked, -⟩
        · exact there
        · rw [skipped] at looked
          cases looked
      · intro _ moves scroll member p inside waits
        exact .inl (moves scroll member p inside waits)
  · next looked =>
      obtain ⟨run, result⟩ : ∃ run, scrollAll fuel (0, s) scrollData = some run :=
        scrollAll_ends scrollData enough
      have shifted := scrollAll_shifted result
      rw [result]
      refine ⟨simplify run, rfl, ?_, ?_, ?_⟩
      · intro q waits
        exact simplify_debt run ((shifted q).mpr (.inl waits))
      · intro followed scroll member p inside waits
        apply simplify_debt run
        rw [shifted]
        rcases followed scroll member p inside waits with there | ⟨-, listed | lands⟩
        · exact .inl there
        · exact .inr (shifted_of_listed member listed inside)
        · exact .inr lands
      · intro few moves scroll member p inside waits
        have plain : simplify run = run.2 := by
          rw [simplify, if_neg fun many => few ⟨run, result, many⟩]
        have there := moves scroll member p inside waits
        rw [plain, shifted] at there
        rcases there with before | lands
        · exact .inl before
        · exact .inr ⟨Bool.eq_false_iff.mpr looked, .inr lands⟩

def page : Update where
  encoding := "scroll"
  region := ⟨0, 0, 100, 100, by decide⟩
  quality := 100
  csc := ""
  scaled := false
  autoRefresh := false

def down : Scroll := ⟨0, 0, 10, 10, 0, 20, square_valid⟩

/-- The text that was updated with losses is scrolled. -/
theorem scroll_debt_text : ∃ s', scheduleAutoRefresh 200
    (addRefreshRegion desktop ⟨0, 0, 10, 10, by decide⟩) page [down] 1 = some s' ∧
      DebtMoves (addRefreshRegion desktop ⟨0, 0, 10, 10, by decide⟩) s' [down] := by
  have listed : (addRefreshRegion desktop ⟨0, 0, 10, 10, by decide⟩).refreshRegions =
      [⟨0, 0, 10, 10, by decide⟩] := rfl
  have enough : (addRefreshRegion desktop ⟨0, 0, 10, 10, by decide⟩).refreshRegions.length +
      ([down].map Scroll.area).sum < 200 := by decide
  obtain ⟨s', result, -, follows, -⟩ := scroll_debt (addRefreshRegion desktop ⟨0, 0, 10, 10, by decide⟩)
    page (List.cons_ne_nil down []) 1 enough
  refine ⟨s', result, follows ?_⟩
  intro scroll member p inside _
  rw [List.mem_singleton.mp member] at inside
  refine .inr ⟨rfl, .inl ?_⟩
  rw [listed, covered_cons]
  exact Finset.mem_union_left _ inside

/-- A video that was updated with losses. -/
def clip : WindowVideoSource :=
  [.detect (some ⟨0, 0, 10, 10, square_valid⟩), .lossy ⟨0, 0, 10, 10, square_valid⟩].foldl whole desktop

/-- The regions of the video region are not looked at. -/
theorem not_scroll_debt :
    ¬∀ (s : WindowVideoSource) (update : Update) (scrollData : List Scroll) (now fuel : Nat),
      scrollData ≠ [] → s.refreshRegions.length + (scrollData.map Scroll.area).sum < fuel →
        ∃ s', scheduleAutoRefresh fuel s update scrollData now = some s' ∧ debt s ⊆ debt s' ∧
          DebtMoves s s' scrollData := by
  intro moves
  obtain ⟨s', result, -, there⟩ := moves clip page [down] 1 200 (List.cons_ne_nil down []) (by decide)
  have same : scheduleAutoRefresh 200 clip page [down] 1 = some clip := rfl
  rw [same] at result
  cases result
  have lists : clip.refreshRegions = [] ∧ clip.videoSubregion.nonvideoRegions = [] ∧
      clip.videoSubregion.refreshRegions = [⟨0, 0, 10, 10, by decide⟩] := ⟨rfl, rfl, rfl⟩
  have waits (p : Int × Int) : p ∈ debt clip ↔ 0 ≤ p.1 ∧ p.1 < 10 ∧ 0 ≤ p.2 ∧ p.2 < 10 := by
    rw [debt, lists.1, lists.2.1, lists.2.2]
    simp [mem_pixels]
  have first := there down List.mem_cons_self (0, 0) (mem_pixels.mpr (by decide))
    ((waits (0, 0)).mpr (by decide))
  rw [waits] at first
  exact absurd first (by decide)

end Catlink.Refresh
