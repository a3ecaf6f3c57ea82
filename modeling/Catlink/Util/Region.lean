import Catlink.Util.Rectangle

/-! Damage regions: the list of rectangles that add and remove keep is a set of pixels. -/

namespace Catlink.Util

open Cover

/-! ### One rectangle more -/

def Hit.Means (region : Rectangle) (regions : List Rectangle) : Hit → Prop
  | .contained => pixels region ⊆ covered pixels regions
  | .intersects r => r ∈ regions ∧ ¬Disjoint (pixels r) (pixels region)
  | .clear => Disjoint (covered pixels regions) (pixels region)

theorem firstHit_means (region : Rectangle) (regions : List Rectangle) :
    (firstHit region regions).Means region regions := by
  induction regions with
  | nil => simp [firstHit, Hit.Means]
  | cons r regions ih =>
      unfold firstHit
      split
      next inside =>
        intro p member
        rw [mem_pixels] at member
        rw [covered_cons, Finset.mem_union, mem_pixels]
        left
        omega
      split
      next crosses =>
        exact ⟨List.mem_cons_self, intersects_iff.mp crosses⟩
      next apart =>
        have first : Disjoint (pixels r) (pixels region) := by
          by_contra crosses
          exact apart (intersects_iff.mpr crosses)
        cases hit : firstHit region regions with
        | contained =>
            rw [hit] at ih
            exact Finset.Subset.trans ih Finset.subset_union_right
        | intersects found =>
            rw [hit] at ih
            exact ⟨List.mem_cons_of_mem _ ih.1, ih.2⟩
        | clear =>
            rw [hit] at ih
            exact Finset.disjoint_union_left.mpr ⟨first, ih⟩

/-- Adding these pixels succeeds, counts the new ones, and leaves a cover of them all. -/
def Adds (regions : List Rectangle) (cells : Finset (Int × Int))
    (result : Option (Int × List Rectangle)) : Prop :=
  ∃ regions', result = some (((cells \ covered pixels regions).card : Int), regions') ∧
    Apart pixels regions' ∧ covered pixels regions' = covered pixels regions ∪ cells

/-- The pixels of two sets without common ones are counted one set after the other. -/
theorem card_sdiff_union {s t u : Finset (Int × Int)} (separate : Disjoint s t) :
    ((s ∪ t) \ u).card = (s \ u).card + (t \ (u ∪ s)).card := by
  have rest : t \ (u ∪ s) = t \ u := by
    rw [Finset.sdiff_union_distrib, Finset.inter_eq_left]
    rw [Finset.sdiff_eq_self_of_disjoint separate.symm]
    exact Finset.sdiff_subset
  rw [Finset.union_sdiff_distrib, rest]
  exact Finset.card_union_of_disjoint (separate.mono Finset.sdiff_subset Finset.sdiff_subset)

theorem addAll_ok (add : List Rectangle → Rectangle → Option (Int × List Rectangle))
    (subs : List Rectangle) (apartSubs : Apart pixels subs)
    (each : ∀ sub ∈ subs, ∀ regions, Apart pixels regions →
      Adds regions (pixels sub) (add regions sub))
    (regions : List Rectangle) (apart : Apart pixels regions) :
    Adds regions (covered pixels subs) (addAll add regions subs) := by
  induction subs generalizing regions with
  | nil => exact ⟨regions, by simp [addAll], apart, by simp⟩
  | cons sub subs ih =>
      obtain ⟨first, others⟩ := List.forall_mem_cons.mp each
      obtain ⟨regions', added, apart', covers⟩ := first regions apart
      obtain ⟨regions'', total, apart'', covers'⟩ := ih apartSubs.tail others regions' apart'
      refine ⟨regions'', ?_, apart'', ?_⟩
      · rw [covered_cons, card_sdiff_union apartSubs.head_disjoint, ← covers, addAll, added]
        simp only [Option.bind_eq_bind, Option.bind_some, total, Nat.cast_add]
      · rw [covers', covers, covered_cons, Finset.union_assoc]

/-- What is left of a region without one that it intersects is smaller. -/
theorem card_sub_lt {region r sub : Rectangle} (filled : r.Nonempty)
    (crosses : ¬Disjoint (pixels r) (pixels region)) (member : sub ∈ region.subtractRect r) :
    (pixels sub).card < (pixels region).card := by
  have inside : pixels sub ⊆ pixels region \ pixels r := by
    rw [← covered_subtractRect region r filled]
    exact cells_subset_covered member
  obtain ⟨p, inR, inRegion⟩ := Finset.not_disjoint_iff.mp crosses
  apply Finset.card_lt_card
  rw [Finset.ssubset_iff_of_subset (inside.trans Finset.sdiff_subset)]
  refine ⟨p, inRegion, fun inSub => ?_⟩
  exact (Finset.mem_sdiff.mp (inside inSub)).2 inR

/-- Every fragment is smaller than the region it comes from, so the recursion ends; and what is added
is the region without what was covered. -/
theorem addRectangle_ok (depth : Nat) (region : Rectangle) (filled : region.Nonempty)
    (enough : (pixels region).card < depth) (regions : List Rectangle)
    (apart : Apart pixels regions) :
    Adds regions (pixels region) (addRectangle depth regions region) := by
  induction depth generalizing region regions with
  | zero => omega
  | succ depth ih =>
      have means := firstHit_means region regions
      unfold addRectangle
      cases hit : firstHit region regions with
      | contained =>
          rw [hit] at means
          refine ⟨regions, ?_, apart, ?_⟩
          · rw [Finset.sdiff_eq_empty_iff_subset.mpr means]
            rfl
          · exact (Finset.union_eq_left.mpr means).symm
      | intersects r =>
          rw [hit] at means
          obtain ⟨member, crosses⟩ := means
          have filledR := pixels_nonempty.mp (apart.filled r member)
          have subset : pixels r ⊆ covered pixels regions := cells_subset_covered member
          have apartSubs := apart_subtractRect region r filled
          have added := addAll_ok (addRectangle depth) (region.subtractRect r) apartSubs
            (fun sub memberSub regions apart => by
              apply ih sub _ _ regions apart
              · exact pixels_nonempty.mp (apartSubs.filled sub memberSub)
              · have smaller := card_sub_lt filledR crosses memberSub
                omega) regions apart
          rw [covered_subtractRect region r filledR] at added
          obtain ⟨regions', result, apart', covers⟩ := added
          refine ⟨regions', ?_, apart', ?_⟩
          · have same : (pixels region \ pixels r) \ covered pixels regions =
                pixels region \ covered pixels regions := by
              rw [sdiff_sdiff_left, Finset.sup_eq_union, Finset.union_eq_right.mpr subset]
            rw [← same]
            exact result
          · rw [covers]
            ext p
            simp only [Finset.mem_union, Finset.mem_sdiff]
            have already : p ∈ pixels r → p ∈ covered pixels regions := fun inside => subset inside
            tauto
      | clear =>
          rw [hit] at means
          have separate : Disjoint (covered pixels regions) (pixels region) := means
          refine ⟨regions ++ [region], ?_, ?_, ?_⟩
          · rw [Finset.sdiff_eq_self_of_disjoint separate.symm, card_pixels]
          · apply apart.append (Apart.singleton (pixels_nonempty.mpr filled))
            simpa using separate
          · simp

theorem addAll_deeper {add add' : List Rectangle → Rectangle → Option (Int × List Rectangle)}
    (deeper : ∀ regions sub result, add regions sub = some result → add' regions sub = some result)
    (subs regions : List Rectangle) (result : Int × List Rectangle)
    (found : addAll add regions subs = some result) : addAll add' regions subs = some result := by
  induction subs generalizing regions result with
  | nil => exact found
  | cons sub subs ih =>
      simp only [addAll, Option.bind_eq_bind, Option.bind_eq_some_iff] at found ⊢
      obtain ⟨first, added, rest, total, same⟩ := found
      exact ⟨first, deeper _ _ _ added, rest, ih _ _ total, same⟩

/-- The bound on the depth changes no result. -/
theorem addRectangle_deeper {depth depth' : Nat} (order : depth ≤ depth')
    (regions : List Rectangle) (region : Rectangle) (result : Int × List Rectangle)
    (found : addRectangle depth regions region = some result) :
    addRectangle depth' regions region = some result := by
  induction depth generalizing depth' regions region result with
  | zero => simp [addRectangle] at found
  | succ depth ih =>
      obtain ⟨more, rfl⟩ : ∃ more, depth' = more + 1 := ⟨depth' - 1, by omega⟩
      unfold addRectangle at found ⊢
      cases hit : firstHit region regions with
      | contained =>
          rw [hit] at found
          exact found
      | intersects r =>
          rw [hit] at found
          apply addAll_deeper _ _ _ _ found
          intro regions sub result found
          exact ih (by omega) regions sub result found
      | clear =>
          rw [hit] at found
          exact found

/-! ### Any list -/

/-- An area without pixels takes nothing away. -/
theorem covered_subtract_all (self rect : Rectangle) :
    covered pixels (self.subtractRect rect) = pixels self \ pixels rect := by
  by_cases filled : rect.Nonempty
  · exact covered_subtractRect self rect filled
  · have nothing : pixels rect = ∅ :=
      Finset.not_nonempty_iff_eq_empty.mp fun some => filled (pixels_nonempty.mp some)
    have flat : rect.width = 0 ∨ rect.height = 0 := by
      by_contra both
      rw [not_or] at both
      have valid := rect.valid
      apply filled
      constructor
      · omega
      · omega
    have same : self.subtractRect rect = [self] := by
      unfold Rectangle.subtractRect Rectangle.subtract
      rw [if_pos]
      rcases flat with narrow | low
      · exact .inl narrow
      · exact .inr (.inl low)
    rw [same, nothing, covered_cons, covered_nil, Finset.union_empty, Finset.sdiff_empty]

theorem containsRect_pixels {self rect : Rectangle} (inside : self.containsRect rect = true) :
    pixels rect ⊆ pixels self := by
  simp only [Rectangle.containsRect, Rectangle.contains, Bool.and_eq_true, decide_eq_true_eq] at inside
  intro p member
  rw [mem_pixels] at member ⊢
  omega

/-- What is added is covered, also where the rectangles of the list overlap. -/
theorem addRectangle_covers (depth : Nat) (region : Rectangle)
    (enough : (pixels region).card < depth) (regions : List Rectangle) :
    ∃ added regions', addRectangle depth regions region = some (added, regions') ∧
      covered pixels regions' = covered pixels regions ∪ pixels region := by
  induction depth generalizing region regions with
  | zero => omega
  | succ depth ih =>
      have means := firstHit_means region regions
      unfold addRectangle
      cases hit : firstHit region regions with
      | contained =>
          rw [hit] at means
          exact ⟨0, regions, rfl, (Finset.union_eq_left.mpr means).symm⟩
      | intersects r =>
          rw [hit] at means
          obtain ⟨member, crosses⟩ := means
          have filled : r.Nonempty := by
            obtain ⟨p, inside, _⟩ := Finset.not_disjoint_iff.mp crosses
            exact pixels_nonempty.mp ⟨p, inside⟩
          have each : ∀ subs ⊆ region.subtractRect r, ∀ regions, ∃ added regions',
              addAll (addRectangle depth) regions subs = some (added, regions') ∧
                covered pixels regions' = covered pixels regions ∪ covered pixels subs := by
            intro subs within
            induction subs with
            | nil =>
                intro regions
                exact ⟨0, regions, rfl, by simp⟩
            | cons sub subs ihs =>
                intro regions
                have smaller := card_sub_lt filled crosses (within List.mem_cons_self)
                obtain ⟨first, regions', added, covers⟩ := ih sub (by omega) regions
                obtain ⟨total, regions'', rest, covers'⟩ :=
                  ihs (fun _ later => within (List.mem_cons_of_mem _ later)) regions'
                refine ⟨first + total, regions'', ?_, ?_⟩
                · rw [addAll, added]
                  simp only [Option.bind_eq_bind, Option.bind_some, rest]
                · rw [covers', covers, covered_cons, Finset.union_assoc]
          obtain ⟨added, regions', found, covers⟩ := each _ (List.Subset.refl _) regions
          refine ⟨added, regions', found, ?_⟩
          have already : pixels r ⊆ covered pixels regions := cells_subset_covered member
          rw [covers, covered_subtractRect region r filled]
          ext p
          simp only [Finset.mem_union, Finset.mem_sdiff]
          have here : p ∈ pixels r → p ∈ covered pixels regions := fun inside => already inside
          tauto
      | clear => exact ⟨_, _, rfl, by simp⟩

/-! ### One rectangle for all -/

/-- The edges after one more rectangle: left, top, right and bottom. -/
def mergeEdges (edges : Int × Int × Int × Int) (r : Rectangle) : Int × Int × Int × Int :=
  (min edges.1 r.x, min edges.2.1 r.y, max edges.2.2.1 (r.x + r.width),
    max edges.2.2.2 (r.y + r.height))

def mergeAll : List Rectangle → Except Exn Rectangle
  | [] => .error (.valueError "no rectangles to merge")
  | r :: rs =>
      let (rx, ry, rx2, ry2) :=
        (r :: rs).foldl mergeEdges (r.x, r.y, r.x + r.width, r.y + r.height)
      rectangle rx ry (rx2 - rx) (ry2 - ry)

/-- The edges are around these and around the rectangle. -/
def Around (edges outer : Int × Int × Int × Int) : Prop :=
  outer.1 ≤ edges.1 ∧ outer.2.1 ≤ edges.2.1 ∧ edges.2.2.1 ≤ outer.2.2.1 ∧ edges.2.2.2 ≤ outer.2.2.2

def Rectangle.edges (r : Rectangle) : Int × Int × Int × Int :=
  (r.x, r.y, r.x + r.width, r.y + r.height)

theorem mergeEdges_around (rs : List Rectangle) (edges : Int × Int × Int × Int) :
    Around edges (rs.foldl mergeEdges edges) ∧
      ∀ r ∈ rs, Around r.edges (rs.foldl mergeEdges edges) := by
  induction rs generalizing edges with
  | nil => exact ⟨⟨le_refl _, le_refl _, le_refl _, le_refl _⟩, by simp⟩
  | cons r rs ih =>
      obtain ⟨first, others⟩ := ih (mergeEdges edges r)
      rw [List.foldl_cons]
      unfold Around at first ⊢
      unfold mergeEdges at first
      dsimp only at first
      constructor
      · unfold mergeEdges
        omega
      · intro r' member
        rcases List.mem_cons.mp member with rfl | later
        · unfold Rectangle.edges mergeEdges
          dsimp only
          omega
        · exact others r' later

/-- The rectangle that is returned is around all of them. -/
theorem mergeAll_covers {rs : List Rectangle} (some : rs ≠ []) :
    ∃ merged, mergeAll rs = .ok merged ∧ covered pixels rs ⊆ pixels merged := by
  obtain ⟨r, rest, rfl⟩ := List.exists_cons_of_ne_nil some
  obtain ⟨_, all⟩ := mergeEdges_around (r :: rest) (r.x, r.y, r.x + r.width, r.y + r.height)
  obtain ⟨⟨rx, ry, rx2, ry2⟩, found⟩ :
      ∃ edges, (r :: rest).foldl mergeEdges (r.x, r.y, r.x + r.width, r.y + r.height) = edges :=
    ⟨_, rfl⟩
  rw [found] at all
  unfold mergeAll
  dsimp only
  rw [found]
  have valid := r.valid
  have first := all r List.mem_cons_self
  unfold Around Rectangle.edges at first
  dsimp only at first ⊢
  have sized : 0 ≤ rx2 - rx ∧ 0 ≤ ry2 - ry := by omega
  unfold rectangle
  rw [dif_pos sized]
  refine ⟨_, rfl, ?_⟩
  intro p inside
  obtain ⟨r', member, inR⟩ := mem_covered.mp inside
  have around := all r' member
  unfold Around Rectangle.edges at around
  rw [mem_pixels] at inR ⊢
  dsimp only at around ⊢
  omega

/-! ### One rectangle less -/

theorem removeRectangle_ok (region : Rectangle) (filled : region.Nonempty) (regions : List Rectangle)
    (apart : Apart pixels regions) :
    Apart pixels (removeRectangle regions region) ∧
      covered pixels (removeRectangle regions region) = covered pixels regions \ pixels region := by
  constructor
  · apply apart.flatMap
    intro r member
    constructor
    · exact apart_subtractRect r region (pixels_nonempty.mp (apart.filled r member))
    · rw [show r.subtract region.x region.y region.width region.height = r.subtractRect region from rfl,
        covered_subtractRect r region filled]
      exact Finset.sdiff_subset
  · apply covered_flatMap
    intro r member
    exact covered_subtractRect r region filled

/-! ### Any number of calls -/

inductive Call
  | add (region : Rectangle)
  | remove (region : Rectangle)

def Call.region : Call → Rectangle
  | .add region | .remove region => region

/-- The values that `add_rectangle` returns, and the list after the last call. -/
def calls (depth : Nat) : List Rectangle → List Call → Option (List Int × List Rectangle)
  | regions, [] => some ([], regions)
  | regions, .add region :: rest => do
      let (added, regions) ← addRectangle depth regions region
      let (totals, regions) ← calls depth regions rest
      some (added :: totals, regions)
  | regions, .remove region :: rest => calls depth (removeRectangle regions region) rest

/-- The same calls on a set of pixels, which count the pixels that are new. -/
noncomputable def callsOnPixels : Finset (Int × Int) → List Call → List Int × Finset (Int × Int)
  | s, [] => ([], s)
  | s, .add region :: rest =>
      let (totals, t) := callsOnPixels (s ∪ pixels region) rest
      (((pixels region \ s).card : Int) :: totals, t)
  | s, .remove region :: rest => callsOnPixels (s \ pixels region) rest

/-- The number of pixels that the calls remove. -/
noncomputable def removedPixels : Finset (Int × Int) → List Call → Int
  | _, [] => 0
  | s, .add region :: rest => removedPixels (s ∪ pixels region) rest
  | s, .remove region :: rest =>
      ((s ∩ pixels region).card : Int) + removedPixels (s \ pixels region) rest

def totalArea (regions : List Rectangle) : Int := (regions.map fun r => r.width * r.height).sum

theorem totalArea_eq {regions : List Rectangle} (apart : Apart pixels regions) :
    totalArea regions = (covered pixels regions).card := by
  rw [apart.card_covered, totalArea]
  clear apart
  induction regions with
  | nil => rfl
  | cons r regions ih => simp [ih, card_pixels]

/-- Every pixel there is was added and not removed. -/
theorem callsOnPixels_card (s : Finset (Int × Int)) (cs : List Call) :
    ((callsOnPixels s cs).2.card : Int) = s.card + (callsOnPixels s cs).1.sum - removedPixels s cs := by
  induction cs generalizing s with
  | nil => simp [callsOnPixels, removedPixels]
  | cons c cs ih =>
      cases c with
      | add region =>
          have grown : ((s ∪ pixels region).card : Int) = s.card + (pixels region \ s).card := by
            rw [← Finset.union_sdiff_self_eq_union,
              Finset.card_union_of_disjoint Finset.disjoint_sdiff, Nat.cast_add]
          simp only [callsOnPixels, removedPixels, List.sum_cons, ih, grown]
          omega
      | remove region =>
          have shrunk := Finset.card_sdiff_add_card_inter s (pixels region)
          simp only [callsOnPixels, removedPixels, ih]
          omega

theorem calls_ok (cs : List Call) (filled : ∀ c ∈ cs, c.region.Nonempty)
    (regions : List Rectangle) (apart : Apart pixels regions) :
    ∃ totals regions',
      (∀ depth : Nat, (∀ c ∈ cs, c.region.width * c.region.height < depth) →
        calls depth regions cs = some (totals, regions')) ∧
      Apart pixels regions' ∧
      callsOnPixels (covered pixels regions) cs = (totals, covered pixels regions') := by
  induction cs generalizing regions with
  | nil => exact ⟨[], regions, fun _ _ => rfl, apart, rfl⟩
  | cons c cs ih =>
      obtain ⟨first, others⟩ := List.forall_mem_cons.mp filled
      cases c with
      | add region =>
          have area := card_pixels region
          obtain ⟨regions', added, apart', covers⟩ :=
            addRectangle_ok ((pixels region).card + 1) region first (by omega) regions apart
          obtain ⟨totals, regions'', rest, apart'', onPixels⟩ := ih others regions' apart'
          refine ⟨((pixels region \ covered pixels regions).card : Int) :: totals, regions'', ?_, apart'', ?_⟩
          · intro depth enough
            obtain ⟨firstEnough, restEnough⟩ := List.forall_mem_cons.mp enough
            have deeper : (pixels region).card + 1 ≤ depth := by
              have bound : region.width * region.height < depth := firstEnough
              omega
            simp only [calls, addRectangle_deeper deeper _ _ _ added, rest depth restEnough,
              Option.bind_eq_bind, Option.bind_some]
          · simp only [callsOnPixels, ← covers, onPixels]
      | remove region =>
          obtain ⟨apart', covers⟩ := removeRectangle_ok region first regions apart
          obtain ⟨totals, regions'', rest, apart'', onPixels⟩ := ih others _ apart'
          refine ⟨totals, regions'', ?_, apart'', ?_⟩
          · intro depth enough
            exact rest depth (List.forall_mem_cons.mp enough).2
          · rw [callsOnPixels, ← covers, onPixels]

/-- Any calls with rectangles that have pixels end, keep the list a cover without overlap of the set
of pixels that is left, return the numbers of new pixels, and what they return without what is
removed is what the area grows by. -/
theorem region_algebra (regions : List Rectangle) (apart : Apart pixels regions) (cs : List Call)
    (filled : ∀ c ∈ cs, c.region.Nonempty) :
    ∃ totals regions',
      (∀ depth : Nat, (∀ c ∈ cs, c.region.width * c.region.height < depth) →
        calls depth regions cs = some (totals, regions')) ∧
      Apart pixels regions' ∧
      callsOnPixels (covered pixels regions) cs = (totals, covered pixels regions') ∧
      totalArea regions' =
        totalArea regions + totals.sum - removedPixels (covered pixels regions) cs := by
  obtain ⟨totals, regions', run, apart', onPixels⟩ := calls_ok cs filled regions apart
  have balance := callsOnPixels_card (covered pixels regions) cs
  rw [onPixels] at balance
  refine ⟨totals, regions', run, apart', onPixels, ?_⟩
  rw [totalArea_eq apart', totalArea_eq apart]
  exact balance

/-- A square over the corner of another one, and a hole in both. -/
theorem region_algebra_corner :
    let cs : List Call := [.add ⟨0, 0, 20, 20, by decide⟩, .add ⟨10, 10, 20, 20, by decide⟩,
      .remove ⟨5, 5, 10, 10, by decide⟩]
    ∃ totals regions',
      (∀ depth : Nat, (∀ c ∈ cs, c.region.width * c.region.height < depth) →
        calls depth [] cs = some (totals, regions')) ∧
      Apart pixels regions' ∧
      callsOnPixels (covered pixels []) cs = (totals, covered pixels regions') ∧
      totalArea regions' = totalArea [] + totals.sum - removedPixels (covered pixels []) cs :=
  region_algebra [] Apart.nil _ (by
    intro c member
    simp only [List.mem_cons, List.not_mem_nil, or_false] at member
    rcases member with rfl | rfl | rfl
    all_goals exact ⟨by decide, by decide⟩)

/-- The corner that both squares have is added once. -/
example : (calls 401 [] [.add ⟨0, 0, 20, 20, by decide⟩, .add ⟨10, 10, 20, 20, by decide⟩]).map
    Prod.fst = some [400, 300] := by decide

end Catlink.Util
