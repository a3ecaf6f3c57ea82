import Catlink.Client.Gravity

/-! What a window backing does with the pictures and the scrolls of an update. -/

namespace Catlink.Client

open Paint

/-- `(x, y, w, h, xdelta, ydelta)` -/
structure Scroll where
  x : Int
  y : Int
  w : Nat
  h : Nat
  xdelta : Int
  ydelta : Int
  deriving DecidableEq

inductive Body (C : Type)
  | scroll (scrolls : List Scroll)
  /-- what the decoder makes of the data, in the size of the packet -/
  | picture (colour : Nat → Nat → C)

/-- A draw packet. -/
structure Draw (C : Type) where
  x : Int
  y : Int
  width : Nat
  height : Nat
  coding : String
  body : Body C
  flush : Int
  /-- the `window-size` option, empty when there is none -/
  windowSize : List Int

/-- The point is in the rectangle. -/
def Within (x y : Int) (w h : Nat) (p : Int × Int) : Prop :=
  (x ≤ p.1 ∧ p.1 < x + w) ∧ y ≤ p.2 ∧ p.2 < y + h

instance (x y : Int) (w h : Nat) (p : Int × Int) : Decidable (Within x y w h p) :=
  inferInstanceAs (Decidable (_ ∧ _))

namespace Backing

variable {C : Type}

/-- The rectangle filled from the old surface, which has no colour outside. -/
def scrollStroke (old : Backing C) (scroll : Scroll) : Stroke (Int × Int) (Option C) where
  covers p := Within (scroll.x + scroll.xdelta) (scroll.y + scroll.ydelta) scroll.w scroll.h p ∧ old.inside p
  colour p :=
    let q := (p.1 - scroll.xdelta, p.2 - scroll.ydelta)
    if old.inside q then old.pixels q else none

/-- The new surface of `create_surface` has a copy of the old one. -/
def doPaintScroll (backing : Backing C) (scrolls : List Scroll) : Backing C :=
  let created := backing.resize backing.size.1 backing.size.2
  { created with pixels := Paint.paint (scrolls.map backing.scrollStroke) created.pixels }

def pictureStroke (backing : Backing C) (x y : Int) (w h : Nat) (colour : Nat → Nat → C) :
    Stroke (Int × Int) (Option C) where
  covers p := Within x y w h p ∧ backing.inside p
  colour p := some (colour (p.1 - x).toNat (p.2 - y).toNat)

def cairoPaintFromSource (backing : Backing C) (x y : Int) (w h : Nat) (colour : Nat → Nat → C) :
    Backing C :=
  { backing with pixels := (backing.pictureStroke x y w h colour).apply backing.pixels }

/-- An error is only reported. -/
def drawRegion (backing : Backing C) (draw : Draw C) : Backing C :=
  match draw.body with
  | .scroll scrolls => backing.doPaintScroll scrolls
  | .picture colour =>
      match gravityAdjust backing.gravity backing.size draw.x draw.y draw.windowSize with
      | .ok (x, y) => backing.cairoPaintFromSource x y draw.width draw.height colour
      | .error _ => backing

/-! ### Strokes on a backing -/

/-- Inside, `backing'` is `backing` with these strokes. -/
structure Painted (backing : Backing C) (strokes : List (Stroke (Int × Int) (Option C)))
    (backing' : Backing C) : Prop where
  gravity : backing'.gravity = backing.gravity
  size : backing'.size = backing.size
  pixels : ∀ p, backing.inside p → backing'.pixels p = Paint.paint strokes backing.pixels p

variable {backing backing' backing'' : Backing C} {strokes strokes' : List (Stroke (Int × Int) (Option C))}

theorem inside_congr (same : backing'.size = backing.size) (p : Int × Int) :
    backing'.inside p ↔ backing.inside p := by
  unfold inside
  rw [same]

theorem Painted.refl (backing : Backing C) : backing.Painted [] backing :=
  ⟨rfl, rfl, fun _ _ => rfl⟩

theorem Painted.trans (first : backing.Painted strokes backing')
    (second : backing'.Painted strokes' backing'') : backing.Painted (strokes ++ strokes') backing'' := by
  constructor
  · exact second.gravity.trans first.gravity
  · exact second.size.trans first.size
  · intro p inside
    rw [second.pixels p ((inside_congr first.size p).mpr inside), paint_append]
    exact paint_congr strokes' (first.pixels p inside)

theorem gravityCopyCoords_same (g w h : Int) : gravityCopyCoords g w h w h = ⟨0, 0, 0, 0, w, h⟩ := by
  have centre : ∀ n : Int, copyCenter n n = (0, 0) := by
    intro n
    simp [copyCenter]
  have far : ∀ n : Int, copyFar n n = (0, 0) := by
    intro n
    simp [copyFar]
  unfold gravityCopyCoords
  simp only [centre, far, copyNear, ite_self, min_self]

/-- A surface of the same size is a copy. -/
theorem resize_same (backing : Backing C) {p : Int × Int} (inside : backing.inside p) :
    (backing.resize backing.size.1 backing.size.2).pixels p = backing.pixels p := by
  have coords : backing.copyCoords backing.size.1 backing.size.2 = ⟨0, 0, 0, 0, backing.size.1, backing.size.2⟩ :=
    gravityCopyCoords_same _ _ _
  rw [resize_pixels, coords, if_pos]
  · simp [CopyCoords.source]
  · unfold Backing.inside at inside
    unfold CopyCoords.covers
    dsimp only
    omega

theorem painted_scroll (backing : Backing C) (scrolls : List Scroll) :
    backing.Painted (scrolls.map backing.scrollStroke) (backing.doPaintScroll scrolls) :=
  ⟨rfl, rfl, fun _ inside => paint_congr _ (backing.resize_same inside)⟩

/-- A packet for the size that the backing has, or for none, goes where it says. -/
theorem painted_picture (backing : Backing C) (draw : Draw C) {colour : Nat → Nat → C}
    (body : draw.body = .picture colour)
    (sized : draw.windowSize = [] ∨ draw.windowSize = [backing.size.1, backing.size.2]) :
    backing.Painted [backing.pictureStroke draw.x draw.y draw.width draw.height colour]
      (backing.drawRegion draw) := by
  have adjusted : gravityAdjust backing.gravity backing.size draw.x draw.y draw.windowSize =
      .ok (draw.x, draw.y) := by
    unfold gravityAdjust
    rcases sized with unset | same
    · rw [if_pos unset]
    · rw [if_neg (by rw [same]; exact List.cons_ne_nil _ _), if_pos same]
  unfold drawRegion
  rw [body]
  simp only [adjusted]
  exact ⟨rfl, rfl, fun _ _ => rfl⟩

end Backing

end Catlink.Client
