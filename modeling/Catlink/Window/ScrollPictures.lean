import Catlink.Window.ScrollSame
import Catlink.Window.ScrollThreads

/-! Two pictures of one size after another, each at its own place, and what the client shows of the second. -/

namespace Catlink.ScrollEncode

open Paint Rows Window Client ScrollData

variable {C : Type} {xxh3 : Bytes → UInt64} {look : String → Bytes → C}

/-! ### What is claimed -/

/-- A picture of this size at this place. -/
structure At (image : Frame) (w h : Nat) (place : Int × Int) : Prop where
  width : image.width = w
  height : image.height = h
  x : image.targetX = place.1
  y : image.targetY = place.2

/-- Scroll detection takes the checksums of the picture. -/
structure Compared (image : Frame) (options : Options) : Prop where
  unused : options.scroll = false
  width : image.width < 32000
  height : image.height < 32000
  pixels : image.pixels ≠ []

/-- Lines with the same checksum look the same. -/
def Alike (xxh3 : Bytes → UInt64) (look : String → Bytes → C) (before after : Frame) : Prop :=
  ∀ j < before.height, ∀ j' < after.height, xxh3 (before.row j) = xxh3 (after.row j') →
    ∀ i < after.width, before.colour look i j = after.colour look i j'

/-- `before` is compared, and `after` is scrolled to the end while the client has `client`. -/
inductive Processed (xxh3 : Bytes → UInt64) (look : String → Bytes → C) (dimensions : Nat × Nat)
    (before after : Frame) (client : Backing C) : WindowVideoSource C → Prop
  | intro {env env' : Env C} {s s' : WindowVideoSource C} {options options' options'' : Options}
      {minPercent minPercent' : Int} {first : Outcome C Bool} (window : s.windowDimensions = dimensions)
      (compared : Compared before options)
      (first_ends : doScrollEncode xxh3 env s before options minPercent = some first)
      (subs : Subs (fun _ => True) look env')
      (sized : options'.windowSize = [] ∨ options'.windowSize = [client.size.1, client.size.2])
      (ends : doScrollEncode xxh3 env' { first.source with client } after options' minPercent' =
        some ⟨s', options'', .ok true⟩) : Processed xxh3 look dimensions before after client s'

/-- Whatever the two pictures are: when the client shows the first one at `a`, it shows the second one at
`b` after that, and nothing else has changed. -/
def Moves (xxh3 : Bytes → UInt64) (look : String → Bytes → C) (dimensions : Nat × Nat) (w h : Nat)
    (a b : Int × Int) : Prop :=
  ∀ before after, At before w h a → At after w h b → Alike xxh3 look before after →
    ∀ (client : Backing C) s', client.size = ((dimensions.1 : Int), (dimensions.2 : Int)) →
      Shows look client before → Processed xxh3 look dimensions before after client s' →
      Shows look s'.client after ∧ Outside after client s'.client

/-! ### The first picture -/

theorem Compared.detected {image : Frame} {options : Options} (compared : Compared image options) :
    ¬ (options.scroll = true ∨ image.width ≥ 32000 ∨ image.height ≥ 32000) := by
  rintro (used | wide | high)
  · rw [compared.unused] at used
    cases used
  · exact absurd compared.width (Nat.not_lt.mpr wide)
  · exact absurd compared.height (Nat.not_lt.mpr high)

section

variable {env : Env C} {s : WindowVideoSource C} {sd : ScrollData} {image : Frame} {options : Options}

theorem Checked.congr {s' : WindowVideoSource C} (checked : Checked xxh3 s image)
    (same : s'.scrollData = s.scrollData ∧ s'.compared = s.compared) : Checked xxh3 s' image := by
  intro sd a2 known second
  rw [same.1] at known
  rw [same.2]
  exact checked sd a2 known second

end

/-! ### The second picture -/

/-- The lines of the first picture can be moved when the second one is at its place. -/
theorem Checked.movable {s : WindowVideoSource C} {before after : Frame} {client : Backing C}
    (checked : Checked xxh3 s before) (shows : Shows look client before) (alike : Alike xxh3 look before after)
    (width : before.width = after.width) (height : before.height = after.height)
    (x : before.targetX = after.targetX) (y : before.targetY = after.targetY) {sd : ScrollData}
    (updates : Updated xxh3 (s.scrollData.getD .new) after sd) :
    Movable look client after sd.a1 (checksums xxh3 after) := by
  intro a first j below nonzero j' below' same i left
  obtain ⟨second, -, -⟩ := updates.a1 a first
  cases known : s.scrollData with
  | none =>
      rw [known] at second
      cases second
  | some held =>
      rw [known] at second
      obtain ⟨-, describes⟩ := checked held a known second
      have line := describes.lines j (height ▸ below) nonzero
      have colours := alike j (height ▸ below) j' below'
        (by rw [← line, same, checksums_getD xxh3 after below']) i left
      rw [← x, ← y, shows _ (before.covers_add (width ▸ left) (height ▸ below)), before.colourAt_add look i j,
        colours]

/-- There are `h` lines of this width that their checksums tell apart. -/
def Tells (xxh3 : Bytes → UInt64) (w h : Nat) : Prop :=
  ∃ line : Nat → Bytes, ∀ j < h, (line j).length = w * 4 ∧ xxh3 (line j) ≠ 0 ∧
    ∀ j' < h, xxh3 (line j') = xxh3 (line j) → j' = j

end Catlink.ScrollEncode
