import Mathlib.Data.List.Basic
import Mathlib.Data.Prod.Basic

/-! Blocks of two halves that are mixed in rounds, with a function that need not be invertible. -/

namespace Catlink.Feistel

variable {α κ : Type} (mix : α → α → α) (f : κ → α → α)

/-- The halves change places, and one is mixed with a value of the other one. -/
def round (block : α × α) (key : κ) : α × α := (block.2, mix block.1 (f key block.2))

def rounds (keys : List κ) (block : α × α) : α × α := keys.foldl (round mix f) block

@[simp] theorem rounds_nil (block : α × α) : rounds mix f [] block = block := rfl

@[simp] theorem rounds_cons (key : κ) (keys : List κ) (block : α × α) :
    rounds mix f (key :: keys) block = rounds mix f keys (round mix f block key) := rfl

theorem rounds_append (keys keys' : List κ) (block : α × α) :
    rounds mix f (keys ++ keys') block = rounds mix f keys' (rounds mix f keys block) :=
  List.foldl_append

variable {mix}

/-- A round is undone by the same round, with the halves in the other order. -/
theorem round_swap (cancels : ∀ a b, mix (mix a b) b = a) (block : α × α) (key : κ) :
    round mix f (round mix f block key).swap key = block.swap := by
  unfold round
  dsimp only [Prod.swap]
  rw [cancels]

/-- All rounds are undone by the same ones with the keys in reverse. -/
theorem rounds_reverse (cancels : ∀ a b, mix (mix a b) b = a) (keys : List κ) (block : α × α) :
    rounds mix f keys.reverse (rounds mix f keys block).swap = block.swap := by
  induction keys generalizing block with
  | nil => rfl
  | cons key keys ih =>
      rw [List.reverse_cons, rounds_append, rounds_cons mix f key keys block, ih, rounds_cons, rounds_nil]
      exact round_swap f cancels block key

/-- What both halves keep through every round. -/
theorem rounds_invariant {P : α → Prop} (kept : ∀ key a b, P a → P b → P (mix a (f key b)))
    (keys : List κ) {block : α × α} (both : P block.1 ∧ P block.2) :
    P (rounds mix f keys block).1 ∧ P (rounds mix f keys block).2 := by
  induction keys generalizing block with
  | nil => exact both
  | cons key keys ih => exact ih ⟨both.2, kept key block.1 block.2 both.1 both.2⟩

end Catlink.Feistel
