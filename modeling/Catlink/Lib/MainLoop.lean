import Mathlib.Data.List.Basic
import Mathlib.Data.List.Nodup
import Mathlib.Logic.Function.Basic

/-! The sources of a main loop: timers and idle callbacks by their number. -/

namespace Catlink.MainLoop

/-- The sources that are armed, with their callbacks. Numbers are never used again. -/
structure Sources (α : Type) where
  next : Nat
  sources : List (Nat × α)
  fresh : ∀ source ∈ sources, source.1 < next
  distinct : (sources.map Prod.fst).Nodup

variable {α : Type}

namespace Sources

def start : Sources α := ⟨1, [], by simp, by simp⟩

/-- `timeout_add(delay, callback)`, or `idle_add`; the new source has the number `next`. -/
def add (l : Sources α) (callback : α) : Sources α where
  next := l.next + 1
  sources := l.sources ++ [(l.next, callback)]
  fresh := by
    intro source member
    rcases List.mem_append.mp member with old | new
    · exact Nat.lt_succ_of_lt (l.fresh source old)
    · rw [List.mem_singleton.mp new]
      exact Nat.lt_succ_self _
  distinct := by
    rw [List.map_append, List.nodup_append]
    refine ⟨l.distinct, by simp, ?_⟩
    intro number old number' new same
    obtain ⟨source, member, rfl⟩ := List.mem_map.mp old
    have below := l.fresh source member
    rw [List.map_singleton, List.mem_singleton] at new
    omega

/-- `source_remove(source)` -/
def remove (l : Sources α) (source : Nat) : Sources α where
  next := l.next
  sources := l.sources.filter fun entry => entry.1 ≠ source
  fresh entry member := l.fresh entry (List.mem_filter.mp member).1
  distinct := (List.filter_sublist.map Prod.fst).nodup l.distinct

theorem mem_add {l : Sources α} {callback : α} {entry : Nat × α} :
    entry ∈ (l.add callback).sources ↔ entry ∈ l.sources ∨ entry = (l.next, callback) := by
  simp [add]

theorem mem_remove {l : Sources α} {source : Nat} {entry : Nat × α} :
    entry ∈ (l.remove source).sources ↔ entry ∈ l.sources ∧ entry.1 ≠ source := by
  simp [remove]

/-- A number stands for one callback. -/
theorem callback_unique {l : Sources α} {source : Nat} {callback callback' : α}
    (one : (source, callback) ∈ l.sources) (two : (source, callback') ∈ l.sources) :
    callback = callback' := by
  have same := List.inj_on_of_nodup_map l.distinct one two rfl
  exact congrArg Prod.snd same

/-- Every kind of callback has a variable with the number of its source, 0 when there is none. -/
structure Slotted {ι : Type} (l : Sources α) (slot : α → Option ι) (timer : ι → Nat) : Prop where
  numbered : 0 < l.next
  armed : ∀ i, timer i ≠ 0 → ∃ callback, slot callback = some i ∧ (timer i, callback) ∈ l.sources
  only : ∀ source callback i, (source, callback) ∈ l.sources → slot callback = some i →
    source = timer i ∧ source ≠ 0

namespace Slotted

variable {ι : Type} {l : Sources α} {slot : α → Option ι} {timer : ι → Nat}

theorem start : (start : Sources α).Slotted slot fun _ => 0 := by
  constructor
  · exact Nat.one_pos
  · intro i armed
    exact absurd rfl armed
  · intro source callback i member
    exact absurd member (List.not_mem_nil)

/-- The new source's number is kept in its variable. -/
theorem arm [DecidableEq ι] (slots : l.Slotted slot timer) {callback : α} {i : ι}
    (own : slot callback = some i) (free : timer i = 0) :
    (l.add callback).Slotted slot (Function.update timer i l.next) := by
  constructor
  · exact Nat.succ_pos _
  · intro j armed
    by_cases same : j = i
    · rw [same, Function.update_self]
      exact ⟨callback, own, mem_add.mpr (.inr rfl)⟩
    · rw [Function.update_of_ne same] at armed ⊢
      obtain ⟨callback', kind, member⟩ := slots.armed j armed
      exact ⟨callback', kind, mem_add.mpr (.inl member)⟩
  · intro source callback' j member kind
    rcases mem_add.mp member with old | added
    · obtain ⟨known, armed⟩ := slots.only source callback' j old kind
      have other : j ≠ i := by
        intro same
        rw [same, free] at known
        exact armed known
      rw [Function.update_of_ne other]
      exact ⟨known, armed⟩
    · cases added
      rw [own] at kind
      cases kind
      rw [Function.update_self]
      exact ⟨rfl, Nat.ne_of_gt slots.numbered⟩

/-- A callback of no kind. -/
theorem add (slots : l.Slotted slot timer) {callback : α} (other : slot callback = none) :
    (l.add callback).Slotted slot timer := by
  constructor
  · exact Nat.succ_pos _
  · intro i armed
    obtain ⟨callback', kind, member⟩ := slots.armed i armed
    exact ⟨callback', kind, mem_add.mpr (.inl member)⟩
  · intro source callback' i member kind
    rcases mem_add.mp member with old | added
    · exact slots.only source callback' i old kind
    · cases added
      rw [other] at kind
      cases kind

/-- A source is removed, and its variable cleared. -/
theorem release [DecidableEq ι] (slots : l.Slotted slot timer) (i : ι) :
    (l.remove (timer i)).Slotted slot (Function.update timer i 0) := by
  constructor
  · exact slots.numbered
  · intro j armed
    have other : j ≠ i := by
      intro same
      rw [same, Function.update_self] at armed
      exact armed rfl
    rw [Function.update_of_ne other] at armed ⊢
    obtain ⟨callback, kind, member⟩ := slots.armed j armed
    refine ⟨callback, kind, mem_remove.mpr ⟨member, ?_⟩⟩
    intro same
    change timer j = timer i at same
    by_cases held : timer i = 0
    · exact armed (same.trans held)
    · obtain ⟨callback', kind', member'⟩ := slots.armed i held
      rw [same] at member
      rw [callback_unique member member', kind'] at kind
      cases kind
      exact other rfl
  · intro source callback j member kind
    obtain ⟨member, apart⟩ := mem_remove.mp member
    obtain ⟨known, armed⟩ := slots.only source callback j member kind
    have other : j ≠ i := by
      intro same
      rw [same] at known
      exact apart known
    rw [Function.update_of_ne other]
    exact ⟨known, armed⟩

/-- A source of no kind is removed. -/
theorem remove (slots : l.Slotted slot timer) {source : Nat} {callback : α}
    (here : (source, callback) ∈ l.sources) (other : slot callback = none) :
    (l.remove source).Slotted slot timer := by
  constructor
  · exact slots.numbered
  · intro i armed
    obtain ⟨callback', kind, member⟩ := slots.armed i armed
    refine ⟨callback', kind, mem_remove.mpr ⟨member, ?_⟩⟩
    intro same
    change timer i = source at same
    rw [same] at member
    rw [callback_unique member here, other] at kind
    cases kind
  · intro source' callback' i member kind
    exact slots.only source' callback' i (mem_remove.mp member).1 kind

/-- No source of a kind without a number. -/
theorem absent (slots : l.Slotted slot timer) {i : ι} (free : timer i = 0) {callback : α}
    (kind : slot callback = some i) (source : Nat) : (source, callback) ∉ l.sources := by
  intro member
  obtain ⟨known, armed⟩ := slots.only source callback i member kind
  exact armed (known.trans free)

end Slotted

/-- A variable for every kind of callback, with the number of the last source of the kind, 0 when it
was removed. The sources of a `single` kind are never replaced by a later one. -/
structure Tracked {ι : Type} (l : Sources α) (kind : α → ι) (single : ι → Prop) (number : ι → Nat) :
    Prop where
  numbered : 0 < l.next
  armed : ∀ i, number i ≠ 0 → ∃ callback, kind callback = i ∧ (number i, callback) ∈ l.sources
  only : ∀ source callback, (source, callback) ∈ l.sources → single (kind callback) →
    source = number (kind callback) ∧ source ≠ 0

namespace Tracked

variable {ι : Type} {l : Sources α} {kind : α → ι} {single : ι → Prop} {number : ι → Nat}

theorem start : (start : Sources α).Tracked kind single fun _ => 0 := by
  constructor
  · exact Nat.one_pos
  · intro i armed
    exact absurd rfl armed
  · intro source callback member
    exact absurd member List.not_mem_nil

/-- The number of a new source replaces the last one of its kind. -/
theorem arm [DecidableEq ι] (tracked : l.Tracked kind single number) (callback : α)
    (free : single (kind callback) → number (kind callback) = 0) :
    (l.add callback).Tracked kind single (Function.update number (kind callback) l.next) := by
  constructor
  · exact Nat.succ_pos _
  · intro i armed
    by_cases same : i = kind callback
    · rw [same, Function.update_self]
      exact ⟨callback, rfl, mem_add.mpr (.inr rfl)⟩
    · rw [Function.update_of_ne same] at armed ⊢
      obtain ⟨other, own, member⟩ := tracked.armed i armed
      exact ⟨other, own, mem_add.mpr (.inl member)⟩
  · intro source other member one
    rcases mem_add.mp member with old | new
    · obtain ⟨known, armed⟩ := tracked.only source other old one
      have apart : kind other ≠ kind callback := by
        intro same
        rw [same, free (same ▸ one)] at known
        exact armed known
      rw [Function.update_of_ne apart]
      exact ⟨known, armed⟩
    · cases new
      rw [Function.update_self]
      exact ⟨rfl, Nat.ne_of_gt tracked.numbered⟩

/-- A source that no variable is for. -/
theorem add (tracked : l.Tracked kind single number) {callback : α} (many : ¬ single (kind callback)) :
    (l.add callback).Tracked kind single number := by
  constructor
  · exact Nat.succ_pos _
  · intro i armed
    obtain ⟨other, own, member⟩ := tracked.armed i armed
    exact ⟨other, own, mem_add.mpr (.inl member)⟩
  · intro source other member one
    rcases mem_add.mp member with old | new
    · exact tracked.only source other old one
    · cases new
      exact absurd one many

/-- A source is removed, and the variable of its kind cleared. -/
theorem drop [DecidableEq ι] (tracked : l.Tracked kind single number) {source : Nat} {callback : α}
    (here : (source, callback) ∈ l.sources) :
    (l.remove source).Tracked kind single (Function.update number (kind callback) 0) := by
  constructor
  · exact tracked.numbered
  · intro i armed
    have other : i ≠ kind callback := by
      intro same
      rw [same, Function.update_self] at armed
      exact armed rfl
    rw [Function.update_of_ne other] at armed ⊢
    obtain ⟨callback', own, member⟩ := tracked.armed i armed
    refine ⟨callback', own, mem_remove.mpr ⟨member, ?_⟩⟩
    intro same
    change number i = source at same
    rw [same] at member
    rw [callback_unique member here] at own
    exact other own.symm
  · intro source' callback' member one
    obtain ⟨member, apart⟩ := mem_remove.mp member
    obtain ⟨known, armed⟩ := tracked.only source' callback' member one
    by_cases same : kind callback' = kind callback
    · obtain ⟨first, -⟩ := tracked.only source callback here (same ▸ one)
      rw [same] at known
      exact absurd (known.trans first.symm) apart
    · rw [Function.update_of_ne same]
      exact ⟨known, armed⟩

end Tracked

end Sources

end Catlink.MainLoop
