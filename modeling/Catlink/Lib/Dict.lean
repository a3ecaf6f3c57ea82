import Mathlib.Data.List.Perm.Basic
import Mathlib.Data.List.Dedup

/-! Dictionaries as lists of entries in the order of insertion. -/

namespace Catlink.Dict

variable {K V : Type} [DecidableEq K]

/-- `d[key] = value` -/
def set : List (K × V) → K → V → List (K × V)
  | [], key, value => [(key, value)]
  | entry :: d, key, value =>
      if entry.1 = key then (key, value) :: d else entry :: set d key value

/-- `d.setdefault(key, []).append(value)` -/
def appendTo : List (K × List V) → K → V → List (K × List V)
  | [], key, value => [(key, [value])]
  | entry :: d, key, value =>
      if entry.1 = key then (key, entry.2 ++ [value]) :: d else entry :: appendTo d key value

/-- `d.pop(key)`: the value, and the entries that are left -/
def pop : List (K × V) → K → Option (V × List (K × V))
  | [], _ => none
  | entry :: d, key =>
      if entry.1 = key then some (entry.2, d)
      else (pop d key).map fun found => (found.1, entry :: found.2)

/-- `d.get(key)` -/
def get : List (K × V) → K → Option V
  | [], _ => none
  | entry :: d, key => if entry.1 = key then some entry.2 else get d key

/-- `d.pop(key, None)`, without its value -/
def erase (d : List (K × V)) (key : K) : List (K × V) := d.filter fun entry => entry.1 ≠ key

theorem get_mem {d : List (K × V)} {key : K} {value : V} (found : get d key = some value) :
    (key, value) ∈ d := by
  induction d with
  | nil => cases found
  | cons entry d ih =>
      rw [get] at found
      split at found
      · next same =>
          cases found
          rw [← same]
          exact List.mem_cons_self
      · exact List.mem_cons_of_mem _ (ih found)

theorem get_none {d : List (K × V)} {key : K} (absent : get d key = none) :
    ∀ entry ∈ d, entry.1 ≠ key := by
  induction d with
  | nil => simp
  | cons entry d ih =>
      rw [get] at absent
      split at absent
      · cases absent
      · next other =>
          intro found member
          rcases List.mem_cons.mp member with rfl | member
          · exact other
          · exact ih absent found member

theorem mem_get {d : List (K × V)} (distinct : (d.map Prod.fst).Nodup) {key : K} {value : V}
    (member : (key, value) ∈ d) : get d key = some value := by
  cases found : get d key with
  | none => exact absurd rfl (get_none found _ member)
  | some value' =>
      have same := List.inj_on_of_nodup_map distinct (get_mem found) member rfl
      rw [Prod.mk.injEq] at same
      rw [same.2]

theorem get_erase (d : List (K × V)) (key key' : K) :
    get (erase d key) key' = if key = key' then none else get d key' := by
  induction d with
  | nil => simp [erase, get]
  | cons entry d ih =>
      rw [erase, List.filter_cons]
      split
      · next kept =>
          rw [decide_eq_true_eq] at kept
          rw [get, get, ← erase, ih]
          split
          · next same =>
              rw [if_neg fun other => kept (same.trans other.symm)]
          · rfl
      · next dropped =>
          rw [decide_eq_true_eq, not_not] at dropped
          rw [← erase, ih]
          split
          · rfl
          · next other => rw [get, if_neg (dropped ▸ other)]

theorem get_of_erase {d : List (K × V)} {key key' : K} {value : V}
    (found : get (erase d key) key' = some value) : get d key' = some value := by
  rw [get_erase] at found
  split at found
  · cases found
  · exact found

theorem get_set (d : List (K × V)) (key key' : K) (value : V) :
    get (set d key value) key' = if key = key' then some value else get d key' := by
  induction d with
  | nil => rfl
  | cons entry d ih =>
      rw [set]
      split
      · next same =>
          rw [get, get, same]
          split <;> rfl
      · next other =>
          rw [get, get, ih]
          split
          · next here => rw [if_neg fun there => other (here.trans there.symm)]
          · rfl

theorem mem_erase {d : List (K × V)} {key : K} {entry : K × V} :
    entry ∈ erase d key ↔ entry ∈ d ∧ entry.1 ≠ key := by
  simp [erase]

theorem erase_distinct {d : List (K × V)} (distinct : (d.map Prod.fst).Nodup) (key : K) :
    ((erase d key).map Prod.fst).Nodup :=
  (List.filter_sublist.map Prod.fst).nodup distinct

theorem mem_set {d : List (K × V)} (distinct : (d.map Prod.fst).Nodup) {key : K} {value : V}
    {entry : K × V} :
    entry ∈ set d key value ↔ entry = (key, value) ∨ (entry ∈ d ∧ entry.1 ≠ key) := by
  induction d with
  | nil => simp [set]
  | cons first d ih =>
      rw [List.map_cons, List.nodup_cons] at distinct
      rw [set]
      split
      · next same =>
          rw [List.mem_cons, List.mem_cons]
          constructor
          · rintro (new | old)
            · exact .inl new
            · refine .inr ⟨.inr old, ?_⟩
              intro here
              exact distinct.1 (List.mem_map.mpr ⟨entry, old, here.trans same.symm⟩)
          · rintro (new | ⟨rfl | old, other⟩)
            · exact .inl new
            · exact absurd same other
            · exact .inr old
      · next differs =>
          rw [List.mem_cons, List.mem_cons, ih distinct.2]
          constructor
          · rintro (rfl | new | ⟨old, other⟩)
            · exact .inr ⟨.inl rfl, differs⟩
            · exact .inl new
            · exact .inr ⟨.inr old, other⟩
          · rintro (new | ⟨rfl | old, other⟩)
            · exact .inr (.inl new)
            · exact .inl rfl
            · exact .inr (.inr ⟨old, other⟩)

theorem of_mem_set {d : List (K × V)} {key : K} {value : V} {entry : K × V}
    (member : entry ∈ set d key value) : entry = (key, value) ∨ entry ∈ d := by
  induction d with
  | nil => exact .inl (List.mem_singleton.mp member)
  | cons first d ih =>
      rw [set] at member
      split at member
      · rcases List.mem_cons.mp member with new | old
        · exact .inl new
        · exact .inr (List.mem_cons_of_mem _ old)
      · rcases List.mem_cons.mp member with rfl | later
        · exact .inr List.mem_cons_self
        · rcases ih later with new | old
          · exact .inl new
          · exact .inr (List.mem_cons_of_mem _ old)

/-- The keys are those of before, and the new one last. -/
theorem set_keys (d : List (K × V)) (key : K) (value : V) :
    (set d key value).map Prod.fst =
      if key ∈ d.map Prod.fst then d.map Prod.fst else d.map Prod.fst ++ [key] := by
  induction d with
  | nil => simp [set]
  | cons entry d ih =>
      rw [set]
      split
      · next same => simp [same]
      · next other =>
          have apart : key ≠ entry.1 := fun same => other same.symm
          rw [List.map_cons, ih, List.map_cons]
          by_cases old : key ∈ d.map Prod.fst
          · rw [if_pos old, if_pos (List.mem_cons_of_mem _ old)]
          · rw [if_neg old, if_neg (by rw [List.mem_cons, not_or]; exact ⟨apart, old⟩),
              List.cons_append]

theorem mem_keys_set {d : List (K × V)} {key key' : K} {value : V} :
    key' ∈ (set d key value).map Prod.fst ↔ key' = key ∨ key' ∈ d.map Prod.fst := by
  rw [set_keys]
  split
  · next there =>
      constructor
      · exact .inr
      · rintro (rfl | member)
        · exact there
        · exact member
  · rw [List.mem_append, List.mem_singleton, or_comm]

theorem mem_keys_erase {d : List (K × V)} {key key' : K} :
    key' ∈ (erase d key).map Prod.fst ↔ key' ∈ d.map Prod.fst ∧ key' ≠ key := by
  simp only [List.mem_map]
  constructor
  · rintro ⟨entry, member, rfl⟩
    obtain ⟨member, other⟩ := mem_erase.mp member
    exact ⟨⟨entry, member, rfl⟩, other⟩
  · rintro ⟨⟨entry, member, rfl⟩, other⟩
    exact ⟨entry, mem_erase.mpr ⟨member, other⟩, rfl⟩

theorem mem_keys_of_get {d : List (K × V)} {key : K} {value : V} (found : get d key = some value) :
    key ∈ d.map Prod.fst :=
  List.mem_map_of_mem (get_mem found)

/-- `key in d` -/
theorem isSome_get {d : List (K × V)} {key : K} :
    (get d key).isSome = true ↔ key ∈ d.map Prod.fst := by
  constructor
  · intro there
    obtain ⟨value, found⟩ := Option.isSome_iff_exists.mp there
    exact mem_keys_of_get found
  · intro member
    cases found : get d key with
    | none =>
        obtain ⟨entry, here, same⟩ := List.mem_map.mp member
        exact absurd same (get_none found entry here)
    | some value => rfl

/-- What does not tell the old value of a key from the new one. -/
theorem set_map {B : Type} (f : K × V → B) {d : List (K × V)} {key : K} {old value : V}
    (found : get d key = some old) (same : f (key, value) = f (key, old)) :
    (set d key value).map f = d.map f := by
  induction d with
  | nil => cases found
  | cons entry d ih =>
      rw [get] at found
      rw [set]
      split at found
      · next here =>
          cases found
          rw [if_pos here, List.map_cons, List.map_cons, same, ← here]
      · next other =>
          rw [if_neg other, List.map_cons, List.map_cons, ih found]

theorem set_distinct {d : List (K × V)} (distinct : (d.map Prod.fst).Nodup) (key : K) (value : V) :
    ((set d key value).map Prod.fst).Nodup := by
  rw [set_keys]
  split
  · exact distinct
  · next new =>
      rw [List.nodup_append]
      refine ⟨distinct, List.nodup_singleton _, ?_⟩
      intro one old two here same
      rw [List.mem_singleton] at here
      exact new (here ▸ same ▸ old)

theorem pop_perm {d rest : List (K × V)} {key : K} {value : V}
    (popped : pop d key = some (value, rest)) : d.Perm ((key, value) :: rest) := by
  induction d generalizing rest with
  | nil => cases popped
  | cons entry d ih =>
      rw [pop] at popped
      split at popped
      · next same =>
          cases popped
          rw [← same]
      · obtain ⟨⟨found, others⟩, inside, same⟩ := Option.map_eq_some_iff.mp popped
        cases same
        exact ((ih inside).cons entry).trans (List.Perm.swap _ _ _)

theorem pop_none {d : List (K × V)} {key : K} (absent : pop d key = none) :
    ∀ entry ∈ d, entry.1 ≠ key := by
  induction d with
  | nil => simp
  | cons entry d ih =>
      rw [pop] at absent
      split at absent
      · cases absent
      · next other =>
          intro found member
          rcases List.mem_cons.mp member with rfl | member
          · exact other
          · exact ih (Option.map_eq_none_iff.mp absent) found member

/-- With distinct keys, what is left are the other entries. -/
theorem mem_pop {d rest : List (K × V)} {key : K} {value : V}
    (distinct : (d.map Prod.fst).Nodup) (popped : pop d key = some (value, rest))
    (entry : K × V) : entry ∈ rest ↔ entry ∈ d ∧ entry.1 ≠ key := by
  have perm := pop_perm popped
  have apart : (((key, value) :: rest).map Prod.fst).Nodup :=
    (perm.map Prod.fst).nodup_iff.mp distinct
  rw [List.map_cons, List.nodup_cons] at apart
  rw [perm.mem_iff, List.mem_cons]
  constructor
  · intro member
    refine ⟨.inr member, ?_⟩
    intro same
    exact apart.1 (List.mem_map.mpr ⟨entry, member, same⟩)
  · rintro ⟨rfl | member, other⟩
    · exact absurd rfl other
    · exact member

/-- A new key comes last. -/
theorem set_new {d : List (K × V)} {key : K} (new : ∀ entry ∈ d, entry.1 ≠ key) (value : V) :
    set d key value = d ++ [(key, value)] := by
  induction d with
  | nil => rfl
  | cons entry d ih =>
      obtain ⟨other, others⟩ := List.forall_mem_cons.mp new
      rw [set, if_neg other, ih others, List.cons_append]

theorem pop_distinct {d rest : List (K × V)} {key : K} {value : V}
    (distinct : (d.map Prod.fst).Nodup) (popped : pop d key = some (value, rest)) :
    (rest.map Prod.fst).Nodup := by
  have apart := ((pop_perm popped).map Prod.fst).nodup_iff.mp distinct
  rw [List.map_cons, List.nodup_cons] at apart
  exact apart.2

theorem erase_new {d : List (K × V)} {key : K} (new : ∀ entry ∈ d, entry.1 ≠ key) :
    erase d key = d :=
  List.filter_eq_self.mpr fun entry member => decide_eq_true (new entry member)

/-- With distinct keys, an entry and the others. -/
theorem erase_set (d : List (K × V)) (key : K) (value : V) :
    erase (set d key value) key = erase d key := by
  induction d with
  | nil => simp [set, erase]
  | cons entry d ih =>
      unfold erase at ih
      rw [set]
      split
      · next same => simp [erase, same]
      · next other => simpa [erase, other] using ih

theorem erase_perm {d : List (K × V)} (distinct : (d.map Prod.fst).Nodup) {key : K} {value : V}
    (found : get d key = some value) : d.Perm ((key, value) :: erase d key) := by
  induction d with
  | nil => cases found
  | cons entry d ih =>
      rw [List.map_cons, List.nodup_cons] at distinct
      rw [get] at found
      split at found
      · next same =>
          cases found
          have others : ∀ other ∈ d, other.1 ≠ key := by
            intro other member here
            exact distinct.1 (List.mem_map.mpr ⟨other, member, here.trans same.symm⟩)
          have rest : erase (entry :: d) key = d := by
            rw [erase, List.filter_cons_of_neg (by simpa using same)]
            exact erase_new others
          rw [rest, ← same]
      · next other =>
          have rest : erase (entry :: d) key = entry :: erase d key := by
            rw [erase, List.filter_cons_of_pos (by simpa using other)]
            rfl
          rw [rest]
          exact ((ih distinct.2 found).cons entry).trans (List.Perm.swap _ _ _)

theorem set_perm {d : List (K × V)} (distinct : (d.map Prod.fst).Nodup) (key : K) (value : V) :
    (set d key value).Perm ((key, value) :: erase d key) := by
  induction d with
  | nil => exact List.Perm.refl _
  | cons entry d ih =>
      rw [List.map_cons, List.nodup_cons] at distinct
      rw [set]
      split
      · next same =>
          have others : ∀ other ∈ d, other.1 ≠ key := by
            intro other member here
            exact distinct.1 (List.mem_map.mpr ⟨other, member, here.trans same.symm⟩)
          have rest : erase (entry :: d) key = d := by
            rw [erase, List.filter_cons_of_neg (by simpa using same)]
            exact erase_new others
          rw [rest]
      · next other =>
          have rest : erase (entry :: d) key = entry :: erase d key := by
            rw [erase, List.filter_cons_of_pos (by simpa using other)]
            rfl
          rw [rest]
          exact ((ih distinct.2).cons entry).trans (List.Perm.swap _ _ _)

/-- An appended value is the last of its list. -/
theorem appendTo_eq_set (d : List (K × List V)) (key : K) (value : V) :
    appendTo d key value = set d key ((get d key).getD [] ++ [value]) := by
  induction d with
  | nil => rfl
  | cons entry d ih =>
      rw [appendTo, set, get]
      split
      · rfl
      · rw [ih]

theorem appendTo_perm (d : List (K × List V)) (key : K) (value : V) :
    ((appendTo d key value).flatMap Prod.snd).Perm (d.flatMap Prod.snd ++ [value]) := by
  induction d with
  | nil => simp [appendTo]
  | cons entry d ih =>
      rw [appendTo]
      split
      · simp only [List.flatMap_cons, List.append_assoc]
        apply List.Perm.append_left
        exact List.perm_append_comm
      · simp only [List.flatMap_cons, List.append_assoc]
        exact ih.append_left _

theorem get_append (d : List (K × V)) (key key' : K) (value : V) :
    get (d ++ [(key, value)]) key' = (get d key').or (if key = key' then some value else none) := by
  induction d with
  | nil => rfl
  | cons entry d ih =>
      rw [List.cons_append, get, get, ih]
      split
      · rfl
      · rfl

theorem countP_set (q : K × V → Bool) {d : List (K × V)} {key : K} {old : V}
    (found : get d key = some old) (value : V) :
    (set d key value).countP q + (if q (key, old) then 1 else 0) =
      d.countP q + (if q (key, value) then 1 else 0) := by
  induction d with
  | nil => cases found
  | cons entry d ih =>
      rw [get] at found
      rw [set]
      split at found
      · next here =>
          cases found
          rw [if_pos here, List.countP_cons, List.countP_cons, ← here]
          have whole : (entry.1, entry.2) = entry := rfl
          rw [whole]
          omega
      · next other =>
          rw [if_neg other, List.countP_cons, List.countP_cons]
          have rest := ih found
          omega

theorem countP_erase {q : K × V → Bool} {d : List (K × V)} {entry : K × V} (member : entry ∈ d)
    (counted : q entry = true) : (erase d entry.1).countP q < d.countP q := by
  obtain ⟨front, back, rfl⟩ := List.append_of_mem member
  have kept (part : List (K × V)) : (erase part entry.1).countP q ≤ part.countP q :=
    List.filter_sublist.countP_le
  have first := kept front
  have second := kept back
  have gone : erase (front ++ entry :: back) entry.1 = erase front entry.1 ++ erase back entry.1 := by
    simp [erase]
  rw [gone, List.countP_append, List.countP_append, List.countP_cons, if_pos counted]
  omega

end Catlink.Dict
