import Catlink.Net.Mmap
import Catlink.Lib.Runs
import Mathlib.Tactic

/-! Runs of a writer and a reader over one area: what is still in use is never written over. -/

namespace Catlink.MmapRing

open Mmap Runs

/-- What one write was given, and the chunks it returned. -/
structure Sent where
  chunks : List Chunk
  data : Bytes

structure RingState where
  area : MmapArea
  /-- read, with the callback that moves `data_start` still to come -/
  held : List Sent := []
  /-- written and not read yet -/
  sent : List Sent := []

inductive Action
  | write (data : Bytes)
  | read
  | free

inductive Output
  | wrote (chunks : List Chunk)
  | data (bytes : Bytes)
  | freed
  | raised (e : Exn)

/-- Reads happen in the order of the writes, and so do the updates of the pointer: a read that
makes its update at once has to wait for the callbacks before it. -/
def step (alwaysWrap : Bool) (st : RingState) : Action → Option (RingState × Output)
  | .write data =>
      if data = [] then none
      else
        match mmapWrite alwaysWrap st.area.size st.area data with
        | .error e => some (st, .raised e)
        | .ok ([], area) => some ({ st with area := area }, .wrote [])
        | .ok (chunks, area) =>
            some ({ st with area := area, sent := st.sent ++ [⟨chunks, data⟩] }, .wrote chunks)
  | .read =>
      match st.sent with
      | [] => none
      | entry :: rest =>
          match mmapRead st.area entry.chunks with
          | (bytes, area, some _) =>
              some ({ area := area, held := st.held ++ [entry], sent := rest }, .data bytes)
          | (bytes, area, none) =>
              if st.held = [] then some ({ st with area := area, sent := rest }, .data bytes) else none
  | .free =>
      match st.held with
      | [] => none
      | entry :: rest =>
          match mmapRead st.area entry.chunks with
          | (_, _, some stop) => some ({ st with area := st.area.setStart stop, held := rest }, .freed)
          | _ => none

/-- Everything written whose read has not released it. -/
def RingState.inUse (st : RingState) : List Sent := st.held ++ st.sent

/-- The bytes of the chunks stay what they were. -/
def Undisturbed (before after : MmapArea) (entry : Sent) : Prop :=
  ∀ chunk ∈ entry.chunks, ∀ i, chunk.1 ≤ i → i < chunk.1 + chunk.2 → after.bytes i = before.bytes i

/-- What a step may do to the data in use, and what a read has to return. -/
def Safe (st : RingState) (a : Action) (st' : RingState) (out : Output) : Prop :=
  match a with
  | .write _ => (∀ entry ∈ st.inUse, Undisturbed st.area st'.area entry) ∧ ∃ chunks, out = .wrote chunks
  | .read => ∃ entry rest, st.sent = entry :: rest ∧ out = .data entry.data
  | .free => True

/-- An area without data. -/
def Empty (st : RingState) : Prop :=
  st.area.dataStart = 8 ∧ st.area.dataEnd = 8 ∧ st.held = [] ∧ st.sent = []

/-- The write does not fill the ring up, which then looks empty; and `data_end` can hold the end of
a first chunk that the data fits in. -/
def Spare (st : RingState) : Action → Prop
  | .write data =>
      data.length ≠ (freeSpace st.area.size st.area.start st.area.stop).2 ∧
      (data.length < (freeSpace st.area.size st.area.start st.area.stop).1 →
        st.area.stop + data.length < 2 ^ 32)
  | _ => True

/-! ### Where the data in use lies -/

/-- Chunk after chunk, without a gap. -/
def Flat : Nat → List Sent → Nat → Prop
  | start, [], stop => start = stop
  | start, entry :: entries, stop =>
      ∃ length, entry.chunks = [(start, length)] ∧ Flat (start + length) entries stop

/-- The same with one turn around the end of the area, by a chunk that is split there or by one
that leaves the end unused. -/
def Wrapped (size : Nat) : Nat → List Sent → Nat → Prop
  | _, [], _ => False
  | start, entry :: entries, stop =>
      (∃ length, entry.chunks = [(start, length)] ∧ start + length ≤ size ∧
        start + length < 2 ^ 32 ∧ Wrapped size (start + length) entries stop) ∨
      (∃ length, entry.chunks = [(start, size - start), (8, length)] ∧
        Flat (8 + length) entries stop) ∨
      (∃ length, entry.chunks = [(8, length)] ∧ Flat (8 + length) entries stop)

theorem Flat.le {entries : List Sent} {start stop : Nat} (flat : Flat start entries stop) :
    start ≤ stop := by
  induction entries generalizing start with
  | nil => exact Nat.le_of_eq flat
  | cons entry entries ih =>
      obtain ⟨length, -, rest⟩ := flat
      have later := ih rest
      omega

theorem Flat.within {entries : List Sent} {start stop : Nat} (flat : Flat start entries stop) :
    ∀ entry ∈ entries, ∀ chunk ∈ entry.chunks, start ≤ chunk.1 ∧ chunk.1 + chunk.2 ≤ stop := by
  induction entries generalizing start with
  | nil =>
      intro entry member
      cases member
  | cons first entries ih =>
      obtain ⟨length, shape, rest⟩ := flat
      intro entry member chunk inside
      rcases List.mem_cons.mp member with rfl | later
      · rw [shape, List.mem_singleton] at inside
        subst inside
        exact ⟨Nat.le_refl _, rest.le⟩
      · obtain ⟨low, high⟩ := ih rest entry later chunk inside
        exact ⟨by omega, high⟩

theorem Flat.snoc {entries : List Sent} {start stop : Nat} (flat : Flat start entries stop)
    (length : Nat) (data : Bytes) :
    Flat start (entries ++ [⟨[(stop, length)], data⟩]) (stop + length) := by
  induction entries generalizing start with
  | nil =>
      have same : start = stop := flat
      subst same
      exact ⟨length, rfl, rfl⟩
  | cons entry entries ih =>
      obtain ⟨first, shape, rest⟩ := flat
      exact ⟨first, shape, ih rest⟩

/-- A chunk that turns around the end goes after chunks that do not. -/
theorem Flat.turn {entries : List Sent} {size start stop : Nat} (flat : Flat start entries stop)
    (inside : stop ≤ size) (short : stop < 2 ^ 32) (entry : Sent) (length : Nat)
    (turns : entry.chunks = [(stop, size - stop), (8, length)] ∨ entry.chunks = [(8, length)]) :
    Wrapped size start (entries ++ [entry]) (8 + length) := by
  induction entries generalizing start with
  | nil =>
      have same : start = stop := flat
      subst same
      rcases turns with split | again
      · exact .inr (.inl ⟨length, split, rfl⟩)
      · exact .inr (.inr ⟨length, again, rfl⟩)
  | cons first entries ih =>
      obtain ⟨firstLength, shape, rest⟩ := flat
      have before := rest.le
      exact .inl ⟨firstLength, shape, by omega, by omega, ih rest⟩

theorem Wrapped.snoc {entries : List Sent} {size start stop : Nat}
    (wrapped : Wrapped size start entries stop) (length : Nat) (data : Bytes) :
    Wrapped size start (entries ++ [⟨[(stop, length)], data⟩]) (stop + length) := by
  induction entries generalizing start with
  | nil => exact wrapped.elim
  | cons entry entries ih =>
      rcases wrapped with ⟨first, shape, inside, short, rest⟩ | ⟨first, shape, flat⟩ | ⟨first, shape, flat⟩
      · exact .inl ⟨first, shape, inside, short, ih rest⟩
      · exact .inr (.inl ⟨first, shape, flat.snoc length data⟩)
      · exact .inr (.inr ⟨first, shape, flat.snoc length data⟩)

theorem Wrapped.within {entries : List Sent} {size start stop : Nat}
    (wrapped : Wrapped size start entries stop) :
    ∀ entry ∈ entries, ∀ chunk ∈ entry.chunks,
      (start ≤ chunk.1 ∧ chunk.1 + chunk.2 ≤ max start size) ∨ (8 ≤ chunk.1 ∧ chunk.1 + chunk.2 ≤ stop) := by
  induction entries generalizing start with
  | nil => exact wrapped.elim
  | cons first entries ih =>
      intro entry member chunk inside
      rcases wrapped with ⟨length, shape, fits, short, rest⟩ | ⟨length, shape, flat⟩ | ⟨length, shape, flat⟩
      · rcases List.mem_cons.mp member with rfl | later
        · rw [shape, List.mem_singleton] at inside
          subst inside
          left
          exact ⟨Nat.le_refl _, by omega⟩
        · rcases ih rest entry later chunk inside with high | low
          · left
            exact ⟨by omega, by omega⟩
          · right
            exact low
      · have turned := flat.le
        rcases List.mem_cons.mp member with rfl | later
        · rw [shape] at inside
          rcases List.mem_cons.mp inside with rfl | second
          · left
            exact ⟨Nat.le_refl _, by omega⟩
          · rw [List.mem_singleton] at second
            subst second
            right
            exact ⟨Nat.le_refl _, turned⟩
        · obtain ⟨low, high⟩ := flat.within entry later chunk inside
          right
          exact ⟨by omega, high⟩
      · have turned := flat.le
        right
        rcases List.mem_cons.mp member with rfl | later
        · rw [shape, List.mem_singleton] at inside
          subst inside
          exact ⟨Nat.le_refl _, turned⟩
        · obtain ⟨low, high⟩ := flat.within entry later chunk inside
          exact ⟨by omega, high⟩

/-! ### The invariant -/

/-- Either the data in use goes from `data_start` to `data_end`, or around the end of the area. -/
def Laid (size start : Nat) (entries : List Sent) (stop : Nat) : Prop :=
  (Flat start entries stop ∧ stop ≤ size) ∨ (Wrapped size start entries stop ∧ stop < start)

def Contents (area : MmapArea) (entries : List Sent) : Prop :=
  ∀ entry ∈ entries, (entry.chunks.map area.slice).flatten = entry.data

structure Inv (st : RingState) : Prop where
  laid : Laid st.area.size st.area.start st.inUse st.area.stop
  inside : st.area.start ≤ st.area.size
  contents : Contents st.area st.inUse

theorem Laid.stop_le {size start stop : Nat} {entries : List Sent}
    (laid : Laid size start entries stop) (inside : start ≤ size) : stop ≤ size := by
  rcases laid with ⟨-, within⟩ | ⟨-, before⟩
  · exact within
  · omega

/-- No chunk in use has a byte in the free space. -/
theorem Laid.apart {size start stop : Nat} {entries : List Sent} (laid : Laid size start entries stop) :
    ∀ entry ∈ entries, ∀ chunk ∈ entry.chunks,
      (stop < start → chunk.1 + chunk.2 ≤ stop ∨ start ≤ chunk.1) ∧
      (start ≤ stop → start ≤ chunk.1 ∧ chunk.1 + chunk.2 ≤ stop) := by
  intro entry member chunk held
  rcases laid with ⟨flat, -⟩ | ⟨wrapped, before⟩
  · have bounds := flat.within entry member chunk held
    have order := flat.le
    exact ⟨fun turned => by omega, fun _ => bounds⟩
  · rcases wrapped.within entry member chunk held with high | low
    · exact ⟨fun _ => .inr high.1, fun unwrapped => by omega⟩
    · exact ⟨fun _ => .inl low.2, fun unwrapped => by omega⟩

theorem Contents.undisturbed {before after : MmapArea} {entries : List Sent}
    (contents : Contents before entries) (size : after.size = before.size)
    (same : ∀ entry ∈ entries, Undisturbed before after entry) : Contents after entries := by
  intro entry member
  have slices : entry.chunks.map after.slice = entry.chunks.map before.slice := by
    apply List.map_congr_left
    intro chunk held
    exact MmapArea.slice_congr size (same entry member chunk held)
  rw [slices]
  exact contents entry member

theorem Contents.snoc {area : MmapArea} {entries : List Sent} (contents : Contents area entries)
    {entry : Sent} (last : (entry.chunks.map area.slice).flatten = entry.data) :
    Contents area (entries ++ [entry]) := by
  intro other member
  rcases List.mem_append.mp member with old | new
  · exact contents other old
  · rw [List.mem_singleton.mp new]
    exact last

/-- The first chunk list is released by moving `data_start` to the end of its last chunk. -/
theorem Laid.release {size start stop : Nat} {entry : Sent} {entries : List Sent}
    (laid : Laid size start (entry :: entries) stop) (inside : start ≤ size) (low : 8 ≤ start)
    (high : stop < 2 ^ 32) :
    ∃ front offset length, entry.chunks = front ++ [(offset, length)] ∧ 8 ≤ offset + length ∧
      offset + length < 2 ^ 32 ∧ offset + length ≤ size ∧
      Laid size (offset + length) entries stop := by
  rcases laid with ⟨⟨length, shape, rest⟩, within⟩ | ⟨wrapped, before⟩
  · have order := rest.le
    exact ⟨[], start, length, shape, by omega, by omega, by omega, .inl ⟨rest, within⟩⟩
  · rcases wrapped with ⟨length, shape, fits, short, rest⟩ | ⟨length, shape, flat⟩ | ⟨length, shape, flat⟩
    · exact ⟨[], start, length, shape, by omega, short, fits, .inr ⟨rest, by omega⟩⟩
    · have order := flat.le
      exact ⟨[(start, size - start)], 8, length, shape, by omega, by omega, by omega,
        .inl ⟨flat, by omega⟩⟩
    · have order := flat.le
      exact ⟨[], 8, length, shape, by omega, by omega, by omega, .inl ⟨flat, by omega⟩⟩

/-- A single chunk is released later, several at once. -/
theorem mmapRead_snoc (area : MmapArea) (front : List Chunk) (offset length : Nat) :
    mmapRead area (front ++ [(offset, length)]) =
      (((front ++ [(offset, length)]).map area.slice).flatten,
        if front = [] then area else area.setStart (offset + length),
        if front = [] then some (offset + length) else none) := by
  cases front with
  | nil => simp [mmapRead]
  | cons chunk front =>
      cases front with
      | nil => simp [mmapRead]
      | cons second front =>
          have last : (chunk :: second :: (front ++ [(offset, length)])).getLast? =
              some (offset, length) := by
            rw [← List.cons_append, ← List.cons_append, List.getLast?_concat]
          simp only [List.cons_append, mmapRead, last]
          simp

theorem start_lt (area : MmapArea) : area.start < 2 ^ 32 := by
  have word := area.dataStart.toNat_lt
  simp only [MmapArea.start]
  omega

theorem stop_lt (area : MmapArea) : area.stop < 2 ^ 32 := by
  have word := area.dataEnd.toNat_lt
  simp only [MmapArea.stop]
  omega

theorem mmapRead_bytes (area : MmapArea) (chunks : List Chunk) :
    (mmapRead area chunks).1 = (chunks.map area.slice).flatten := by
  cases chunks with
  | nil => rfl
  | cons chunk chunks =>
      cases chunks with
      | nil => simp [mmapRead]
      | cons second chunks => rfl

theorem mmapRead_later {area area' : MmapArea} {chunks : List Chunk} {bytes : Bytes} {value : Nat}
    (read : mmapRead area chunks = (bytes, area', some value)) : area' = area := by
  cases chunks with
  | nil => simp [mmapRead] at read
  | cons chunk chunks =>
      cases chunks with
      | nil =>
          simp only [mmapRead, Prod.mk.injEq] at read
          exact read.2.1.symm
      | cons second chunks => simp [mmapRead] at read

theorem inv_empty {st : RingState} (empty : Empty st) : Inv st := by
  obtain ⟨start, stop, held, sent⟩ := empty
  have startValue : st.area.start = 8 := by
    rw [MmapArea.start, start]
    rfl
  have stopValue : st.area.stop = 8 := by
    rw [MmapArea.stop, stop]
    rfl
  have nothing : st.inUse = [] := by rw [RingState.inUse, held, sent, List.append_nil]
  have header := st.area.header
  refine ⟨?_, by omega, ?_⟩
  · rw [nothing, startValue, stopValue]
    exact .inl ⟨rfl, header⟩
  · rw [nothing]
    intro entry member
    cases member

/-- What a write that returns chunks leaves: they hold the data, and nothing in use has changed. -/
theorem mmapWrite_safe {st : RingState} (inv : Inv st) (alwaysWrap : Bool) {data : Bytes}
    (some_data : data ≠ []) (spare : Spare st (.write data)) :
    ∃ chunks area, mmapWrite alwaysWrap st.area.size st.area data = .ok (chunks, area) ∧
      area.size = st.area.size ∧ area.start = st.area.start ∧
      (∀ entry ∈ st.inUse, Undisturbed st.area area entry) ∧
      (chunks = [] ∧ area = st.area ∨
        (chunks ≠ [] ∧ (chunks.map area.slice).flatten = data ∧
          Laid st.area.size st.area.start (st.inUse ++ [⟨chunks, data⟩]) area.stop)) := by
  have stopInside := inv.laid.stop_le inv.inside
  have lowStart : 8 ≤ st.area.start := Nat.le_max_left _ _
  have lowStop : 8 ≤ st.area.stop := Nat.le_max_left _ _
  have startWord := start_lt st.area
  have stopWord := stop_lt st.area
  have apart := inv.laid.apart
  obtain ⟨notFull, notLong⟩ := spare
  rcases mmapWrite_cases alwaysWrap st.area data some_data inv.inside stopInside with
    ⟨_, written⟩ | ⟨first, written⟩ | ⟨unwrapped, room, written⟩ | ⟨atLeast, atMost, written⟩
  · exact ⟨[], st.area, written, rfl, rfl, fun _ _ _ _ _ _ _ => rfl, .inl ⟨rfl, rfl⟩⟩
  · have short := notLong first
    have bounds : (st.area.stop < st.area.start → st.area.stop + data.length < st.area.start) ∧
        st.area.stop + data.length ≤ st.area.size := by
      unfold freeSpace at first
      split at first
      · dsimp only at first
        have inside := inv.inside
        omega
      · dsimp only at first
        omega
    refine ⟨_, _, written, rfl, rfl, ?_, .inr ⟨by simp, ?_, ?_⟩⟩
    · intro entry member chunk held i low high
      have bounds' := apart entry member chunk held
      exact MmapArea.put_bytes_outside st.area _ _ (by omega)
    · have read := MmapArea.slice_put st.area _ _ bounds.2
      simpa [MmapArea.setEnd, MmapArea.slice] using read
    · rw [MmapArea.stop_setEnd _ (by omega) short]
      rcases inv.laid with ⟨flat, within⟩ | ⟨wrapped, before⟩
      · exact .inl ⟨flat.snoc _ _, bounds.2⟩
      · exact .inr ⟨wrapped.snoc _ _, bounds.1 before⟩
  · refine ⟨_, _, written, rfl, rfl, ?_, .inr ⟨by simp, ?_, ?_⟩⟩
    · intro entry member chunk held i low high
      have bounds := apart entry member chunk held
      exact MmapArea.put_bytes_outside st.area _ _ (by omega)
    · have read := MmapArea.slice_put st.area 8 data (by omega)
      simpa [MmapArea.setEnd, MmapArea.slice] using read
    · rw [MmapArea.stop_setEnd _ (by omega) (by omega)]
      rcases inv.laid with ⟨flat, within⟩ | ⟨wrapped, before⟩
      · exact .inr ⟨flat.turn within stopWord _ _ (.inr rfl), room⟩
      · omega
  · -- a chunk that reaches the end of the area: only possible from the unwrapped state
    have unwrapped : st.area.start ≤ st.area.stop := by
      by_contra turned
      have one : freeSpace st.area.size st.area.start st.area.stop =
        (st.area.start - st.area.stop, st.area.start - st.area.stop) := if_pos (by omega)
      rw [one] at atLeast atMost notFull
      dsimp only at atLeast atMost notFull
      omega
    have both : freeSpace st.area.size st.area.start st.area.stop =
        (st.area.size - st.area.stop, st.area.size - st.area.stop + (st.area.start - 8)) :=
      if_neg (by omega)
    rw [both] at atLeast atMost notFull written
    dsimp only at atLeast atMost notFull written
    have frontLength : (data.take (st.area.size - st.area.stop)).length = st.area.size - st.area.stop := by
      rw [List.length_take]
      omega
    have backLength : (data.drop (st.area.size - st.area.stop)).length =
        data.length - (st.area.size - st.area.stop) := List.length_drop
    refine ⟨_, _, written, rfl, rfl, ?_, .inr ⟨by simp, ?_, ?_⟩⟩
    · intro entry member chunk held i low high
      have bounds := apart entry member chunk held
      have second := MmapArea.put_bytes_outside
        (st.area.put st.area.stop (data.take (st.area.size - st.area.stop))) 8
        (data.drop (st.area.size - st.area.stop)) (i := i) (by omega)
      have first := MmapArea.put_bytes_outside st.area st.area.stop
        (data.take (st.area.size - st.area.stop)) (i := i) (by omega)
      exact second.trans first
    · have slices := MmapArea.slice_put_put st.area st.area.stop
        (data.take (st.area.size - st.area.stop)) 8
        (data.drop (st.area.size - st.area.stop)) (by omega) (by omega)
      rw [frontLength, backLength] at slices
      simp only [MmapArea.slice] at slices
      simp only [MmapArea.slice, MmapArea.setEnd, List.map_cons, List.map_nil, slices]
      simp
    · rw [MmapArea.stop_setEnd _ (by omega) (by omega)]
      rcases inv.laid with ⟨flat, within⟩ | ⟨wrapped, before⟩
      · exact .inr ⟨flat.turn within stopWord _ _ (.inl rfl), by omega⟩
      · omega

/-! ### Every run -/

/-- Releasing the first chunk list in use leaves the others. -/
theorem Inv.release {st : RingState} (inv : Inv st) {entry : Sent} {entries : List Sent}
    (first : st.inUse = entry :: entries) :
    ∃ front offset length, entry.chunks = front ++ [(offset, length)] ∧
      ∀ st' : RingState, st'.area = st.area.setStart (offset + length) → st'.inUse = entries →
        Inv st' := by
  have laid := inv.laid
  have contents := inv.contents
  rw [first] at laid contents
  obtain ⟨front, offset, length, shape, low, high, fits, rest⟩ :=
    laid.release inv.inside (Nat.le_max_left _ _) (stop_lt st.area)
  refine ⟨front, offset, length, shape, fun st' area inUse => ?_⟩
  have moved : st'.area.start = offset + length := by
    rw [area]
    exact MmapArea.start_setStart st.area low high
  have size : st'.area.size = st.area.size := by rw [area, MmapArea.setStart]
  have stop : st'.area.stop = st.area.stop := by
    rw [area]
    rfl
  refine ⟨?_, ?_, ?_⟩
  · rw [size, moved, inUse, stop]
    exact rest
  · rw [size, moved]
    exact fits
  · rw [area, inUse]
    intro other member
    exact contents other (List.mem_cons_of_mem _ member)

/-- One step keeps the invariant and is safe. -/
theorem step_safe {st st' : RingState} {a : Action} {out : Output} (alwaysWrap : Bool)
    (inv : Inv st) (spare : Spare st a) (stepped : step alwaysWrap st a = some (st', out)) :
    Inv st' ∧ Safe st a st' out := by
  have lowStart : 8 ≤ st.area.start := Nat.le_max_left _ _
  cases a with
  | write data =>
      have some_data : data ≠ [] := by
        rintro rfl
        simp [step] at stepped
      obtain ⟨chunks, area, written, size, start, undisturbed, result⟩ :=
        mmapWrite_safe inv alwaysWrap some_data spare
      simp only [step, if_neg some_data, written] at stepped
      rcases result with ⟨rfl, rfl⟩ | ⟨filled, read, laid⟩
      · simp only [Option.some.injEq, Prod.mk.injEq] at stepped
        obtain ⟨rfl, rfl⟩ := stepped
        exact ⟨inv, undisturbed, [], rfl⟩
      · cases chunks with
        | nil => exact absurd rfl filled
        | cons chunk chunks =>
            simp only [Option.some.injEq, Prod.mk.injEq] at stepped
            obtain ⟨rfl, rfl⟩ := stepped
            have entries : (RingState.mk area st.held (st.sent ++ [⟨chunk :: chunks, data⟩])).inUse =
                st.inUse ++ [⟨chunk :: chunks, data⟩] := by
              simp [RingState.inUse]
            refine ⟨⟨?_, ?_, ?_⟩, undisturbed, chunk :: chunks, rfl⟩
            · rw [entries, size, start]
              exact laid
            · rw [size, start]
              exact inv.inside
            · rw [entries]
              exact (inv.contents.undisturbed size undisturbed).snoc read
  | read =>
      cases unread : st.sent with
      | nil => simp [step, unread] at stepped
      | cons entry rest =>
          have contents := inv.contents entry (by simp [RingState.inUse, unread])
          have bytes := mmapRead_bytes st.area entry.chunks
          rw [contents] at bytes
          obtain ⟨data, area, next, result⟩ :
              ∃ data area next, mmapRead st.area entry.chunks = (data, area, next) :=
            ⟨_, _, _, rfl⟩
          rw [result] at bytes
          dsimp only at bytes
          subst bytes
          cases next with
          | some value =>
              have same := mmapRead_later result
              subst same
              simp only [step, unread, result, Option.some.injEq, Prod.mk.injEq] at stepped
              obtain ⟨rfl, rfl⟩ := stepped
              have entries : (RingState.mk st.area (st.held ++ [entry]) rest).inUse = st.inUse := by
                simp [RingState.inUse, unread]
              refine ⟨⟨?_, inv.inside, ?_⟩, entry, rest, unread, rfl⟩
              · rw [entries]
                exact inv.laid
              · rw [entries]
                exact inv.contents
          | none =>
              simp only [step, unread, result] at stepped
              by_cases nothing : st.held = []
              · rw [if_pos nothing] at stepped
                simp only [Option.some.injEq, Prod.mk.injEq] at stepped
                obtain ⟨rfl, rfl⟩ := stepped
                obtain ⟨front, offset, length, shape, released⟩ :=
                  inv.release (show st.inUse = entry :: rest by
                    rw [RingState.inUse, nothing, unread, List.nil_append])
                rw [shape, mmapRead_snoc] at result
                by_cases single : front = []
                · simp [single] at result
                · rw [if_neg single, if_neg single] at result
                  have moved : area = st.area.setStart (offset + length) := by
                    simp only [Prod.mk.injEq] at result
                    exact result.2.1.symm
                  refine ⟨released _ moved ?_, entry, rest, unread, rfl⟩
                  rw [RingState.inUse, nothing, List.nil_append]
              · rw [if_neg nothing] at stepped
                cases stepped
  | free =>
      refine ⟨?_, trivial⟩
      cases waiting : st.held with
      | nil => simp [step, waiting] at stepped
      | cons entry rest =>
          obtain ⟨front, offset, length, shape, released⟩ :=
            inv.release (show st.inUse = entry :: (rest ++ st.sent) by
              rw [RingState.inUse, waiting, List.cons_append])
          simp only [step, waiting, shape, mmapRead_snoc] at stepped
          by_cases single : front = []
          · simp only [if_pos single, Option.some.injEq, Prod.mk.injEq] at stepped
            obtain ⟨rfl, -⟩ := stepped
            exact released _ rfl rfl
          · simp [if_neg single] at stepped

/-- A step of a run in which no write fills the ring up. -/
def SpareStep (alwaysWrap : Bool) (st : RingState) (a : Action) (st' : RingState) : Prop :=
  Spare st a ∧ ∃ out, step alwaysWrap st a = some (st', out)

theorem Reachable.inv {alwaysWrap : Bool} {st : RingState}
    (reachable : Reachable Empty (SpareStep alwaysWrap) st) : Inv st := by
  apply reachable.invariant
  · intro s empty
    exact inv_empty empty
  · intro s a s' inv taken
    obtain ⟨spare, out, stepped⟩ := taken
    exact (step_safe alwaysWrap inv spare stepped).1

/-- In every run from an empty area in which no write fills the ring up, no write touches the data
in use, every read returns the data of the write that it reads, and the views it returned show
that data until they are released. -/
theorem ring_safe (alwaysWrap : Bool) {st st' : RingState} {a : Action} {out : Output}
    (reachable : Reachable Empty (SpareStep alwaysWrap) st) (spare : Spare st a)
    (stepped : step alwaysWrap st a = some (st', out)) :
    Safe st a st' out ∧ Contents st'.area st'.inUse := by
  obtain ⟨inv, safe⟩ := step_safe alwaysWrap (Reachable.inv reachable) spare stepped
  exact ⟨safe, inv.contents⟩

/-- All zeros. -/
def emptyArea (size : Nat) (header : 8 ≤ size) : MmapArea := ⟨size, header, 8, 8, fun _ => 0⟩

def afterWrite : RingState where
  area := ((emptyArea 4096 (by decide)).put 8 [1, 2, 3]).setEnd 11
  sent := [⟨[(8, 3)], [1, 2, 3]⟩]

theorem ring_safe_read :
    Safe afterWrite .read ⟨afterWrite.area, afterWrite.sent, []⟩ (.data [1, 2, 3]) ∧
      Contents afterWrite.area afterWrite.sent := by
  have written : step false ⟨emptyArea 4096 (by decide), [], []⟩ (.write [1, 2, 3]) =
      some (afterWrite, .wrote [(8, 3)]) := rfl
  have spare : Spare ⟨emptyArea 4096 (by decide), [], []⟩ (.write [1, 2, 3]) := ⟨by decide, by decide⟩
  have reachable : Reachable Empty (SpareStep false) afterWrite :=
    .next (.start ⟨rfl, rfl, rfl, rfl⟩) ⟨spare, _, written⟩
  exact ring_safe false reachable trivial rfl

/-- What is written to an area that looks empty, when it fits and when it fills the area. -/
theorem mmapWrite_empty (area : MmapArea) (data : Bytes) (start : area.start = 8)
    (stop : area.stop = 8) (filled : data ≠ []) (fits : data.length ≤ area.size - 8) :
    mmapWrite false area.size area data =
      if data.length < area.size - 8 then
        .ok ([(8, data.length)], (area.put 8 data).setEnd (8 + data.length))
      else .ok ([(8, area.size - 8), (8, 0)], ((area.put 8 data).put 8 []).setEnd 8) := by
  have header := area.header
  have free : freeSpace area.size area.start area.stop = (area.size - 8, area.size - 8) := by
    rw [start, stop, freeSpace, if_neg (by omega), Nat.sub_self, Nat.add_zero]
  have cases := mmapWrite_cases false area data filled (by omega) (by omega)
  rw [free, start, stop] at cases
  dsimp only at cases
  rcases cases with ⟨small, -⟩ | ⟨small, written⟩ | ⟨-, before, -⟩ | ⟨most, -, written⟩
  · omega
  · rw [if_pos small, written]
  · omega
  · have whole : data.length = area.size - 8 := by omega
    rw [if_neg (by omega), written, ← whole, List.take_length, List.drop_length, Nat.sub_self]

/-- After a write that fills it, an area looks empty: the next write overwrites the data. -/
theorem fill_then_write (size : Nat) (header : 8 ≤ size) (large : 9 < size) :
    ∃ (st st' : RingState) (a : Action) (out : Output),
      Reachable Empty (fun st a st' => ∃ out, step false st a = some (st', out)) st ∧
        step false st a = some (st', out) ∧ ¬Safe st a st' out := by
  let data : Bytes := List.replicate (size - 8) 0
  let full : MmapArea := (((emptyArea size header).put 8 data).put 8 []).setEnd 8
  have length : data.length = size - 8 := List.length_replicate
  have filled : data ≠ [] := by
    rw [← List.length_pos_iff, length]
    omega
  have first : mmapWrite false (emptyArea size header).size (emptyArea size header) data =
      .ok ([(8, size - 8), (8, 0)], full) := by
    have whole : ¬data.length < (emptyArea size header).size - 8 := by
      rw [length]
      exact Nat.lt_irrefl _
    have written := mmapWrite_empty (emptyArea size header) data rfl rfl filled (Nat.le_of_eq length)
    rw [if_neg whole] at written
    exact written
  have second : mmapWrite false full.size full [1] = .ok ([(8, 1)], (full.put 8 [1]).setEnd 9) := by
    have room : ([1] : Bytes).length < full.size - 8 := Nat.lt_sub_of_add_lt large
    have written := mmapWrite_empty full [1] rfl rfl (by simp) (Nat.le_of_lt room)
    rw [if_pos room] at written
    exact written
  let st : RingState := ⟨full, [], [⟨[(8, size - 8), (8, 0)], data⟩]⟩
  let st' : RingState :=
    ⟨(full.put 8 [1]).setEnd 9, [], [⟨[(8, size - 8), (8, 0)], data⟩, ⟨[(8, 1)], [1]⟩]⟩
  have firstStep : step false ⟨emptyArea size header, [], []⟩ (.write data) =
      some (st, .wrote [(8, size - 8), (8, 0)]) := by
    simp only [step, if_neg filled, first, List.nil_append, st]
  have secondStep : step false st (.write [1]) = some (st', .wrote [(8, 1)]) := by
    simp only [step, st, second]
    rfl
  refine ⟨st, st', .write [1], .wrote [(8, 1)], ?_, secondStep, ?_⟩
  · exact .next (.start ⟨rfl, rfl, rfl, rfl⟩) ⟨_, firstStep⟩
  · intro safe
    have undisturbed : (1 : UInt8) = full.bytes 8 := safe.1 ⟨[(8, size - 8), (8, 0)], data⟩
      (List.mem_singleton_self _) (8, size - 8) (by simp) 8 (Nat.le_refl 8) (by dsimp only; omega)
    have zero : full.bytes 8 = 0 := by
      have byte : data[0]? = some 0 := by
        simp only [data, List.getElem?_replicate]
        rw [if_pos (by omega)]
      have inside : 8 < 8 + data.length := by omega
      simp [full, MmapArea.put, MmapArea.setEnd, byte, inside]
    rw [zero] at undisturbed
    exact absurd undisturbed (by decide)

/-- The data of a write that fills the least area that is accepted, 64 MiB, and of the one after it,
are in the same bytes. -/
theorem not_ring_safe :
    ¬∀ (st st' : RingState) (a : Action) (out : Output),
      Reachable Empty (fun st a st' => ∃ out, step false st a = some (st', out)) st →
        step false st a = some (st', out) → Safe st a st' out := by
  intro safe
  obtain ⟨st, st', a, out, reachable, stepped, broken⟩ :=
    fill_then_write (2 ^ 26) (by norm_num) (by norm_num)
  exact broken (safe st st' a out reachable stepped)

end Catlink.MmapRing
