import Catlink.Python
import Mathlib.Tactic

/-! The shared memory area: a ring of bytes behind two 32-bit pointers. -/

namespace Catlink.Mmap

/-- The first eight bytes are the pointers; the rest is data. -/
structure MmapArea where
  size : Nat
  header : 8 ≤ size
  dataStart : UInt32
  dataEnd : UInt32
  /-- by offset in the area -/
  bytes : Nat → UInt8

/-- `(offset, length)` -/
abbrev Chunk := Nat × Nat

namespace MmapArea

/-- `max(8, mmap_data_start.value)` -/
def start (area : MmapArea) : Nat := max 8 area.dataStart.toNat

/-- `max(8, mmap_data_end.value)` -/
def stop (area : MmapArea) : Nat := max 8 area.dataEnd.toNat

/-- A `c_uint32` keeps the low bits of what it is given. -/
def setStart (area : MmapArea) (value : Nat) : MmapArea :=
  { area with dataStart := UInt32.ofNat value }

def setEnd (area : MmapArea) (value : Nat) : MmapArea :=
  { area with dataEnd := UInt32.ofNat value }

/-- The area with some bytes replaced. -/
def put (area : MmapArea) (pos : Nat) (data : Bytes) : MmapArea :=
  { area with
    bytes := fun i => if pos ≤ i ∧ i < pos + data.length then data.getD (i - pos) 0 else area.bytes i }

/-- `mmap_area.seek(pos)`, then `mmap_area.write(data)` -/
def seekWrite (area : MmapArea) (pos : Nat) (data : Bytes) : Except Exn MmapArea :=
  if pos > area.size then .error (.valueError "seek out of range")
  else if pos + data.length > area.size then .error (.valueError "data out of range")
  else .ok (area.put pos data)

/-- `mv[offset:offset + length]` -/
def slice (area : MmapArea) (chunk : Chunk) : Bytes :=
  (List.range' chunk.1 (min (chunk.1 + chunk.2) area.size - chunk.1)).map area.bytes

end MmapArea

/-- The length of the first chunk there is room for, and the free space. -/
def freeSpace (mmapSize start stop : Nat) : Nat × Nat :=
  if stop < start then
    -- we have wrapped around but the client hasn't yet
    (start - stop, start - stop)
  else (mmapSize - stop, mmapSize - stop + (start - 8))

/-- The chunks used, none when the data does not fit. -/
def mmapWrite (alwaysWrap : Bool) (mmapSize : Nat) (area : MmapArea) (data : Bytes) :
    Except Exn (List Chunk × MmapArea) :=
  let size := data.length
  if size > mmapSize - 8 then .ok ([], area)
  else
    let start := area.start
    let stop := area.stop
    let (chunk, available) := freeSpace mmapSize start stop
    if size > available then .ok ([], area)
    else if size < chunk then do
      -- data fits in the first chunk
      let area ← area.seekWrite stop data
      .ok ([(stop, size)], area.setEnd (stop + size))
    else if ¬alwaysWrap ∧ 2 * available ≥ mmapSize ∧ available ≥ size * 3 ∧ size < start - 8 then do
      -- still plenty of free space, don't wrap around: just start again
      let area ← area.seekWrite 8 data
      .ok ([(8, size)], area.setEnd (8 + size))
    else do
      -- split in 2 chunks: wrap around the end of the mmap buffer
      let area ← area.seekWrite stop (data.take chunk)
      let area ← area.seekWrite 8 (data.drop chunk)
      let l2 := size - chunk
      .ok ([(stop, chunk), (8, l2)], area.setEnd (8 + l2))

def mmapFreeSize (area : MmapArea) (mmapSize : Nat) : Nat :=
  let start := area.start
  let stop := min mmapSize area.stop
  if stop < start then start - stop
  else (start - 8) + (mmapSize - stop)

/-- The bytes, the area, and what the returned callback sets `data_start` to if it does. -/
def mmapRead (area : MmapArea) : List Chunk → Bytes × MmapArea × Option Nat
  -- we can only move the pointer after the buffer has been used
  | [(offset, length)] => (area.slice (offset, length), area, some (offset + length))
  | descrData =>
      let stop := (descrData.getLast?.map fun (offset, length) => offset + length).getD
        area.dataStart.toNat
      ((descrData.map area.slice).flatten, area.setStart stop, none)

/-! ### What the operations do -/

namespace MmapArea

theorem seekWrite_ok {area : MmapArea} {pos : Nat} {data : Bytes}
    (fits : pos + data.length ≤ area.size) : area.seekWrite pos data = .ok (area.put pos data) := by
  rw [seekWrite, if_neg (by omega), if_neg (by omega)]

theorem put_bytes_outside (area : MmapArea) (pos : Nat) (data : Bytes) {i : Nat}
    (outside : i < pos ∨ pos + data.length ≤ i) : (area.put pos data).bytes i = area.bytes i := by
  simp only [put]
  rw [if_neg (by omega)]

theorem slice_put (area : MmapArea) (pos : Nat) (data : Bytes)
    (fits : pos + data.length ≤ area.size) :
    (area.put pos data).slice (pos, data.length) = data := by
  have length : min (pos + data.length) area.size - pos = data.length := by omega
  simp only [slice, put, length]
  apply List.ext_getElem
  · simp
  · intro i here there
    simp [there]

/-- A slice is made of the bytes of its chunk. -/
theorem slice_congr {area area' : MmapArea} {chunk : Chunk} (size : area'.size = area.size)
    (same : ∀ i, chunk.1 ≤ i → i < chunk.1 + chunk.2 → area'.bytes i = area.bytes i) :
    area'.slice chunk = area.slice chunk := by
  simp only [slice, size]
  apply List.map_congr_left
  intro i member
  obtain ⟨low, high⟩ := List.mem_range'_1.mp member
  exact same i low (by omega)

/-- Data before the other data does not touch it. -/
theorem slice_put_put (area : MmapArea) (pos : Nat) (data : Bytes) (pos' : Nat) (data' : Bytes)
    (apart : pos' + data'.length ≤ pos) (fits : pos + data.length ≤ area.size) :
    ((area.put pos data).put pos' data').slice (pos, data.length) = data ∧
      ((area.put pos data).put pos' data').slice (pos', data'.length) = data' := by
  constructor
  · calc
      ((area.put pos data).put pos' data').slice (pos, data.length) =
          (area.put pos data).slice (pos, data.length) := by
        apply slice_congr
        · rfl
        · intro i low _
          exact put_bytes_outside _ _ _ (.inr (Nat.le_trans apart low))
      _ = data := slice_put area pos data fits
  · apply slice_put
    simp only [put]
    omega

theorem start_setStart (area : MmapArea) {value : Nat} (low : 8 ≤ value) (high : value < 2 ^ 32) :
    (area.setStart value).start = value := by
  simp only [start, setStart, UInt32.toNat_ofNat']
  omega

theorem stop_setEnd (area : MmapArea) {value : Nat} (low : 8 ≤ value) (high : value < 2 ^ 32) :
    (area.setEnd value).stop = value := by
  simp only [stop, setEnd, UInt32.toNat_ofNat']
  omega

end MmapArea

theorem freeSpace_le {size start stop : Nat} (low : 8 ≤ start) (inside : start ≤ size)
    (above : 8 ≤ stop) : (freeSpace size start stop).2 ≤ size - 8 := by
  unfold freeSpace
  split
  · dsimp only
    omega
  · dsimp only
    omega

/-- The four placements of some data. -/
theorem mmapWrite_cases (alwaysWrap : Bool) (area : MmapArea) (data : Bytes) (some_data : data ≠ [])
    (startInside : area.start ≤ area.size) (stopInside : area.stop ≤ area.size) :
    let free := freeSpace area.size area.start area.stop
    (free.2 < data.length ∧ mmapWrite alwaysWrap area.size area data = .ok ([], area)) ∨
    (data.length < free.1 ∧ mmapWrite alwaysWrap area.size area data =
      .ok ([(area.stop, data.length)],
        (area.put area.stop data).setEnd (area.stop + data.length))) ∨
    (area.start ≤ area.stop ∧ 8 + data.length < area.start ∧
      mmapWrite alwaysWrap area.size area data =
        .ok ([(8, data.length)], (area.put 8 data).setEnd (8 + data.length))) ∨
    (free.1 ≤ data.length ∧ data.length ≤ free.2 ∧ mmapWrite alwaysWrap area.size area data =
      .ok ([(area.stop, free.1), (8, data.length - free.1)],
        ((area.put area.stop (data.take free.1)).put 8 (data.drop free.1)).setEnd
          (8 + (data.length - free.1)))) := by
  intro free
  have positive : 0 < data.length := List.length_pos_iff.mpr some_data
  have lowStart : 8 ≤ area.start := Nat.le_max_left _ _
  have lowStop : 8 ≤ area.stop := Nat.le_max_left _ _
  have most : free.2 ≤ area.size - 8 := freeSpace_le lowStart startInside lowStop
  have chunkInside : area.stop + free.1 ≤ area.size := by
    simp only [free, freeSpace]
    split
    · dsimp only
      omega
    · dsimp only
      omega
  unfold mmapWrite
  dsimp only
  by_cases large : data.length > area.size - 8
  · rw [if_pos large]
    exact .inl ⟨by omega, rfl⟩
  rw [if_neg large]
  by_cases full : data.length > free.2
  · rw [if_pos full]
    exact .inl ⟨full, rfl⟩
  rw [if_neg full]
  by_cases first : data.length < free.1
  · rw [if_pos first, MmapArea.seekWrite_ok (by omega)]
    exact .inr (.inl ⟨first, rfl⟩)
  rw [if_neg first]
  by_cases again : ¬alwaysWrap = true ∧ 2 * free.2 ≥ area.size ∧ free.2 ≥ data.length * 3 ∧
      data.length < area.start - 8
  · have unwrapped : area.start ≤ area.stop := by
      by_contra wrapped
      have one : free = (area.start - area.stop, area.start - area.stop) := if_pos (by omega)
      rw [one] at first again
      dsimp only at first again
      omega
    rw [if_pos again, MmapArea.seekWrite_ok (by omega)]
    exact .inr (.inr (.inl ⟨unwrapped, by omega, rfl⟩))
  · have firstFits : area.stop + (data.take free.1).length ≤ area.size := by
      rw [List.length_take]
      omega
    have secondFits : 8 + (data.drop free.1).length ≤ (area.put area.stop (data.take free.1)).size := by
      have below : 8 + (data.length - free.1) ≤ area.size := by omega
      simpa [MmapArea.put] using below
    rw [if_neg again, MmapArea.seekWrite_ok firstFits]
    simp only [bind, Except.bind]
    rw [MmapArea.seekWrite_ok secondFits]
    exact .inr (.inr (.inr ⟨by omega, by omega, rfl⟩))

/-! ### Where a write goes -/

/-- A byte of the area, with the words of the pointers before the data. -/
def MmapArea.memory (area : MmapArea) (i : Nat) : UInt8 :=
  if i < 4 then (area.dataStart >>> (8 * i).toUInt32).toUInt8
  else if i < 8 then (area.dataEnd >>> (8 * (i - 4)).toUInt32).toUInt8
  else area.bytes i

/-- The chunks are in the data part and have nothing in common. -/
def Apart (mmapSize : Nat) (chunks : List Chunk) : Prop :=
  (∀ chunk ∈ chunks, 8 ≤ chunk.1 ∧ chunk.1 + chunk.2 ≤ mmapSize) ∧
    chunks.Pairwise fun c d => c.1 + c.2 ≤ d.1 ∨ d.1 + d.2 ≤ c.1

/-- Nothing changes but the chunks and the word of `data_end`. -/
structure Frame (chunks : List Chunk) (area area' : MmapArea) : Prop where
  size : area'.size = area.size
  dataStart : area'.dataStart = area.dataStart
  outside : ∀ i, (∀ chunk ∈ chunks, i < chunk.1 ∨ chunk.1 + chunk.2 ≤ i) → i < 4 ∨ 8 ≤ i →
    area'.memory i = area.memory i

def Placed (area : MmapArea) (data : Bytes) : Except Exn (List Chunk × MmapArea) → Prop
  | .error _ => False
  | .ok ([], area') => area' = area ∧ mmapFreeSize area area.size < data.length
  | .ok (chunks, area') => data.length ≤ mmapFreeSize area area.size ∧ data.length ≤ area.size - 8 ∧
      Apart area.size chunks ∧ (chunks.map Prod.snd).sum = data.length ∧
      (chunks.map area'.slice).flatten = data ∧ Frame chunks area area'

theorem mmapFreeSize_eq {area : MmapArea} (stopInside : area.stop ≤ area.size) :
    mmapFreeSize area area.size = (freeSpace area.size area.start area.stop).2 := by
  unfold mmapFreeSize freeSpace
  rw [Nat.min_eq_right stopInside]
  dsimp only
  split
  · rfl
  · exact Nat.add_comm _ _

/-- The bytes of the data part are all that `put` changes. -/
theorem memory_put (area : MmapArea) (pos : Nat) (data : Bytes) {i : Nat}
    (outside : i < pos ∨ pos + data.length ≤ i) : (area.put pos data).memory i = area.memory i := by
  unfold MmapArea.memory
  rw [MmapArea.put_bytes_outside area pos data outside]
  rfl

theorem memory_setEnd (area : MmapArea) (value : Nat) {i : Nat} (other : i < 4 ∨ 8 ≤ i) :
    (area.setEnd value).memory i = area.memory i := by
  unfold MmapArea.memory
  rcases other with first | later
  · rw [if_pos first, if_pos first]
    rfl
  · rw [if_neg (by omega), if_neg (by omega), if_neg (by omega), if_neg (by omega)]
    rfl

theorem Frame.single (area : MmapArea) (pos : Nat) (data : Bytes) (value : Nat) :
    Frame [(pos, data.length)] area ((area.put pos data).setEnd value) := by
  constructor
  · rfl
  · rfl
  · intro i outside other
    have away := outside (pos, data.length) (List.mem_singleton.mpr rfl)
    rw [memory_setEnd _ _ other, memory_put _ _ _ away]

theorem Frame.double (area : MmapArea) (pos pos' : Nat) (data data' : Bytes) (value : Nat) :
    Frame [(pos, data.length), (pos', data'.length)] area
      (((area.put pos data).put pos' data').setEnd value) := by
  constructor
  · rfl
  · rfl
  · intro i outside other
    have away := outside (pos, data.length) (by simp)
    have away' := outside (pos', data'.length) (by simp)
    rw [memory_setEnd _ _ other, memory_put _ _ _ away', memory_put _ _ _ away]

/-- One chunk at a place there is room for. -/
theorem placed_single {area : MmapArea} {pos : Nat} {data : Bytes} {value : Nat} (low : 8 ≤ pos)
    (inside : pos + data.length ≤ area.size)
    (free : data.length ≤ mmapFreeSize area area.size) :
    Placed area data (.ok ([(pos, data.length)], (area.put pos data).setEnd value)) := by
  refine ⟨free, by omega, ⟨?_, List.pairwise_singleton _ _⟩, by simp, ?_, Frame.single area pos data value⟩
  · intro chunk member
    cases List.mem_singleton.mp member
    exact ⟨low, inside⟩
  · have read := MmapArea.slice_put area pos data inside
    simpa [MmapArea.setEnd, MmapArea.slice] using read

/-- What the first chunk has room for ends inside; the second one stays below the first. -/
theorem freeSpace_room {size start stop : Nat} {free : Nat × Nat} (low : 8 ≤ start)
    (inside : start ≤ size) (lowStop : 8 ≤ stop) (stopInside : stop ≤ size)
    (room : freeSpace size start stop = free) :
    stop + free.1 ≤ size ∧ free.1 ≤ free.2 ∧ 8 + free.2 ≤ stop + free.1 ∧
      (start ≤ stop → start ≤ 8 + free.2) := by
  rw [← room]
  unfold freeSpace
  split
  · dsimp only
    omega
  · dsimp only
    omega

/-- Two chunks, the second one at the beginning of the data part. -/
theorem placed_double (area : MmapArea) (pos : Nat) (first second : Bytes) (value : Nat)
    (low : 8 ≤ pos) (inside : pos + first.length ≤ area.size) (below : 8 + second.length ≤ pos)
    (free : (first ++ second).length ≤ mmapFreeSize area area.size) :
    Placed area (first ++ second) (.ok ([(pos, first.length), (8, second.length)],
      ((area.put pos first).put 8 second).setEnd value)) := by
  have slices := MmapArea.slice_put_put area pos first 8 second below inside
  have total : (first ++ second).length = first.length + second.length := List.length_append
  refine ⟨free, by omega, ⟨?_, ?_⟩, ?_, ?_, Frame.double area pos 8 first second value⟩
  · intro chunk member
    rcases List.mem_cons.mp member with rfl | member
    · exact ⟨low, inside⟩
    · cases List.mem_singleton.mp member
      exact ⟨Nat.le_refl 8, by dsimp only; omega⟩
  · rw [List.pairwise_pair]
    exact .inr below
  · rw [total]
    simp
  · have read : ((area.put pos first).put 8 second).slice (pos, first.length) ++
        ((area.put pos first).put 8 second).slice (8, second.length) = first ++ second := by
      rw [slices.1, slices.2]
    simpa [MmapArea.setEnd, MmapArea.slice] using read

theorem mmap_write_placed (alwaysWrap : Bool) (area : MmapArea) (data : Bytes) (some_data : data ≠ [])
    (startInside : area.dataStart.toNat ≤ area.size) (stopInside : area.dataEnd.toNat ≤ area.size) :
    Placed area data (mmapWrite alwaysWrap area.size area data) := by
  have startInside : area.start ≤ area.size := Nat.max_le.mpr ⟨area.header, startInside⟩
  have stopInside : area.stop ≤ area.size := Nat.max_le.mpr ⟨area.header, stopInside⟩
  have lowStart : 8 ≤ area.start := Nat.le_max_left _ _
  have lowStop : 8 ≤ area.stop := Nat.le_max_left _ _
  have positive : 0 < data.length := List.length_pos_iff.mpr some_data
  have same := mmapFreeSize_eq stopInside
  have wrote := mmapWrite_cases alwaysWrap area data some_data startInside stopInside
  have same := mmapFreeSize_eq stopInside
  generalize room : freeSpace area.size area.start area.stop = free at wrote same
  obtain ⟨chunkInside, firstLess, secondBelow, fromStart⟩ :=
    freeSpace_room lowStart startInside lowStop stopInside room
  rcases wrote with
    ⟨full, wrote⟩ | ⟨first, wrote⟩ | ⟨unwrapped, again, wrote⟩ | ⟨long, fits, wrote⟩
  · rw [wrote]
    exact ⟨rfl, by omega⟩
  · rw [wrote]
    exact placed_single lowStop (by omega) (by omega)
  · rw [wrote]
    have before := fromStart unwrapped
    exact placed_single (Nat.le_refl 8) (by omega) (by omega)
  · rw [wrote]
    have one : (data.take free.1).length = free.1 := List.length_take_of_le long
    have two : (data.drop free.1).length = data.length - free.1 := List.length_drop
    have joined : data.take free.1 ++ data.drop free.1 = data := List.take_append_drop _ _
    have total : (data.take free.1 ++ data.drop free.1).length ≤ mmapFreeSize area area.size := by
      rw [joined]
      omega
    have double := placed_double area area.stop (data.take free.1) (data.drop free.1)
      (8 + (data.length - free.1)) lowStop (by omega) (by omega) total
    rw [joined, one, two] at double
    exact double

def spareArea : MmapArea where
  size := 16
  header := by decide
  dataStart := 12
  dataEnd := 14
  bytes := fun _ => 0

/-- Five bytes, two of them at the end of the area. -/
theorem mmap_write_placed_turn :
    Placed spareArea [1, 2, 3, 4, 5] (mmapWrite false spareArea.size spareArea [1, 2, 3, 4, 5]) :=
  mmap_write_placed false spareArea [1, 2, 3, 4, 5] (by decide) (by decide) (by decide)

end Catlink.Mmap
