import Catlink.Net.Framing
import Catlink.Rencodeplus.RoundTrip

/-! The conversion of a packet to chunks, and which packets the peer accepts. -/

namespace Catlink.Encode

open Header Crypto SocketProtocol Incremental Segmentation Framing

variable {σ τ : Type}

def INLINE_SIZE : Nat := 32768

def MIN_COMPRESS_SIZE : Nat := 378

/-! ### Packets before they are encoded -/

/-- A `Compressed` item; a `LevelCompressed` one has a level. -/
structure Compressed where
  data : Bytes
  /-- a `memoryview` of the data, not `bytes` -/
  isView : Bool
  canInline : Bool
  level : Option Nat

inductive Item
  | value (v : PyVal)
  | intEnum (v : Int)
  | enum (text : String)
  | compressed (c : Compressed)
  | largeStructure (data : PyVal)
  /-- with the outcome of its `compress()` -/
  | compressible (data : PyVal) (compress : Except Exn Compressed)

structure Packet where
  packetType : String
  data : List Item

/-- `list(packet_in)` -/
def Packet.items (packet : Packet) : List Item := .value (.str packet.packetType) :: packet.data

/-- The fields of the protocol that `encode` reads. -/
structure Settings where
  chunks : Bool
  encoder : String
  /-- `_encoder`: the data and the flags -/
  encode : List PyVal → Except Exn (Bytes × Nat)
  compressionLevel : Nat
  /-- `_compress`: the level and the data -/
  compress : Bytes → Nat → Except Exn (Nat × Bytes)

/-! ### Encoding -/

def typeName : PyVal → String
  | .none => "NoneType"
  | .bool _ => "bool"
  | .int _ => "int"
  | .float _ => "float"
  | .bytes _ => "bytes"
  | .memoryview _ => "memoryview"
  | .str _ => "str"
  | .list _ => "list"
  | .tuple _ => "tuple"
  | .dict _ => "dict"

/-- `len(value)` -/
def pyLen : PyVal → Except Exn Nat
  | .bytes data | .memoryview data => .ok data.length
  | .str text => .ok text.length
  | .list items | .tuple items => .ok items.length
  | .dict entries => .ok entries.length
  | value => .error (.typeError s!"object of type '{typeName value}' has no len()")

/-- `len(item)` of an item that is not a plain value, or the `TypeError` that replaces its own. -/
def itemLen (packetType : String) (i : Nat) (type : String) (data : PyVal) : Except Exn Nat :=
  match pyLen data with
  | .ok size => .ok size
  | .error e => .error (.typeError
      s!"invalid type <class '{type}'> in '{packetType}' packet at index {i}: {e.text}")

/-- `size` is the length the item had before `compress()`. -/
def opensChunk (o : Settings) (size : Nat) (c : Compressed) : Bool :=
  o.chunks && (!c.canInline || size > INLINE_SIZE)

def inlined (o : Settings) (c : Compressed) : PyVal :=
  if c.isView ∧ o.encoder = "rencodeplus" then .memoryview c.data else .bytes c.data

/-- The chunk of its own that a compressed item gets. -/
def rawChunk (i : Nat) (c : Compressed) : Chunk := ⟨0, i, c.level.getD 0, c.data⟩

/-- `if isinstance(item, Compressed)`: what stays in the packet, the chunks, and the size inlined. -/
def encodeCompressed (o : Settings) (i size : Nat) (c : Compressed) : PyVal × List Chunk × Nat :=
  if opensChunk o size c then (.bytes [], [rawChunk i c], 0) else (inlined o c, [], size)

/-- One turn of the loop over the items. -/
def encodeItem (o : Settings) (packetType : String) (i : Nat) :
    Item → Except Exn (PyVal × List Chunk × Nat)
  | .value .none =>
      .error (.typeError s!"invalid None value in '{packetType}' packet at index {i}")
  | .intEnum v => .ok (.int v, [], 0)
  | .value (.float bits) => do
      let _ ← itemLen packetType i "float" (.float bits)
      .ok (.float bits, [], 0)
  | .value v => .ok (v, [], 0)
  | .enum text => .ok (.str text, [], 0)
  | .compressible data compress => do
      let size ← itemLen packetType i "xpra.net.compression.Compressible" data
      let c ← compress
      .ok (encodeCompressed o i size c)
  | .largeStructure data => do
      let _ ← itemLen packetType i "xpra.net.compression.LargeStructure" data
      .ok (data, [], 0)
  | .compressed c => .ok (encodeCompressed o i c.data.length c)

/-- The items from index `i` on. -/
def encodeItems (o : Settings) (packetType : String) :
    Nat → List Item → Except Exn (List PyVal × List Chunk × Nat)
  | _, [] => .ok ([], [], 0)
  | i, item :: items => do
      let (v, chunks, size) ← encodeItem o packetType i item
      let (packet, packets, inlinedSize) ← encodeItems o packetType (i + 1) items
      .ok (v :: packet, chunks ++ packets, size + inlinedSize)

/-- Of a protocol that is not closed. -/
def doEncode (o : Settings) (packet : List PyVal) (packets : List Chunk) (inlinedSize : Nat) :
    Except Exn (List Chunk) := do
  let (mainPacket, protoFlags) ← o.encode packet
  if o.compressionLevel > 0 ∧ mainPacket.length > MIN_COMPRESS_SIZE + inlinedSize then do
    let (level, mainPacket) ← o.compress mainPacket o.compressionLevel
    .ok (packets ++ [⟨protoFlags, 0, level, mainPacket⟩])
  else .ok (packets ++ [⟨protoFlags, 0, 0, mainPacket⟩])

def encode (o : Settings) (packet : Packet) : Except Exn (List Chunk) := do
  let (main, packets, inlinedSize) ← encodeItems o packet.packetType 0 packet.items
  doEncode o main packets inlinedSize

/-! ### What becomes of each item -/

/-- The compressed data of an item that gets a chunk of its own. -/
def rawItem (o : Settings) : Item → Option Compressed
  | .compressed c => if opensChunk o c.data.length c then some c else none
  | .compressible data (.ok c) =>
      match pyLen data with
      | .ok size => if opensChunk o size c then some c else none
      | .error _ => none
  | _ => none

def rawItems (o : Settings) (packet : Packet) : List Compressed :=
  packet.items.filterMap (rawItem o)

/-- What the main packet has in the place of an item. -/
def mainValue (o : Settings) : Item → PyVal
  | .value v => v
  | .intEnum v => .int v
  | .enum text => .str text
  | .largeStructure data => data
  | .compressed c => if opensChunk o c.data.length c then .bytes [] else inlined o c
  | .compressible data (.ok c) =>
      match pyLen data with
      | .ok size => if opensChunk o size c then .bytes [] else inlined o c
      | .error _ => .none
  | .compressible _ (.error _) => .none

def rawChunks (o : Settings) : Nat → List Item → List Chunk
  | _, [] => []
  | i, item :: items => ((rawItem o item).map (rawChunk i)).toList ++ rawChunks o (i + 1) items

/-- A value that has a length can be an element of a packet. -/
theorem isPacketElement_of_len {v : PyVal} {size : Nat} (sized : pyLen v = .ok size) :
    isPacketElement v = true := by
  cases v with
  | none => cases sized
  | float bits => cases sized
  | _ => rfl

theorem isPacketElement_inlined (o : Settings) (c : Compressed) :
    isPacketElement (inlined o c) = true := by
  unfold inlined
  split <;> rfl

theorem itemLen_ok {packetType type : String} {i size : Nat} {data : PyVal}
    (sized : itemLen packetType i type data = .ok size) : pyLen data = .ok size := by
  unfold itemLen at sized
  split at sized
  · next same => rwa [same]
  · cases sized

theorem encodeCompressed_eq (o : Settings) (i size : Nat) (c : Compressed) :
    (encodeCompressed o i size c).1 = (if opensChunk o size c then .bytes [] else inlined o c) ∧
      (encodeCompressed o i size c).2.1 =
        ((if opensChunk o size c then some c else none).map (rawChunk i)).toList ∧
      isPacketElement (encodeCompressed o i size c).1 = true := by
  by_cases opens : opensChunk o size c
  · simp [encodeCompressed, opens, isPacketElement]
  · simp [encodeCompressed, opens, isPacketElement_inlined]

theorem encodeItem_ok {o : Settings} {packetType : String} {i size : Nat} {item : Item} {v : PyVal}
    {chunks : List Chunk} (encoded : encodeItem o packetType i item = .ok (v, chunks, size)) :
    v = mainValue o item ∧ chunks = ((rawItem o item).map (rawChunk i)).toList ∧
      isPacketElement v = true := by
  cases item with
  | value value =>
      cases value with
      | none => cases encoded
      | float bits => cases encoded
      | _ =>
          cases encoded
          exact ⟨rfl, rfl, rfl⟩
  | intEnum value =>
      cases encoded
      exact ⟨rfl, rfl, rfl⟩
  | enum text =>
      cases encoded
      exact ⟨rfl, rfl, rfl⟩
  | compressed c =>
      have parts := encodeCompressed_eq o i c.data.length c
      injection encoded with same
      rw [same] at parts
      exact parts
  | largeStructure data =>
      obtain ⟨length, sized, same⟩ := ok_of_bind encoded
      cases same
      exact ⟨rfl, rfl, isPacketElement_of_len (itemLen_ok sized)⟩
  | compressible data compress =>
      obtain ⟨length, sized, rest⟩ := ok_of_bind encoded
      obtain ⟨c, compressed, same⟩ := ok_of_bind rest
      have parts := encodeCompressed_eq o i length c
      injection same with same
      rw [same] at parts
      simp only [mainValue, rawItem, compressed, itemLen_ok sized]
      exact parts

theorem encodeItems_ok {o : Settings} {packetType : String} {items : List Item} {i size : Nat}
    {main : List PyVal} {packets : List Chunk}
    (encoded : encodeItems o packetType i items = .ok (main, packets, size)) :
    main = items.map (mainValue o) ∧ packets = rawChunks o i items ∧
      ∀ v ∈ main, isPacketElement v = true := by
  induction items generalizing i main packets size with
  | nil =>
      cases encoded
      exact ⟨rfl, rfl, by simp⟩
  | cons item items ih =>
      obtain ⟨⟨v, chunks, here⟩, first, more⟩ := ok_of_bind encoded
      obtain ⟨⟨rest, later, sum⟩, second, same⟩ := ok_of_bind more
      cases same
      obtain ⟨rfl, rfl, element⟩ := encodeItem_ok first
      obtain ⟨rfl, rfl, elements⟩ := ih second
      refine ⟨rfl, rfl, ?_⟩
      intro v member
      rcases List.mem_cons.mp member with rfl | member
      · exact element
      · exact elements v member

theorem rawChunks_length (o : Settings) (i : Nat) (items : List Item) :
    (rawChunks o i items).length = (items.filterMap (rawItem o)).length := by
  induction items generalizing i with
  | nil => rfl
  | cons item items ih =>
      rw [rawChunks, List.length_append, ih]
      cases found : rawItem o item with
      | none => simp [found]
      | some raw => simp [found, Nat.add_comm]

theorem rawChunks_item {o : Settings} {i : Nat} {items : List Item} {c : Chunk}
    (member : c ∈ rawChunks o i items) :
    ∃ raw ∈ items.filterMap (rawItem o), c = rawChunk c.index raw := by
  induction items generalizing i with
  | nil => cases member
  | cons item items ih =>
      rw [rawChunks, List.mem_append] at member
      rcases member with here | later
      · cases found : rawItem o item with
        | none => simp [found] at here
        | some raw =>
            have same : c = rawChunk i raw := by simpa [found] using here
            refine ⟨raw, List.mem_filterMap.mpr ⟨item, List.mem_cons_self, found⟩, ?_⟩
            rw [same]
            rfl
      · obtain ⟨raw, there, same⟩ := ih later
        obtain ⟨source, inside, found⟩ := List.mem_filterMap.mp there
        exact ⟨raw, List.mem_filterMap.mpr ⟨source, List.mem_cons_of_mem _ inside, found⟩, same⟩

theorem rawChunks_of_item {o : Settings} (i : Nat) {items : List Item} {raw : Compressed}
    (member : raw ∈ items.filterMap (rawItem o)) :
    ∃ index, rawChunk index raw ∈ rawChunks o i items := by
  induction items generalizing i with
  | nil => cases member
  | cons item items ih =>
      obtain ⟨source, inside, found⟩ := List.mem_filterMap.mp member
      rw [rawChunks]
      rcases List.mem_cons.mp inside with rfl | inside
      · exact ⟨i, List.mem_append_left _ (by simp [found])⟩
      · obtain ⟨index, there⟩ := ih (i + 1) (List.mem_filterMap.mpr ⟨source, inside, found⟩)
        exact ⟨index, List.mem_append_right _ there⟩

theorem rawChunks_index {o : Settings} {i : Nat} {items : List Item} {c : Chunk}
    (member : c ∈ rawChunks o i items) : i ≤ c.index ∧ c.index < i + items.length := by
  induction items generalizing i with
  | nil => cases member
  | cons item items ih =>
      rw [rawChunks, List.mem_append] at member
      rw [List.length_cons]
      rcases member with here | later
      · cases found : rawItem o item with
        | none => simp [found] at here
        | some raw =>
            have same : c = rawChunk i raw := by simpa [found] using here
            rw [same]
            simp only [rawChunk]
            omega
      · have bounds := ih later
        omega

theorem rawChunks_distinct (o : Settings) (i : Nat) (items : List Item) :
    ((rawChunks o i items).map Chunk.index).Nodup := by
  induction items generalizing i with
  | nil => exact List.nodup_nil
  | cons item items ih =>
      rw [rawChunks, List.map_append]
      cases found : rawItem o item with
      | none => simpa using ih (i + 1)
      | some raw =>
          simp only [Option.map_some, Option.toList_some, List.map_cons, List.map_nil,
            List.singleton_append, List.nodup_cons]
          refine ⟨?_, ih (i + 1)⟩
          intro again
          obtain ⟨c, member, same⟩ := List.mem_map.mp again
          have bounds := rawChunks_index member
          simp only [rawChunk] at same
          omega

/-- The chunk of an item is found by its index. -/
theorem rawChunks_find (o : Settings) (i j : Nat) (items : List Item) :
    (rawChunks o i items).find? (fun c => c.index == i + j) =
      (items[j]?.bind (rawItem o)).map (rawChunk (i + j)) := by
  induction items generalizing i j with
  | nil => rfl
  | cons item items ih =>
      have later : ∀ c ∈ rawChunks o (i + 1) items, c.index ≠ i := by
        intro c member same
        have bounds := rawChunks_index member
        omega
      cases j with
      | zero =>
          have none : (rawChunks o (i + 1) items).find? (fun c => c.index == i + 0) = none := by
            rw [List.find?_eq_none]
            intro c member same
            exact later c member (by simpa using same)
          rw [rawChunks, List.find?_append, none]
          cases found : rawItem o item with
          | none => simp [found]
          | some raw => simp [found, rawChunk]
      | succ j =>
          have shifted : (rawChunks o (i + 1) items).find? (fun c => c.index == i + (j + 1)) =
              ((item :: items)[j + 1]?.bind (rawItem o)).map (rawChunk (i + (j + 1))) := by
            have place : i + (j + 1) = i + 1 + j := by omega
            rw [place, ih (i + 1) j, List.getElem?_cons_succ]
          rw [rawChunks, List.find?_append, shifted]
          cases found : rawItem o item with
          | none => simp
          | some raw =>
              simp [rawChunk]

end Catlink.Encode
