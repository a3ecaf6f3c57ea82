import Catlink.Struct

/-! Clipboard contents converted to the wire format and back, under the limits on their size. -/

namespace Catlink.Clipboard.Munge

open Struct

/-- What the class `ClipboardProtocolHelperCore` is configured with. -/
structure Helper where
  machine : Machine
  posix : Bool
  maxClipboardSendSize : Nat
  maxClipboardReceiveSize : Nat
  /-- compiled from texts: what a pattern matches at the start of a text -/
  filterRes : List (String → Bool)

/-- `pattern.match(data)` of a pattern that was compiled from a text. -/
def reMatch (pattern : String → Bool) : PyVal → Except Exn Bool
  | .str text => .ok (pattern text)
  | .bytes _ | .memoryview _ => .error (.typeError "cannot use a string pattern on a bytes-like object")
  | _ => .error (.typeError "expected string or bytes-like object")

/-- A value on the wire. -/
inductive WireData
  | integers (ints : List Int)
  | bytes (data : Bytes)
  deriving DecidableEq, Repr

def WireData.length : WireData → Nat
  | .integers ints => ints.length
  | .bytes data => data.length

/-- `data[:n]` -/
def WireData.truncate (n : Nat) : WireData → WireData
  | .integers ints => .integers (ints.take n)
  | .bytes data => .bytes (data.take n)

/-- The items of the value, those of bytes are numbers. -/
def WireData.items : WireData → List Int
  | .integers ints => ints
  | .bytes data => data.map fun b => b.toNat

/-- The names of the wire encodings, bytes. -/
def integersName : Bytes := [105, 110, 116, 101, 103, 101, 114, 115]

def bytesName : Bytes := [98, 121, 116, 101, 115]

/-- The text that `packet.get_str` makes of a name. -/
def getStr (name : Bytes) : String := String.ofList (name.map fun b => Char.ofNat b.toNat)

variable (helper : Helper)

def getFormatSize (dformat : Int) : Int :=
  max 8 (if dformat = 32 then helper.machine.sizeofLong * 8 else dformat)

/-- The number of bytes or items that a limit allows. -/
def maxDatalen (limit : Nat) (dformat : Int) : Nat :=
  ((limit : Int) * 8 / getFormatSize helper dformat).toNat

/-- Is anything blocklisted? The first match ends the search. -/
def anyMatch (data : PyVal) : List (String → Bool) → Except Exn Bool
  | [] => .ok false
  | pattern :: patterns => do
      if ← reMatch pattern data then return true else anyMatch data patterns

/-- `_do_munge_raw_selection_to_wire`. `none` stands for `None, None`. -/
def doMungeRawSelectionToWire (dtype : String) (dformat : Int) (data : Bytes) :
    Except Exn (Option (Bytes × WireData)) :=
  if dformat = 32 then
    if (dtype = "ATOM" ∨ dtype = "ATOM_PAIR") ∧ helper.posix then .ok none
    else do
      let width := helper.machine.sizeofLong
      let ints ← unpack helper.machine.bigEndian width (data.length / width) data
      return some (integersName, .integers ints)
  else if dformat = 16 then do
    let ints ← unpack helper.machine.bigEndian 2 (data.length / 2) data
    return some (integersName, .integers ints)
  else if dformat = 8 then do
    if ← anyMatch (.bytes data) helper.filterRes then return none
    else return some (bytesName, .bytes data)
  else .ok none

/-- The types that cannot be marshalled. -/
def unmarshalled : List String := ["WINDOW", "PIXMAP", "BITMAP", "DRAWABLE", "PIXEL", "COLORMAP"]

/-- `_munge_raw_selection_to_wire`, for values that are bytes and not a list of targets. -/
def mungeRawSelectionToWire (dtype : String) (dformat : Int) (data : Bytes) :
    Except Exn (Option (Bytes × WireData)) :=
  let data :=
    if 0 < helper.maxClipboardSendSize then
      let maxSendDatalen := maxDatalen helper helper.maxClipboardSendSize dformat
      if maxSendDatalen < data.length then data.take maxSendDatalen else data
    else data
  if dtype ∈ unmarshalled then .ok none
  else doMungeRawSelectionToWire helper dtype dformat data

/-- `_munge_wire_selection_to_raw` -/
def mungeWireSelectionToRaw (encoding : String) (dformat : Int) (data : WireData) :
    Except Exn WireData :=
  let data :=
    if 0 < helper.maxClipboardReceiveSize then
      let maxRecvDatalen := maxDatalen helper helper.maxClipboardReceiveSize dformat
      if maxRecvDatalen < data.length then data.truncate maxRecvDatalen else data
    else data
  if encoding = "bytes" then .ok data
  else if encoding = "integers" then do
    if data.length = 0 then return .bytes []
    else if dformat = 32 then
      return .bytes (← packAll helper.machine.bigEndian helper.machine.sizeofLong data.items)
    else if dformat = 16 then return .bytes (← packAll helper.machine.bigEndian 2 data.items)
    else if dformat = 8 then return .bytes (← packAll helper.machine.bigEndian 1 data.items)
    else throw (.valueError s!"unknown encoding format: {dformat}")
  else .error (.valueError s!"unhanled encoding: {encoding}")

/-! ### Round trip -/

/-- The bytes of an element. -/
def elementSize (dformat : Int) : Nat :=
  if dformat = 32 then helper.machine.sizeofLong else if dformat = 16 then 2 else 1

/-- A limit that is set and that the value is larger than. -/
def Exceeded (limit : Nat) (data : Bytes) : Prop := 0 < limit ∧ limit < data.length

/-- The value, or where it exceeds a limit whole elements of its start within the limits. -/
def Permitted (dformat : Int) (data raw : Bytes) : Prop :=
  raw = data ∨
    (Exceeded helper.maxClipboardSendSize data ∨ Exceeded helper.maxClipboardReceiveSize data) ∧
    raw <+: data ∧ elementSize helper dformat ∣ raw.length ∧
    (0 < helper.maxClipboardSendSize → raw.length ≤ helper.maxClipboardSendSize) ∧
    (0 < helper.maxClipboardReceiveSize → raw.length ≤ helper.maxClipboardReceiveSize)

/-- The value is converted to the wire format without an exception, and back to what is permitted. -/
def RoundTrips (dtype : String) (dformat : Int) (data : Bytes) : Prop :=
  ∃ encoding wire raw, mungeRawSelectionToWire helper dtype dformat data = .ok (some (encoding, wire)) ∧
    mungeWireSelectionToRaw helper (getStr encoding) dformat wire = .ok (.bytes raw) ∧
    Permitted helper dformat data raw

variable {helper}

theorem elementSize_pos (dformat : Int) : 0 < elementSize helper dformat := by
  unfold elementSize
  split
  · exact helper.machine.sizeofLong_pos
  split
  · exact Nat.succ_pos 1
  · exact Nat.one_pos

/-- The limits are divided by the size of the elements. -/
theorem maxDatalen_eq (limit : Nat) {dformat : Int} (known : dformat = 8 ∨ dformat = 16 ∨ dformat = 32) :
    maxDatalen helper limit dformat = limit / elementSize helper dformat := by
  have size : getFormatSize helper dformat = (elementSize helper dformat : Int) * 8 := by
    have positive := helper.machine.sizeofLong_pos
    unfold getFormatSize elementSize
    rcases known with rfl | rfl | rfl
    · rfl
    · rfl
    · rw [if_pos rfl, if_pos rfl]
      omega
  rw [maxDatalen, size, Int.mul_ediv_mul_of_pos_left _ _ (by decide), ← Int.natCast_ediv, Int.toNat_natCast]

/-- What the sender leaves of so many bytes. -/
def sent (limit size n : Nat) : Nat := if 0 < limit ∧ limit / size < n then limit / size else n

/-- What the receiver leaves of so many bytes, all of them whole elements. -/
def kept (limit size n : Nat) : Nat :=
  if 0 < limit ∧ limit / size < n / size then limit / size * size else n

section RoundTrip

variable {dtype : String} {dformat : Int} {data : Bytes}

theorem take_sent (limit size : Nat) (data : Bytes) :
    (if 0 < limit then (if limit / size < data.length then data.take (limit / size) else data) else data) =
      data.take (sent limit size data.length) := by
  unfold sent
  by_cases positive : 0 < limit
  · rw [if_pos positive]
    by_cases long : limit / size < data.length
    · rw [if_pos long, if_pos ⟨positive, long⟩]
    · rw [if_neg long, if_neg fun both => long both.2, List.take_length]
  · rw [if_neg positive, if_neg fun both => positive both.1, List.take_length]

theorem mungeRaw_eq (known : dformat = 8 ∨ dformat = 16 ∨ dformat = 32) (marshalled : dtype ∉ unmarshalled) :
    mungeRawSelectionToWire helper dtype dformat data =
      doMungeRawSelectionToWire helper dtype dformat (data.take
        (sent helper.maxClipboardSendSize (elementSize helper dformat) data.length)) := by
  rw [mungeRawSelectionToWire]
  dsimp only
  rw [if_neg marshalled, maxDatalen_eq _ known, take_sent]

/-- Integers are sent when there are only whole elements. -/
theorem doMunge_integers (wide : dformat = 16 ∨ dformat = 32)
    (named : ¬ (dtype = "ATOM" ∨ dtype = "ATOM_PAIR")) :
    doMungeRawSelectionToWire helper dtype dformat data =
      (unpack helper.machine.bigEndian (elementSize helper dformat)
        (data.length / elementSize helper dformat) data).map
          fun ints => some (integersName, .integers ints) := by
  rcases wide with rfl | rfl
  · rw [doMungeRawSelectionToWire, if_neg (by decide), if_pos rfl]
    rfl
  · rw [doMungeRawSelectionToWire, if_pos rfl, if_neg fun both => named both.1]
    rfl

/-- No pattern can be matched with bytes. -/
theorem doMunge_bytes :
    doMungeRawSelectionToWire helper dtype 8 data =
      if helper.filterRes = [] then .ok (some (bytesName, .bytes data))
      else .error (.typeError "cannot use a string pattern on a bytes-like object") := by
  rw [doMungeRawSelectionToWire, if_neg (by decide), if_neg (by decide), if_pos rfl]
  cases helper.filterRes with
  | nil => rfl
  | cons pattern patterns => rfl

theorem getStr_bytesName : getStr bytesName = "bytes" := by decide

theorem getStr_integersName : getStr integersName = "integers" := by decide

theorem truncate_limit (limit size : Nat) (wire : WireData) :
    (if 0 < limit then (if limit / size < wire.length then wire.truncate (limit / size) else wire)
      else wire) =
      if 0 < limit ∧ limit / size < wire.length then wire.truncate (limit / size) else wire := by
  by_cases positive : 0 < limit
  · simp only [positive, if_true, true_and]
  · simp only [positive, if_false, false_and]

theorem truncate_integers (limit size : Nat) (items : List Int) :
    (if 0 < limit ∧ limit / size < (WireData.integers items).length then
        (WireData.integers items).truncate (limit / size)
      else .integers items) =
      .integers (if 0 < limit ∧ limit / size < items.length then items.take (limit / size) else items) := by
  by_cases cut : 0 < limit ∧ limit / size < items.length
  · rw [if_pos cut]
    exact if_pos cut
  · rw [if_neg cut]
    exact if_neg cut

theorem receive_bytes :
    mungeWireSelectionToRaw helper (getStr bytesName) 8 (.bytes data) =
      .ok (.bytes (data.take (kept helper.maxClipboardReceiveSize 1 data.length))) := by
  have one : data.length / 1 = data.length := Nat.div_one _
  rw [mungeWireSelectionToRaw, getStr_bytesName, if_pos rfl, maxDatalen_eq _ (.inl rfl), truncate_limit,
    kept, one]
  by_cases cut : 0 < helper.maxClipboardReceiveSize ∧ helper.maxClipboardReceiveSize / 1 < data.length
  · rw [if_pos cut, Nat.mul_one]
    exact congrArg Except.ok (if_pos cut)
  · rw [if_neg cut, List.take_length]
    exact congrArg Except.ok (if_neg cut)

/-- Integers are packed, in any number. -/
theorem receive_items (wide : dformat = 16 ∨ dformat = 32) (items : List Int) :
    mungeWireSelectionToRaw helper (getStr integersName) dformat (.integers items) =
      (packAll helper.machine.bigEndian (elementSize helper dformat)
        (if 0 < helper.maxClipboardReceiveSize ∧
            helper.maxClipboardReceiveSize / elementSize helper dformat < items.length then
          items.take (helper.maxClipboardReceiveSize / elementSize helper dformat)
        else items)).map .bytes := by
  have known : dformat = 8 ∨ dformat = 16 ∨ dformat = 32 := .inr wide
  have packs : ∀ items : List Int,
      (if (WireData.integers items).length = 0 then (pure (.bytes []) : Except Exn WireData)
        else if dformat = 32 then do
          return .bytes (← packAll helper.machine.bigEndian helper.machine.sizeofLong items)
        else if dformat = 16 then do
          return .bytes (← packAll helper.machine.bigEndian 2 items)
        else if dformat = 8 then do
          return .bytes (← packAll helper.machine.bigEndian 1 items)
        else throw (.valueError s!"unknown encoding format: {dformat}")) =
      (packAll helper.machine.bigEndian (elementSize helper dformat) items).map .bytes := by
    intro items
    cases items with
    | nil => rfl
    | cons item items =>
        rw [if_neg (by exact Nat.succ_ne_zero items.length)]
        rcases wide with rfl | rfl
        · rw [if_neg (by decide), if_pos rfl]
          rfl
        · rw [if_pos rfl]
          rfl
  rw [mungeWireSelectionToRaw, getStr_integersName, if_neg (by decide), if_pos rfl,
    maxDatalen_eq _ known, truncate_limit]
  rw [truncate_integers]
  exact packs _

theorem receive_integers (wide : dformat = 16 ∨ dformat = 32) {k : Nat}
    (whole : data.length = k * elementSize helper dformat) :
    mungeWireSelectionToRaw helper (getStr integersName) dformat
        (.integers (values helper.machine.bigEndian (elementSize helper dformat) k data)) =
      .ok (.bytes (data.take (kept helper.maxClipboardReceiveSize (elementSize helper dformat) data.length))) := by
  have positive : 0 < elementSize helper dformat := elementSize_pos dformat
  have count : data.length / elementSize helper dformat = k := by
    rw [whole, Nat.mul_div_cancel _ positive]
  rw [receive_items wide, values_length, kept, count]
  split
  · rename_i cut
    have fewer := Nat.le_of_lt cut.2
    have enough : helper.maxClipboardReceiveSize / elementSize helper dformat *
        elementSize helper dformat ≤ data.length := by
      rw [whole]
      exact Nat.mul_le_mul_right _ fewer
    rw [values_take _ fewer, packAll_values_take enough]
    rfl
  · rw [packAll_values whole, List.take_length]
    rfl

theorem sent_le (limit size n : Nat) : sent limit size n ≤ n := by
  unfold sent
  split
  · omega
  · exact le_rfl

theorem kept_le (limit size n : Nat) : kept limit size n ≤ n := by
  unfold kept
  split
  · rename_i cut
    calc
      limit / size * size ≤ n / size * size := Nat.mul_le_mul_right _ (Nat.le_of_lt cut.2)
      _ ≤ n := Nat.div_mul_le_self _ _
  · exact le_rfl

/-- Whole elements are received whole. -/
theorem dvd_kept {limit size n : Nat} (whole : size ∣ n) : size ∣ kept limit size n := by
  unfold kept
  split
  · exact Dvd.intro_left _ rfl
  · exact whole

/-- The receiver stays within its limit, and takes everything when that is within it. -/
theorem kept_within {limit size n : Nat} (some : 0 < size) (whole : size ∣ n) (positive : 0 < limit) :
    kept limit size n ≤ limit ∧ (n ≤ limit → kept limit size n = n) := by
  obtain ⟨k, rfl⟩ := whole
  have count : size * k / size = k := Nat.mul_div_cancel_left _ some
  unfold kept
  rw [count]
  split
  · rename_i cut
    refine ⟨Nat.div_mul_le_self _ _, fun fits => ?_⟩
    have more : k ≤ limit / size := (Nat.le_div_iff_mul_le some).mpr (by rw [Nat.mul_comm]; exact fits)
    omega
  · rename_i uncut
    refine ⟨?_, fun _ => rfl⟩
    have few : k ≤ limit / size := by
      by_contra more
      exact uncut ⟨positive, by omega⟩
    calc
      size * k = k * size := Nat.mul_comm _ _
      _ ≤ limit / size * size := Nat.mul_le_mul_right _ few
      _ ≤ limit := Nat.div_mul_le_self _ _

theorem take_kept (limit size : Nat) {c : Nat} (inside : c ≤ data.length) :
    (data.take c).length = c ∧
      (data.take c).take (kept limit size c) = data.take (kept limit size c) := by
  constructor
  · rw [List.length_take, Nat.min_eq_left inside]
  · rw [List.take_take, Nat.min_eq_left (kept_le _ _ _)]

/-- The wire takes whole elements only, and what comes back has to be permitted. -/
theorem roundTrips_take (known : dformat = 8 ∨ dformat = 16 ∨ dformat = 32)
    (marshalled : dtype ∉ unmarshalled) (named : ¬ (dtype = "ATOM" ∨ dtype = "ATOM_PAIR"))
    {c : Nat} (cut : sent helper.maxClipboardSendSize (elementSize helper dformat) data.length = c) :
    RoundTrips helper dtype dformat data ↔
      (dformat = 8 → helper.filterRes = []) ∧ elementSize helper dformat ∣ c ∧
        Permitted helper dformat data
          (data.take (kept helper.maxClipboardReceiveSize (elementSize helper dformat) c)) := by
  have inside : c ≤ data.length := cut ▸ sent_le _ _ _
  obtain ⟨long, again⟩ := take_kept helper.maxClipboardReceiveSize (elementSize helper dformat) inside
  unfold RoundTrips
  rw [mungeRaw_eq known marshalled, cut]
  rcases known with rfl | wide
  · have one : elementSize helper 8 = 1 := rfl
    have received : mungeWireSelectionToRaw helper _ 8 (.bytes (data.take c)) = _ := receive_bytes
    rw [long, ← one, again] at received
    rw [doMunge_bytes]
    constructor
    · rintro ⟨encoding, wire, raw, sends, receives, permitted⟩
      split at sends
      · rename_i unfiltered
        cases sends
        cases received.symm.trans receives
        exact ⟨fun _ => unfiltered, one ▸ Nat.one_dvd c, permitted⟩
      · cases sends
    · rintro ⟨unfiltered, -, permitted⟩
      rw [if_pos (unfiltered rfl)]
      exact ⟨_, _, _, rfl, received, permitted⟩
  · have other : dformat ≠ 8 := by
      rcases wide with rfl | rfl
      · decide
      · decide
    rw [doMunge_integers wide named, long, unpack, long]
    by_cases elements : elementSize helper dformat ∣ c
    · have count : c = c / elementSize helper dformat * elementSize helper dformat :=
        (Nat.div_mul_cancel elements).symm
      have received : mungeWireSelectionToRaw helper _ dformat (.integers (values _ _ _ (data.take c))) =
          _ := receive_integers wide (long.trans count)
      rw [long, again] at received
      rw [if_pos count]
      constructor
      · rintro ⟨encoding, wire, raw, sends, receives, permitted⟩
        cases sends
        cases received.symm.trans receives
        exact ⟨fun same => absurd same other, elements, permitted⟩
      · rintro ⟨-, -, permitted⟩
        exact ⟨_, _, _, rfl, received, permitted⟩
    · have broken : ¬ c = c / elementSize helper dformat * elementSize helper dformat :=
        fun same => elements (Dvd.intro_left _ same.symm)
      rw [if_neg broken]
      constructor
      · rintro ⟨encoding, wire, raw, sends, -⟩
        cases sends
      · rintro ⟨-, whole, -⟩
        exact absurd whole elements

/-- What comes back is permitted when the sender takes everything, or a limit is exceeded. -/
theorem permitted_take (whole : elementSize helper dformat ∣ data.length) {c : Nat}
    (cut : sent helper.maxClipboardSendSize (elementSize helper dformat) data.length = c)
    (elements : elementSize helper dformat ∣ c) :
    Permitted helper dformat data
        (data.take (kept helper.maxClipboardReceiveSize (elementSize helper dformat) c)) ↔
      c = data.length ∨ Exceeded helper.maxClipboardSendSize data ∨
        Exceeded helper.maxClipboardReceiveSize data := by
  have positive : 0 < elementSize helper dformat := elementSize_pos dformat
  have inside : c ≤ data.length := cut ▸ sent_le _ _ _
  have less := kept_le helper.maxClipboardReceiveSize (elementSize helper dformat) c
  have size : (data.take (kept helper.maxClipboardReceiveSize (elementSize helper dformat) c)).length =
      kept helper.maxClipboardReceiveSize (elementSize helper dformat) c := by
    rw [List.length_take]
    omega
  have sending : 0 < helper.maxClipboardSendSize → c ≤ helper.maxClipboardSendSize := by
    intro limited
    have share := Nat.div_le_self helper.maxClipboardSendSize (elementSize helper dformat)
    unfold sent at cut
    split at cut
    · omega
    · rename_i all
      omega
  have receiving : 0 < helper.maxClipboardReceiveSize →
      kept helper.maxClipboardReceiveSize (elementSize helper dformat) c ≤
        helper.maxClipboardReceiveSize :=
    fun limited => (kept_within positive elements limited).1
  have within : Exceeded helper.maxClipboardSendSize data ∨
      Exceeded helper.maxClipboardReceiveSize data →
      Permitted helper dformat data
        (data.take (kept helper.maxClipboardReceiveSize (elementSize helper dformat) c)) := by
    intro exceeded
    refine .inr ⟨exceeded, List.take_prefix _ _, ?_, ?_, ?_⟩
    · rw [size]
      exact dvd_kept elements
    · rw [size]
      intro limited
      exact less.trans (sending limited)
    · rw [size]
      exact receiving
  constructor
  · rintro (same | ⟨exceeded, -⟩)
    · have long := congrArg List.length same
      rw [size] at long
      exact .inl (by omega)
    · exact .inr exceeded
  · rintro (rfl | exceeded)
    · by_cases larger : Exceeded helper.maxClipboardReceiveSize data
      · exact within (.inr larger)
      · have everything :
            kept helper.maxClipboardReceiveSize (elementSize helper dformat) data.length = data.length := by
          by_cases limited : 0 < helper.maxClipboardReceiveSize
          · have fits : data.length ≤ helper.maxClipboardReceiveSize :=
              Nat.le_of_not_lt fun long => larger ⟨limited, long⟩
            exact (kept_within positive whole limited).2 fits
          · exact if_neg fun both => limited both.1
        rw [everything, List.take_length]
        exact .inl rfl
    · exact within exceeded

/-- The exact condition: no filter is configured for bytes, and the limit for sending is not set,
or so large that its share of an element is not exceeded, or that share is a number of whole
elements and a limit is exceeded. -/
theorem roundTrips_iff (known : dformat = 8 ∨ dformat = 16 ∨ dformat = 32)
    (marshalled : dtype ∉ unmarshalled) (named : ¬ (dtype = "ATOM" ∨ dtype = "ATOM_PAIR"))
    (whole : elementSize helper dformat ∣ data.length) :
    RoundTrips helper dtype dformat data ↔
      (dformat = 8 → helper.filterRes = []) ∧
        (helper.maxClipboardSendSize = 0 ∨
          data.length ≤ helper.maxClipboardSendSize / elementSize helper dformat ∨
          elementSize helper dformat ∣ helper.maxClipboardSendSize / elementSize helper dformat ∧
            (Exceeded helper.maxClipboardSendSize data ∨
              Exceeded helper.maxClipboardReceiveSize data)) := by
  rw [roundTrips_take known marshalled named rfl]
  have positive : 0 < elementSize helper dformat := elementSize_pos dformat
  by_cases cut : 0 < helper.maxClipboardSendSize ∧
    helper.maxClipboardSendSize / elementSize helper dformat < data.length
  · have share : sent helper.maxClipboardSendSize (elementSize helper dformat) data.length =
        helper.maxClipboardSendSize / elementSize helper dformat := if_pos cut
    have set : helper.maxClipboardSendSize ≠ 0 := Nat.pos_iff_ne_zero.mp cut.1
    have long : ¬ data.length ≤ helper.maxClipboardSendSize / elementSize helper dformat :=
      Nat.not_le.mpr cut.2
    have short : helper.maxClipboardSendSize / elementSize helper dformat ≠ data.length :=
      Nat.ne_of_lt cut.2
    rw [share]
    simp only [set, long, false_or, and_congr_right_iff]
    intro unfiltered elements
    rw [permitted_take whole share elements]
    simp only [short, false_or]
  · have everything : sent helper.maxClipboardSendSize (elementSize helper dformat) data.length =
        data.length := if_neg cut
    have unlimited : helper.maxClipboardSendSize = 0 ∨
        data.length ≤ helper.maxClipboardSendSize / elementSize helper dformat := by
      by_contra limited
      rw [not_or] at limited
      exact cut ⟨Nat.pos_of_ne_zero limited.1, Nat.lt_of_not_le limited.2⟩
    rw [everything]
    constructor
    · rintro ⟨unfiltered, -⟩
      refine ⟨unfiltered, ?_⟩
      rcases unlimited with none | fits
      · exact .inl none
      · exact .inr (.inl fits)
    · rintro ⟨unfiltered, -⟩
      exact ⟨unfiltered, whole, (permitted_take whole everything whole).mpr (.inl rfl)⟩

/-- Two longs of 8 bytes, and a limit of 100 bytes for sending that leaves 12 of them. -/
def limited : Helper := ⟨⟨false, 8, eight_sized⟩, true, 100, 0, []⟩

def twoLongs : Bytes := [1, 0, 0, 0, 0, 0, 0, 0, 2, 0, 0, 0, 0, 0, 0, 0]

theorem not_roundTrips : ¬ RoundTrips limited "INTEGER" 32 twoLongs := by
  rintro ⟨encoding, wire, raw, sends, -⟩
  have raised : mungeRawSelectionToWire limited "INTEGER" 32 twoLongs =
      .error (.structError "unpack requires a buffer of 8 bytes") := rfl
  cases raised.symm.trans sends

theorem roundTrips_unlimited :
    RoundTrips ⟨⟨false, 8, .inr rfl⟩, true, 0, 0, []⟩ "INTEGER" 32 twoLongs :=
  (roundTrips_iff (.inr (.inr rfl)) (by decide) (by decide) (by decide)).mpr ⟨fun _ => rfl, .inl rfl⟩

end RoundTrip

end Catlink.Clipboard.Munge
