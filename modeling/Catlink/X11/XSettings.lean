import Catlink.Struct

/-! The settings blocks of the `_XSETTINGS_SETTINGS` property, and the cache of the last one. -/

namespace Catlink.X11.XSettings

open Struct BigEndian

/-- A value of one of the three types of settings. -/
inductive Value
  | integer (value : Int)
  | string (value : Bytes)
  | color (red blue green alpha : Int)
  deriving DecidableEq, Repr

/-- `XSettingsType` -/
def Value.settingType : Value → Int
  | .integer _ => 0
  | .string _ => 1
  | .color .. => 2

theorem Value.settingType_fits (value : Value) : fits 1 value.settingType := by
  cases value with
  | integer => exact (by decide : fits 1 0)
  | string => exact (by decide : fits 1 1)
  | color => exact (by decide : fits 1 2)

structure Setting where
  propName : Bytes
  value : Value
  lastChangeSerial : Int
  deriving DecidableEq, Repr

structure Block where
  serial : Int
  settings : List Setting
  deriving DecidableEq, Repr

/-- The numbers and lengths fit their fields. -/
def Value.encodable : Value → Prop
  | .integer value => fits 4 value
  | .string value => fits 4 value.length
  | .color red blue green alpha => fits 2 red ∧ fits 2 blue ∧ fits 2 green ∧ fits 2 alpha

instance : (value : Value) → Decidable value.encodable
  | .integer value => inferInstanceAs (Decidable (fits 4 value))
  | .string value => inferInstanceAs (Decidable (fits 4 value.length))
  | .color .. => inferInstanceAs (Decidable (_ ∧ _))

def Setting.encodable (setting : Setting) : Prop :=
  fits 2 setting.propName.length ∧ fits 4 setting.lastChangeSerial ∧ setting.value.encodable

instance (setting : Setting) : Decidable setting.encodable := inferInstanceAs (Decidable (_ ∧ _))

def Block.encodable (block : Block) : Prop :=
  fits 4 block.serial ∧ fits 4 block.settings.length ∧
    ∀ setting ∈ block.settings, setting.encodable

instance (block : Block) : Decidable block.encodable := inferInstanceAs (Decidable (_ ∧ _))

section Machine

variable (bigEndian : Bool)

/-- Texts are padded to a multiple of 4 bytes. -/
def padLen (n : Nat) : Nat := (n + 3) / 4 * 4 - n

def padded (text : Bytes) : Bytes := text ++ List.replicate (padLen text.length) 0

def valueToBytes : Value → Except Exn Bytes
  | .integer value => pack bigEndian 4 value
  | .string value => do return (← pack bigEndian 4 value.length) ++ padded value
  | .color red blue green alpha => packAll bigEndian 2 [red, blue, green, alpha]

/-- One setting of `xsettings_to_bytes`. -/
def settingToBytes (setting : Setting) : Except Exn Bytes := do
  let types ← packAll bigEndian 1 [setting.value.settingType, 0]
  let nameLen ← pack bigEndian 2 setting.propName.length
  let serial ← pack bigEndian 4 setting.lastChangeSerial
  let value ← valueToBytes bigEndian setting.value
  return types ++ nameLen ++ padded setting.propName ++ serial ++ value

/-- `BIG_ENDIAN` or `LITTLE_ENDIAN` -/
def localByteorder : Int := if bigEndian then 1 else 0

/-- A setting that cannot be packed is logged and left out. -/
def xsettingsToBytes (block : Block) : Except Exn Bytes := do
  let all := block.settings.filterMap fun setting => (settingToBytes bigEndian setting).toOption
  let order ← packAll bigEndian 1 [localByteorder bigEndian, 0, 0, 0]
  let serial ← pack bigEndian 4 block.serial
  let count ← pack bigEndian 4 all.length
  return order ++ serial ++ count ++ all.flatten ++ [0]

/-- `d[pos:pos + n]` -/
def slice (d : Bytes) (pos n : Nat) : Bytes := (d.drop pos).take n

/-- There are `nbytes` more to extract. -/
def req (d : Bytes) (pos : Nat) (what : String) (nbytes : Nat) : Except Exn Unit :=
  if d.length < pos + nbytes then
    .error (.valueError (s!"not enough data ({(d.length : Int) - pos} bytes) to extract {what} " ++
      s!"({nbytes} bytes needed)"))
  else .ok ()

def loadAt (d : Bytes) (pos n : Nat) : Int := load bigEndian (slice d pos n)

/-- The value of a setting of the given type and the position after it, nothing for another type. -/
def readValue (d : Bytes) (pos : Nat) (settingType : Int) : Except Exn (Option (Value × Nat)) :=
  if settingType = 0 then do
    req d pos "int" 4
    return some (.integer (loadAt bigEndian d pos 4), pos + 4)
  else if settingType = 1 then do
    req d pos "string length" 4
    let valueLen := load bigEndian (slice d pos 4)
    let pos := pos + 4
    req d pos "string" valueLen
    return some (.string (slice d pos valueLen), pos + (valueLen + 3) / 4 * 4)
  else if settingType = 2 then do
    req d pos "color" 8
    return some (.color (loadAt bigEndian d pos 2) (loadAt bigEndian d (pos + 2) 2)
      (loadAt bigEndian d (pos + 4) 2) (loadAt bigEndian d (pos + 6) 2), pos + 8)
  else return none

def readSetting (d : Bytes) (pos : Nat) : Except Exn (Option (Setting × Nat)) := do
  req d pos "setting" 4
  let settingType := loadAt bigEndian d pos 1
  let nameLen := load bigEndian (slice d (pos + 2) 2)
  let pos := pos + 4
  let propName := slice d pos nameLen
  let pos := pos + (nameLen + 3) / 4 * 4
  req d pos "serial" 4
  let lastChangeSerial := loadAt bigEndian d pos 4
  let pos := pos + 4
  match ← readValue bigEndian d pos settingType with
  | some (value, pos) => return some (⟨propName, value, lastChangeSerial⟩, pos)
  | none => return none

/-- The settings still to come. An invalid type ends the loop. -/
def readSettings (d : Bytes) : Nat → Nat → Except Exn (List Setting)
  | 0, _ => return []
  | more + 1, pos => do
      match ← readSetting bigEndian d pos with
      | none => return []
      | some (setting, pos) => return setting :: (← readSettings d more pos)

/-- The serial and the number of settings. -/
def readHeader (d : Bytes) : Except Exn (Int × Nat) :=
  if d.length < 12 then
    .error (.assertionError s!"_XSETTINGS_SETTINGS property is too small: {d.length}")
  else .ok (loadAt bigEndian d 4 4, load bigEndian (slice d 8 4))

/-- The initial `XSETTINGS_CACHE`. -/
def initialCache : Block := ⟨0, []⟩

/-- The outcome for a cache, and the cache then. -/
def bytesToXsettings (cache : Block) (d : Bytes) : Except Exn Block × Block :=
  match readHeader bigEndian d with
  | .error e => (.error e, cache)
  | .ok (serial, nSettings) =>
      if cache.serial = serial then (.ok cache, cache)
      else
        match readSettings bigEndian d nSettings 12 with
        | .error e => (.error e, cache)
        | .ok settings => (.ok ⟨serial, settings⟩, ⟨serial, settings⟩)

/-- What the bytes say: the function without its cache. -/
def decoded (d : Bytes) : Except Exn Block := do
  let (serial, nSettings) ← readHeader bigEndian d
  return ⟨serial, ← readSettings bigEndian d nSettings 12⟩

variable {bigEndian}

/-! ### Reading what was written -/

/-- From the position on, the data is `rest`. -/
def At (d : Bytes) (pos : Nat) (rest : Bytes) : Prop := d.drop pos = rest ∧ pos ≤ d.length

section At

variable {d piece rest : Bytes} {pos n : Nat}

theorem At.slice (here : At d pos (piece ++ rest)) (long : piece.length = n) :
    slice d pos n = piece := by
  rw [XSettings.slice, here.1, ← long, List.take_left]

theorem At.step (here : At d pos (piece ++ rest)) (long : piece.length = n) :
    At d (pos + n) rest := by
  obtain ⟨rest', inside⟩ := here
  have whole := congrArg List.length rest'
  rw [List.length_drop, List.length_append] at whole
  constructor
  · rw [← List.drop_drop, rest', ← long, List.drop_left]
  · omega

theorem At.enough (here : At d pos (piece ++ rest)) (what : String) (long : n ≤ piece.length) :
    req d pos what n = .ok () := by
  obtain ⟨rest', inside⟩ := here
  have whole := congrArg List.length rest'
  rw [List.length_drop, List.length_append] at whole
  apply if_neg
  omega

theorem At.load {v : Int} (here : At d pos (piece ++ rest))
    (packed : pack bigEndian n v = .ok piece) : loadAt bigEndian d pos n = v := by
  rw [loadAt, here.slice (pack_length packed), load_pack packed]

end At

theorem padded_length (text : Bytes) : (padded text).length = (text.length + 3) / 4 * 4 := by
  rw [padded, List.length_append, List.length_replicate, padLen]
  omega

/-- The same for a length. -/
theorem At.loadNat {d piece rest : Bytes} {pos n v : Nat} (here : At d pos (piece ++ rest))
    (packed : pack bigEndian n v = .ok piece) : BigEndian.load bigEndian (XSettings.slice d pos n) = v :=
  Int.ofNat.inj (here.load packed)

/-- A value that could be packed is read as it was, up to where its bytes end. -/
theorem readValue_valueToBytes {d bytes rest : Bytes} {pos : Nat} {value : Value}
    (packed : valueToBytes bigEndian value = .ok bytes) (here : At d pos (bytes ++ rest)) :
    readValue bigEndian d pos value.settingType = .ok (some (value, pos + bytes.length)) := by
  cases value with
  | integer v =>
      have long := pack_length packed
      have read := here.load packed
      rw [Value.settingType, readValue, if_pos rfl, here.enough "int" long.ge, read, long]
      rfl
  | string text =>
      obtain ⟨lengthBytes, lengthPacked, whole⟩ := ok_of_bind packed
      cases whole
      have long := pack_length lengthPacked
      rw [List.append_assoc] at here
      have after := here.step long
      rw [padded, List.append_assoc] at after
      have stop : pos + 4 + (text.length + 3) / 4 * 4 = pos + (lengthBytes ++ padded text).length := by
        rw [List.length_append, padded_length, long]
        omega
      rw [Value.settingType, readValue, if_neg (by decide), if_pos rfl,
        here.enough "string length" long.ge]
      dsimp only [bind, Except.bind]
      rw [here.loadNat lengthPacked, after.enough "string" le_rfl, after.slice rfl, stop]
      rfl
  | color red blue green alpha =>
      obtain ⟨redBytes, _, redPacked, three, rfl⟩ := packAll_ok packed
      obtain ⟨blueBytes, _, bluePacked, two, rfl⟩ := packAll_ok three
      obtain ⟨greenBytes, _, greenPacked, one, rfl⟩ := packAll_ok two
      obtain ⟨alphaBytes, _, alphaPacked, none, rfl⟩ := packAll_ok one
      cases none
      have redLong := pack_length redPacked
      have blueLong := pack_length bluePacked
      have greenLong := pack_length greenPacked
      have alphaLong := pack_length alphaPacked
      have long : (redBytes ++ (blueBytes ++ (greenBytes ++ (alphaBytes ++ [])))).length = 8 := by
        simp only [List.length_append, List.length_nil]
        omega
      rw [Value.settingType, readValue, if_neg (by decide), if_neg (by decide), if_pos rfl,
        here.enough "color" long.ge, long]
      simp only [List.append_assoc] at here
      have blueHere := here.step redLong
      have greenHere := blueHere.step blueLong
      have alphaHere := greenHere.step greenLong
      rw [here.load redPacked, blueHere.load bluePacked, greenHere.load greenPacked,
        alphaHere.load alphaPacked]
      rfl

/-- A setting that could be packed is read as it was. -/
theorem readSetting_settingToBytes {d bytes rest : Bytes} {pos : Nat} {setting : Setting}
    (packed : settingToBytes bigEndian setting = .ok bytes) (here : At d pos (bytes ++ rest)) :
    readSetting bigEndian d pos = .ok (some (setting, pos + bytes.length)) := by
  obtain ⟨types, typesPacked, packed⟩ := ok_of_bind packed
  obtain ⟨nameLen, namePacked, packed⟩ := ok_of_bind packed
  obtain ⟨serial, serialPacked, packed⟩ := ok_of_bind packed
  obtain ⟨value, valuePacked, whole⟩ := ok_of_bind packed
  cases whole
  obtain ⟨kind, _, kindPacked, one, rfl⟩ := packAll_ok typesPacked
  obtain ⟨zero, _, zeroPacked, none, rfl⟩ := packAll_ok one
  cases none
  have kindLong := pack_length kindPacked
  have zeroLong := pack_length zeroPacked
  have nameLong := pack_length namePacked
  have serialLong := pack_length serialPacked
  have long : 4 ≤ (kind ++ (zero ++ nameLen)).length := by
    simp only [List.length_append]
    omega
  have stop : pos + 4 + (setting.propName.length + 3) / 4 * 4 + 4 + value.length =
      pos + (kind ++ (zero ++ []) ++ nameLen ++ padded setting.propName ++ serial ++ value).length := by
    simp only [List.length_append, padded_length, List.length_nil]
    omega
  have grouped : At d pos (kind ++ (zero ++ nameLen) ++
      (padded setting.propName ++ (serial ++ (value ++ rest)))) := by
    simpa only [List.append_assoc, List.append_nil, List.nil_append] using here
  have start := grouped
  simp only [List.append_assoc] at start
  have nameHere := (start.step kindLong).step zeroLong
  have textHere := nameHere.step nameLong
  have serialHere := textHere.step (padded_length _)
  have valueHere := serialHere.step serialLong
  rw [padded, List.append_assoc] at textHere
  rw [readSetting, grouped.enough "setting" long]
  dsimp only [bind, Except.bind]
  rw [start.load kindPacked]
  rw [show pos + 2 = pos + 1 + 1 from rfl, nameHere.loadNat namePacked]
  rw [show pos + 4 = pos + 1 + 1 + 2 from rfl, textHere.slice rfl,
    serialHere.enough "serial" serialLong.ge, serialHere.load serialPacked]
  dsimp only
  rw [readValue_valueToBytes valuePacked valueHere, ← stop]
  rfl

theorem valueToBytes_ok {value : Value} :
    (∃ bytes, valueToBytes bigEndian value = .ok bytes) ↔ value.encodable := by
  cases value with
  | integer v =>
      constructor
      · rintro ⟨bytes, packed⟩
        exact (pack_ok packed).1
      · intro small
        exact ⟨_, pack_eq small⟩
  | string text =>
      constructor
      · rintro ⟨bytes, packed⟩
        obtain ⟨lengthBytes, lengthPacked, _⟩ := ok_of_bind packed
        exact (pack_ok lengthPacked).1
      · intro small
        exact ⟨store bigEndian 4 text.length ++ padded text, by
          rw [valueToBytes, pack_eq small]
          rfl⟩
  | color red blue green alpha =>
      constructor
      · rintro ⟨bytes, packed⟩
        obtain ⟨_, _, redPacked, three, -⟩ := packAll_ok packed
        obtain ⟨_, _, bluePacked, two, -⟩ := packAll_ok three
        obtain ⟨_, _, greenPacked, one, -⟩ := packAll_ok two
        obtain ⟨_, _, alphaPacked, -, -⟩ := packAll_ok one
        exact ⟨(pack_ok redPacked).1, (pack_ok bluePacked).1, (pack_ok greenPacked).1,
          (pack_ok alphaPacked).1⟩
      · rintro ⟨redSmall, blueSmall, greenSmall, alphaSmall⟩
        rw [valueToBytes, packAll_cons, packAll_cons, packAll_cons, packAll_cons, pack_eq redSmall,
          pack_eq blueSmall, pack_eq greenSmall, pack_eq alphaSmall]
        exact ⟨_, rfl⟩

theorem settingToBytes_ok {setting : Setting} :
    (∃ bytes, settingToBytes bigEndian setting = .ok bytes) ↔ setting.encodable := by
  constructor
  · rintro ⟨bytes, packed⟩
    obtain ⟨types, typesPacked, packed⟩ := ok_of_bind packed
    obtain ⟨nameLen, namePacked, packed⟩ := ok_of_bind packed
    obtain ⟨serial, serialPacked, packed⟩ := ok_of_bind packed
    obtain ⟨value, valuePacked, whole⟩ := ok_of_bind packed
    exact ⟨(pack_ok namePacked).1, (pack_ok serialPacked).1, valueToBytes_ok.mp ⟨_, valuePacked⟩⟩
  · rintro ⟨nameSmall, serialSmall, valueSmall⟩
    obtain ⟨value, valuePacked⟩ := valueToBytes_ok.mpr valueSmall
    rw [settingToBytes, packAll_cons, packAll_cons, pack_eq setting.value.settingType_fits,
      pack_eq (v := 0) (by decide),
      pack_eq nameSmall, pack_eq serialSmall, valuePacked]
    exact ⟨_, rfl⟩

/-- The settings that `xsettings_to_bytes` does not leave out. -/
def kept (settings : List Setting) : List Setting := settings.filter fun setting => setting.encodable

variable (bigEndian) in
theorem kept_packed (settings : List Setting) :
    List.Forall₂ (fun setting bytes => settingToBytes bigEndian setting = .ok bytes) (kept settings)
      (settings.filterMap fun setting => (settingToBytes bigEndian setting).toOption) := by
  induction settings with
  | nil => exact .nil
  | cons setting settings ih =>
      by_cases small : setting.encodable
      · obtain ⟨bytes, packed⟩ : ∃ bytes, settingToBytes bigEndian setting = .ok bytes :=
          settingToBytes_ok.mpr small
        have there : (settingToBytes bigEndian setting).toOption = some bytes := by
          rw [packed]
          rfl
        simp only [kept, List.filter_cons, List.filterMap_cons, there, small, decide_true, if_true]
        exact .cons packed ih
      · have failed : (settingToBytes bigEndian setting).toOption = none := by
          cases outcome : settingToBytes bigEndian setting with
          | error e => rfl
          | ok bytes => exact absurd (settingToBytes_ok.mp ⟨bytes, outcome⟩) small
        simp only [kept, List.filter_cons, List.filterMap_cons, failed, small, decide_false]
        exact ih

theorem readSettings_packed {d rest : Bytes} {settings : List Setting} {pieces : List Bytes}
    (packed : List.Forall₂ (fun setting bytes => settingToBytes bigEndian setting = .ok bytes)
      settings pieces) {pos : Nat} (here : At d pos (pieces.flatten ++ rest)) :
    readSettings bigEndian d pieces.length pos = .ok settings := by
  induction packed generalizing pos with
  | nil => rfl
  | @cons setting bytes settings pieces first _ ih =>
      rw [List.flatten_cons, List.append_assoc] at here
      rw [List.length_cons, readSettings, readSetting_settingToBytes first here]
      dsimp only [bind, Except.bind]
      rw [ih (here.step rfl)]
      rfl

/-- The bytes of a block, with the settings that could be packed, say just this. -/
theorem xsettingsToBytes_reads {block : Block} {d : Bytes}
    (packed : xsettingsToBytes bigEndian block = .ok d) :
    readHeader bigEndian d = .ok (block.serial, (kept block.settings).length) ∧
      readSettings bigEndian d (kept block.settings).length 12 = .ok (kept block.settings) := by
  obtain ⟨order, orderPacked, packed⟩ := ok_of_bind packed
  obtain ⟨serial, serialPacked, packed⟩ := ok_of_bind packed
  obtain ⟨count, countPacked, whole⟩ := ok_of_bind packed
  cases whole
  have pieces : List.Forall₂ _ (kept block.settings) _ := kept_packed bigEndian block.settings
  rw [← pieces.length_eq] at countPacked
  have orderLong : order.length = 4 := packAll_length orderPacked
  have serialLong := pack_length serialPacked
  have countLong := pack_length countPacked
  generalize whole : order ++ serial ++ count ++
    (block.settings.filterMap fun setting => (settingToBytes bigEndian setting).toOption).flatten ++
      [0] = d
  have start : At d 0 (order ++ (serial ++ (count ++
      ((block.settings.filterMap fun setting => (settingToBytes bigEndian setting).toOption).flatten ++
        [0])))) := by
    constructor
    · rw [List.drop_zero, ← whole]
      simp only [List.append_assoc]
    · exact Nat.zero_le _
  have serialHere := start.step orderLong
  have countHere := serialHere.step serialLong
  have settingsHere := countHere.step countLong
  constructor
  · have long : ¬ d.length < 12 := Nat.not_lt.mpr settingsHere.2
    rw [readHeader, if_neg long, serialHere.load serialPacked, countHere.loadNat countPacked]
  · rw [pieces.length_eq]
    exact readSettings_packed pieces settingsHere

theorem xsettingsToBytes_ok {block : Block} :
    (∃ d, xsettingsToBytes bigEndian block = .ok d) ↔
      fits 4 block.serial ∧ fits 4 (kept block.settings).length := by
  have pieces : List.Forall₂ _ (kept block.settings) _ := kept_packed bigEndian block.settings
  rw [pieces.length_eq]
  constructor
  · rintro ⟨d, packed⟩
    obtain ⟨order, orderPacked, packed⟩ := ok_of_bind packed
    obtain ⟨serial, serialPacked, packed⟩ := ok_of_bind packed
    obtain ⟨count, countPacked, whole⟩ := ok_of_bind packed
    exact ⟨(pack_ok serialPacked).1, (pack_ok countPacked).1⟩
  · rintro ⟨serialSmall, countSmall⟩
    have orderSmall : fits 1 (localByteorder bigEndian) := by
      cases bigEndian with
      | false => exact (by decide : fits 1 0)
      | true => exact (by decide : fits 1 1)
    rw [xsettingsToBytes, packAll_cons, packAll_cons, packAll_cons, packAll_cons, pack_eq orderSmall,
      pack_eq (v := 0) (by decide), pack_eq serialSmall, pack_eq countSmall]
    exact ⟨_, rfl⟩

/-! ### What can be decoded -/

theorem fits_loadAt (d : Bytes) (pos n : Nat) : fits n (loadAt bigEndian d pos n) := by
  have short : (slice d pos n).length ≤ n := List.length_take_le _ _
  exact (fits_load _).mono short

theorem fits_slice {d : Bytes} {pos n width : Nat} (small : fits width n) :
    fits width (slice d pos n).length := by
  have short : (slice d pos n).length ≤ n := List.length_take_le _ _
  constructor
  · exact Int.natCast_nonneg _
  · exact lt_of_le_of_lt (Int.ofNat_le.mpr short) small.2

theorem readValue_encodable {d : Bytes} {pos stop : Nat} {settingType : Int} {value : Value}
    (read : readValue bigEndian d pos settingType = .ok (some (value, stop))) : value.encodable := by
  unfold readValue at read
  split at read
  · obtain ⟨_, -, read⟩ := ok_of_bind read
    cases read
    exact fits_loadAt _ _ _
  split at read
  · obtain ⟨_, -, read⟩ := ok_of_bind read
    obtain ⟨_, -, read⟩ := ok_of_bind read
    cases read
    exact fits_slice (fits_loadAt d pos 4)
  split at read
  · obtain ⟨_, -, read⟩ := ok_of_bind read
    cases read
    exact ⟨fits_loadAt _ _ _, fits_loadAt _ _ _, fits_loadAt _ _ _, fits_loadAt _ _ _⟩
  · cases read

theorem readSetting_encodable {d : Bytes} {pos stop : Nat} {setting : Setting}
    (read : readSetting bigEndian d pos = .ok (some (setting, stop))) : setting.encodable := by
  obtain ⟨_, -, read⟩ := ok_of_bind read
  obtain ⟨_, -, read⟩ := ok_of_bind read
  obtain ⟨value, valueRead, read⟩ := ok_of_bind read
  cases value with
  | none => cases read
  | some value =>
      obtain ⟨value, stop⟩ := value
      cases read
      exact ⟨fits_slice (fits_loadAt d (pos + 2) 2), fits_loadAt _ _ _, readValue_encodable valueRead⟩

/-- What is read from bytes fits the fields that it was read from. -/
theorem readSettings_encodable {d : Bytes} {n pos : Nat} {settings : List Setting}
    (read : readSettings bigEndian d n pos = .ok settings) :
    settings.length ≤ n ∧ ∀ setting ∈ settings, setting.encodable := by
  induction n generalizing pos settings with
  | zero =>
      cases read
      exact ⟨le_rfl, List.forall_mem_nil _⟩
  | succ n ih =>
      obtain ⟨first, firstRead, read⟩ := ok_of_bind read
      cases first with
      | none =>
          cases read
          exact ⟨Nat.zero_le _, List.forall_mem_nil _⟩
      | some first =>
          obtain ⟨setting, stop⟩ := first
          obtain ⟨others, othersRead, whole⟩ := ok_of_bind read
          cases whole
          obtain ⟨short, small⟩ := ih othersRead
          constructor
          · exact Nat.succ_le_succ short
          · exact List.forall_mem_cons.mpr ⟨readSetting_encodable firstRead, small⟩

theorem decoded_encodable {d : Bytes} {block : Block} (read : decoded bigEndian d = .ok block) :
    block.encodable := by
  obtain ⟨⟨serial, n⟩, headerRead, read⟩ := ok_of_bind read
  obtain ⟨settings, settingsRead, whole⟩ := ok_of_bind read
  cases whole
  unfold readHeader at headerRead
  split at headerRead
  · cases headerRead
  cases headerRead
  obtain ⟨short, small⟩ := readSettings_encodable settingsRead
  have count : fits 4 (load bigEndian (slice d 8 4)) := fits_loadAt d 8 4
  refine ⟨fits_loadAt d 4 4, ⟨Int.natCast_nonneg _, ?_⟩, small⟩
  exact lt_of_le_of_lt (Int.ofNat_le.mpr short) count.2

variable (bigEndian)

def nextCache (cache : Block) (d : Bytes) : Block := (bytesToXsettings bigEndian cache d).2

/-- The cache after any calls, for the bytes given to them. -/
def cacheAfter (history : List Bytes) : Block := history.foldl (nextCache bigEndian) initialCache

/-- The cache stays or is what the bytes say. -/
theorem nextCache_eq (cache : Block) (d : Bytes) :
    nextCache bigEndian cache d = cache ∨ decoded bigEndian d = .ok (nextCache bigEndian cache d) := by
  unfold nextCache bytesToXsettings decoded
  cases headerRead : readHeader bigEndian d with
  | error e => exact .inl rfl
  | ok header =>
      obtain ⟨serial, n⟩ := header
      dsimp only [bind, Except.bind]
      split
      · exact .inl rfl
      · cases settingsRead : readSettings bigEndian d n 12 with
        | error e => exact .inl rfl
        | ok settings => exact .inr rfl

theorem cacheAfter_encodable (history : List Bytes) : (cacheAfter bigEndian history).encodable := by
  have steps : ∀ cache : Block, cache.encodable →
      (history.foldl (nextCache bigEndian) cache).encodable := by
    induction history with
    | nil => exact fun _ small => small
    | cons d history ih =>
        intro cache small
        apply ih
        rcases nextCache_eq bigEndian cache d with same | read
        · rw [same]
          exact small
        · exact decoded_encodable read
  exact steps initialCache (by decide)

/-- A block written and read again. -/
def roundTrip (cache block : Block) : Except Exn Block := do
  (bytesToXsettings bigEndian cache (← xsettingsToBytes bigEndian block)).1

theorem kept_eq_iff (settings : List Setting) :
    kept settings = settings ↔ ∀ setting ∈ settings, setting.encodable := by
  simp only [kept, List.filter_eq_self, decide_eq_true_eq]

/-- With a cache that says what can be encoded, a block survives just when it can be encoded and is
not taken for the cached one. -/
theorem roundTrip_cached {cache : Block} (cacheSmall : cache.encodable) (block : Block) :
    roundTrip bigEndian cache block = .ok block ↔
      if cache.serial = block.serial then cache = block else block.encodable := by
  have written : block.encodable → ∃ d, xsettingsToBytes bigEndian block = .ok d := by
    rintro ⟨serialSmall, countSmall, small⟩
    apply xsettingsToBytes_ok.mpr
    rw [(kept_eq_iff _).mpr small]
    exact ⟨serialSmall, countSmall⟩
  cases packed : xsettingsToBytes bigEndian block with
  | error e =>
      have large : ¬ block.encodable := by
        intro small
        obtain ⟨d, other⟩ := written small
        cases packed.symm.trans other
      have unsaved : roundTrip bigEndian cache block ≠ .ok block := by
        rw [roundTrip, packed]
        intro impossible
        cases impossible
      split
      · exact iff_of_false unsaved fun same => large (same ▸ cacheSmall)
      · exact iff_of_false unsaved large
  | ok d =>
      obtain ⟨headerRead, settingsRead⟩ := xsettingsToBytes_reads packed
      obtain ⟨serialSmall, countSmall⟩ := xsettingsToBytes_ok.mp ⟨d, packed⟩
      have trip : roundTrip bigEndian cache block = (bytesToXsettings bigEndian cache d).1 := by
        rw [roundTrip, packed]
        rfl
      rw [trip, bytesToXsettings, headerRead]
      dsimp only
      split
      · simp only [Except.ok.injEq]
      · rw [settingsRead]
        simp only [Except.ok.injEq]
        constructor
        · intro same
          have all : kept block.settings = block.settings := congrArg Block.settings same
          rw [all] at countSmall
          exact ⟨serialSmall, countSmall, (kept_eq_iff _).mp all⟩
        · rintro ⟨-, -, small⟩
          rw [(kept_eq_iff _).mpr small]

/-- The cache is no matter just when its serial is not that of the bytes, or they say the same. -/
theorem bytesToXsettings_decoded (cache : Block) (d : Bytes) :
    (bytesToXsettings bigEndian cache d).1 = decoded bigEndian d ↔
      ∀ n, readHeader bigEndian d = .ok (cache.serial, n) → decoded bigEndian d = .ok cache := by
  unfold bytesToXsettings decoded
  cases headerRead : readHeader bigEndian d with
  | error e =>
      constructor
      · intro _ n impossible
        cases impossible
      · exact fun _ => rfl
  | ok header =>
      obtain ⟨serial, n⟩ := header
      dsimp only [bind, Except.bind]
      split
      · rename_i same
        subst same
        constructor
        · intro cached _ _
          exact cached.symm
        · intro agrees
          exact (agrees n rfl).symm
      · rename_i differs
        constructor
        · intro _ n' header
          cases header
          exact absurd rfl differs
        · intro _
          cases readSettings bigEndian d n 12 with
          | error e => rfl
          | ok settings => rfl

/-- After any calls, a block survives the round trip just when it can be encoded and its serial is
not that of the block decoded last, or it is this block. Bytes are decoded as they are just when
that serial is not theirs, or they say the same. -/
theorem xsettings_roundTrip_iff (history : List Bytes) (block : Block) :
    (roundTrip bigEndian (cacheAfter bigEndian history) block = .ok block ↔
      if (cacheAfter bigEndian history).serial = block.serial then
        cacheAfter bigEndian history = block
      else block.encodable) ∧
    ∀ d, (bytesToXsettings bigEndian (cacheAfter bigEndian history) d).1 = decoded bigEndian d ↔
      ∀ n, readHeader bigEndian d = .ok ((cacheAfter bigEndian history).serial, n) →
        decoded bigEndian d = .ok (cacheAfter bigEndian history) :=
  ⟨roundTrip_cached bigEndian (cacheAfter_encodable bigEndian history) block,
    bytesToXsettings_decoded bigEndian _⟩

end Machine

/-- A block that can be encoded, with the serial of the initial cache. -/
def firstBlock : Block := ⟨0, [⟨[97], .integer 1, 0⟩]⟩

theorem not_xsettings_roundTrip : ¬ ∀ (bigEndian : Bool) (history : List Bytes) (block : Block),
    block.encodable → roundTrip bigEndian (cacheAfter bigEndian history) block = .ok block := by
  intro trip
  have lost : roundTrip false (cacheAfter false []) firstBlock = .ok initialCache := rfl
  cases lost.symm.trans (trip false [] firstBlock (by decide))

end Catlink.X11.XSettings
