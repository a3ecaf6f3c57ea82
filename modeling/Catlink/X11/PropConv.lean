import Catlink.Struct
import Catlink.PyStr
import Mathlib.Tactic

/-! Lists of values converted to and from X11 properties. -/

namespace Catlink.X11.PropConv

open Struct Rencodeplus BigEndian

/-- The keys of `PROP_TYPES`, with the one that `prop.py` adds. -/
inductive PropType
  | utf8 | latin1 | state | u32 | integer | strut | strutPartial | motifHints | icons | window | atom
  deriving DecidableEq, Repr

/-- Values, with the instances of `NetWMStrut`, `MotifWMHints` and the lists of icons as objects. -/
inductive PropValue (Obj : Type)
  | str (text : PyStr)
  | int (value : Int)
  | object (value : Obj)
  deriving DecidableEq, Repr

/-- The Python type of the values. -/
inductive PyType
  | str | int | object
  deriving DecidableEq, Repr

variable {Obj : Type}

def PropValue.isinstance : PropValue Obj → PyType → Bool
  | .str _, .str | .int _, .int | .object _, .object => true
  | _, _ => false

/-- An entry of `PROP_TYPES`. A serializer is given values of the Python type only. -/
structure PropInfo (Obj : Type) where
  pytype : PyType
  atom : String
  formatbits : Nat
  serialize : PropValue Obj → Except Exn Bytes
  deserialize : Bytes → Except Exn (Option (PropValue Obj))
  terminator : Option Bytes

/-- The atoms of the X11 server: the name of an atom stays what it was interned with, and an atom
has 29 bits. -/
structure XServer where
  internAtom : Bytes → Except Exn Nat
  getAtomName : Nat → Except Exn Bytes
  interned : ∀ {name atom}, internAtom name = .ok atom →
    (0 < atom ∧ atom < 2 ^ 29) ∧ getAtomName atom = .ok name

/-- What the conversions depend on. Values of other types do not reach the constructors. -/
structure Env (Obj : Type) where
  machine : Machine
  server : XServer
  construct : PropType → Bytes → Except Exn (Option Obj)

def unsupported (_ : PropValue Obj) : Except Exn Bytes := .error (.runtimeError "unsupported")

def wrongType : Exn := .typeError "wrong type"

/-- `_to_latin1` -/
def toLatin1 : PropValue Obj → Except Exn Bytes
  | .str text => text.encodeLatin1
  | _ => .error wrongType

/-- `_from_latin1` -/
def fromLatin1 (v : Bytes) : Except Exn (Option (PropValue Obj)) :=
  .ok (some (.str (PyStr.decodeLatin1 v)))

/-- `_to_utf8` -/
def toUtf8 : PropValue Obj → Except Exn Bytes
  | .str text => text.encodeUtf8
  | _ => .error wrongType

/-- `_from_utf8` -/
def fromUtf8 (v : Bytes) : Except Exn (Option (PropValue Obj)) := do
  return some (.str (PyStr.ofString (← decodeUtf8 v)))

/-- The bytes that a `char *` stands for. -/
def cString (v : Bytes) : Bytes := v.takeWhile (· ≠ 0)

section Env

variable (env : Env Obj)

/-- `_to_long` -/
def toLong : PropValue Obj → Except Exn Bytes
  | .int v => pack env.machine.bigEndian env.machine.sizeofLong v
  | _ => .error wrongType

/-- The first of the values that `struct.unpack` makes of the data. -/
def unpackFirst (count : Nat) (v : Bytes) : Except Exn Int := do
  match ← unpack env.machine.bigEndian env.machine.sizeofLong count v with
  | value :: _ => return value
  | [] => .error (.indexError "tuple index out of range")

/-- `_from_long` -/
def fromLong (v : Bytes) : Except Exn (Option (PropValue Obj)) := do
  return some (.int (← unpackFirst env 1 v))

/-- `_to_state` -/
def toState : PropValue Obj → Except Exn Bytes
  | .int v => packAll env.machine.bigEndian env.machine.sizeofLong [v, 0]
  | _ => .error wrongType

/-- `_force_length` -/
def forceLength (data : Bytes) (length : Nat) : Bytes :=
  if data.length = length then data else (data ++ List.replicate length 0).take length

/-- `_from_state` -/
def fromState (v : Bytes) : Except Exn (Option (PropValue Obj)) := do
  return some (.int (← unpackFirst env 2 (forceLength v (env.machine.sizeofLong * 2))))

/-- `_to_atom`, through `get_xatom` and `str_to_atom` -/
def toAtom : PropValue Obj → Except Exn Bytes
  | .str text => do
      let atom ← env.server.internAtom (cString (← text.strtobytes))
      pack env.machine.bigEndian env.machine.sizeofLong atom
  | _ => .error wrongType

/-- `_get_atom` -/
def getAtom (d : Bytes) : Except Exn (Option (PropValue Obj)) := do
  let unpacked ← unpackFirst env 1 d
  if unpacked = 0 then return none
  let name := PyStr.decodeLatin1 (← env.server.getAtomName unpacked.toNat)
  if name = [] then return none
  return some (.str name)

def fromObject (etype : PropType) (v : Bytes) : Except Exn (Option (PropValue Obj)) := do
  return (← env.construct etype v).map .object

/-- `PROP_TYPES` -/
def propTypes : PropType → PropInfo Obj
  | .utf8 => ⟨.str, "UTF8_STRING", 8, toUtf8, fromUtf8, some [0]⟩
  | .latin1 => ⟨.str, "STRING", 8, toLatin1, fromLatin1, some [0]⟩
  | .state => ⟨.int, "WM_STATE", 32, toState env, fromState env, some []⟩
  | .u32 => ⟨.int, "CARDINAL", 32, toLong env, fromLong env, some []⟩
  | .integer => ⟨.int, "INTEGER", 32, toLong env, fromLong env, some []⟩
  | .strut => ⟨.object, "CARDINAL", 32, unsupported, fromObject env .strut, none⟩
  | .strutPartial => ⟨.object, "CARDINAL", 32, unsupported, fromObject env .strutPartial, none⟩
  | .motifHints => ⟨.object, "_MOTIF_WM_HINTS", 32, unsupported, fromObject env .motifHints, none⟩
  | .icons => ⟨.object, "CARDINAL", 32, unsupported, fromObject env .icons, none⟩
  | .window => ⟨.int, "WINDOW", 32, toLong env, fromLong env, some []⟩
  | .atom => ⟨.str, "ATOM", 32, toAtom env, getAtom env, some []⟩

def propEncodeScalar (etype : PropType) (value : PropValue Obj) : Except Exn (String × Nat × Bytes) :=
  let info := propTypes env etype
  if value.isinstance info.pytype then do
    return (info.atom, info.formatbits, ← info.serialize value)
  else .error (.assertionError s!"value for atom {info.atom} is not of its type")

/-- The serialized values of a list, in order. -/
def serializeAll (etype : PropType) : List (PropValue Obj) → Except Exn (List Bytes)
  | [] => .ok []
  | value :: values => do
      let (_, _, x) ← propEncodeScalar env etype value
      return x :: (← serializeAll etype values)

def propEncodeList (etype : PropType) (value : List (PropValue Obj)) :
    Except Exn (String × Nat × Bytes) :=
  let info := propTypes env etype
  match info.terminator with
  | none => .error (.valueError "cannot encode lists of this type")
  | some terminator => do
      return (info.atom, info.formatbits, terminator.intercalate (← serializeAll env etype value))

def propDecodeScalar (etype : PropType) (data : Bytes) : Except Exn (Option (PropValue Obj)) := do
  let info := propTypes env etype
  let value ← info.deserialize data
  if value.all fun value => value.isinstance info.pytype then return value
  else .error (.assertionError "expected a value of another type")

/-- Slices of `nbytes`, each pass taking at least one byte of the data. -/
def slices (nbytes : Nat) : Nat → Bytes → List Bytes
  | 0, _ => []
  | fuel + 1, data =>
      if data = [] then [] else data.take nbytes :: slices nbytes fuel (data.drop nbytes)

def datums (etype : PropType) (data : Bytes) : List Bytes :=
  let info := propTypes env etype
  match info.terminator with
  -- every terminator with contents is a single byte
  | some (separator :: _) => data.splitOn separator
  | _ =>
      let nbytes := if info.formatbits = 32 then env.machine.sizeofLong else info.formatbits / 8
      slices nbytes data.length data

/-- The values of some data, without those that are `None`. -/
def deserializeAll (etype : PropType) : List Bytes → Except Exn (List (PropValue Obj))
  | [] => .ok []
  | datum :: datums => do
      let value ← propDecodeScalar env etype datum
      let values ← deserializeAll etype datums
      return value.toList ++ values

def propDecodeList (etype : PropType) (data : Bytes) : Except Exn (List (PropValue Obj)) :=
  deserializeAll env etype (datums env etype data)

end Env

/-! ### Round trip -/

def PropType.isText (etype : PropType) : Prop := etype = .utf8 ∨ etype = .latin1

instance (etype : PropType) : Decidable etype.isText := inferInstanceAs (Decidable (_ ∨ _))

/-- A value of the type, for texts that are joined one without the separator. -/
def PropValue.ofType (etype : PropType) : PropValue Obj → Prop
  | .str text => etype.isText ∧ CodePoint.nul ∉ text ∨ etype = .atom
  | .int _ => etype = .state ∨ etype = .u32 ∨ etype = .integer ∨ etype = .window
  | .object _ => etype = .strut ∨ etype = .strutPartial ∨ etype = .motifHints ∨ etype = .icons

/-- UTF-8 has no surrogates, Latin-1 has 256 characters, the server may refuse an atom, and an integer
is packed as an unsigned `long`. -/
def PropValue.encodable (env : Env Obj) (etype : PropType) : PropValue Obj → Prop
  | .str text =>
      (etype = .utf8 → ∀ c ∈ text, ¬ c.isSurrogate) ∧ (etype = .latin1 → ∀ c ∈ text, c.val < 256) ∧
        (etype = .atom → ∃ name atom, text.strtobytes = .ok name ∧
          env.server.internAtom (cString name) = .ok atom)
  | .int v => fits env.machine.sizeofLong v
  | .object _ => False

/-- The name of the atom that is interned for a text, unless it is empty. -/
def atomName (text : PyStr) : Option (PropValue Obj) :=
  match text.strtobytes with
  | .error _ => none
  | .ok name =>
      if PyStr.decodeLatin1 (cString name) = [] then none
      else some (.str (PyStr.decodeLatin1 (cString name)))

/-- What is decoded in the place of a value that was encoded. -/
def PropValue.readBack (etype : PropType) : PropValue Obj → Option (PropValue Obj)
  | .str text => if etype = .atom then atomName text else some (.str text)
  | value => some value

/-- The name of an atom is some Latin-1 text without the end of a C string. -/
def PropValue.named (etype : PropType) : PropValue Obj → Prop
  | .str text => etype = .atom → text ≠ [] ∧ CodePoint.nul ∉ text ∧ ∀ c ∈ text, c.val < 256
  | _ => True

theorem cString_eq_self {v : Bytes} (clean : 0 ∉ v) : cString v = v := by
  unfold cString
  induction v with
  | nil => rfl
  | cons b v ih =>
      rw [List.mem_cons, not_or] at clean
      have kept : decide (b ≠ 0) = true := decide_eq_true (Ne.symm clean.1)
      rw [List.takeWhile_cons, kept, ih clean.2]
      rfl

theorem PropValue.readBack_of_named {etype : PropType} {value : PropValue Obj}
    (named : value.named etype) : value.readBack etype = some value := by
  cases value with
  | int | object => rfl
  | str text =>
      unfold readBack
      dsimp only
      split
      · rename_i atom
        obtain ⟨some, clean, small⟩ := named atom
        have encoded : text.encodeLatin1 = .ok (text.map fun c => UInt8.ofNat c.val) :=
          PyStr.encodeLatin1_of_small small
        have bytes : text.strtobytes = .ok (text.map fun c => UInt8.ofNat c.val) := by
          rw [PyStr.strtobytes, encoded]
        have whole := cString_eq_self (PyStr.zero_not_mem_encodeLatin1 clean encoded)
        rw [atomName, bytes]
        dsimp only
        rw [whole, PyStr.decode_encodeLatin1 encoded, if_neg some]
      · rfl

theorem slices_flatten {n fuel : Nat} (positive : 0 < n) {pieces : List Bytes}
    (long : ∀ piece ∈ pieces, piece.length = n) (enough : pieces.flatten.length ≤ fuel) :
    slices n fuel pieces.flatten = pieces := by
  induction pieces generalizing fuel with
  | nil =>
      cases fuel with
      | zero => rfl
      | succ fuel => rfl
  | cons piece pieces ih =>
      obtain ⟨first, others⟩ := List.forall_mem_cons.mp long
      rw [List.flatten_cons, List.length_append] at enough
      cases fuel with
      | zero => omega
      | succ fuel =>
          have some : piece ++ pieces.flatten ≠ [] := by
            intro empty
            rw [List.append_eq_nil_iff] at empty
            rw [empty.1, List.length_nil] at first
            omega
          rw [List.flatten_cons, slices, if_neg some, List.take_left' first, List.drop_left' first,
            ih others (by omega)]

theorem intercalate_nothing (pieces : List Bytes) : ([] : Bytes).intercalate pieces = pieces.flatten := by
  induction pieces with
  | nil => rfl
  | cons piece pieces ih =>
      cases pieces with
      | nil => simp
      | cons second pieces =>
          rw [List.intercalate_cons_cons, ih, List.append_nil, ← List.flatten_cons]

section Env

variable (env : Env Obj)

/-- What a serialized value is for the list: text without a separator, or of a slice's size. -/
def Piece (etype : PropType) (x : Bytes) : Prop :=
  if etype.isText then 0 ∉ x else x.length = env.machine.sizeofLong

/-- The value becomes these bytes, and they become what is read back of it. -/
structure Serialized (etype : PropType) (value : PropValue Obj) (x : Bytes) : Prop where
  encoded : propEncodeScalar env etype value =
    .ok ((propTypes env etype).atom, (propTypes env etype).formatbits, x)
  decoded : propDecodeScalar env etype x = .ok (value.readBack etype)
  piece : Piece env etype x

theorem serialized_utf8 {text : PyStr} (clean : CodePoint.nul ∉ text) (plain : ∀ c ∈ text, ¬ c.isSurrogate) :
    ∃ x, Serialized env .utf8 (.str text) x := by
  have encoded : text.encodeUtf8 = .ok (utf8 text.toString) := by
    rw [PyStr.encodeUtf8, if_neg]
    rintro ⟨c, member, surrogate⟩
    exact plain c member surrogate
  refine ⟨utf8 text.toString, ?_, ?_, ?_⟩
  · rw [propEncodeScalar, if_pos (by rfl)]
    dsimp only [propTypes, toUtf8]
    rw [encoded]
    rfl
  · obtain ⟨decoded, read, same⟩ := PyStr.decode_encodeUtf8 encoded
    simp only [propDecodeScalar, propTypes, fromUtf8, read, same, bind, Except.bind, pure, Except.pure]
    rfl
  · rw [Piece, if_pos (by decide)]
    exact PyStr.zero_not_mem_encodeUtf8 clean encoded

theorem serialized_latin1 {text : PyStr} (clean : CodePoint.nul ∉ text) (small : ∀ c ∈ text, c.val < 256) :
    ∃ x, Serialized env .latin1 (.str text) x := by
  have encoded : text.encodeLatin1 = .ok (text.map fun c => UInt8.ofNat c.val) :=
    PyStr.encodeLatin1_of_small small
  refine ⟨text.map fun c => UInt8.ofNat c.val, ?_, ?_, ?_⟩
  · rw [propEncodeScalar, if_pos (by rfl)]
    dsimp only [propTypes, toLatin1]
    rw [encoded]
    rfl
  · simp only [propDecodeScalar, propTypes, fromLatin1, PyStr.decode_encodeLatin1 encoded, bind,
      Except.bind, pure, Except.pure]
    rfl
  · rw [Piece, if_pos (by decide)]
    exact PyStr.zero_not_mem_encodeLatin1 clean encoded

theorem unpackFirst_packed {v : Int} {x : Bytes}
    (packed : pack env.machine.bigEndian env.machine.sizeofLong v = .ok x) :
    unpackFirst env 1 x = .ok v := by
  have long := pack_length packed
  have whole : x.length = 1 * env.machine.sizeofLong := by
    rw [long, Nat.one_mul]
  have loaded := load_pack packed
  rw [unpackFirst, unpack, if_pos whole, values, ← long, List.take_length, loaded]
  rfl

theorem serialized_long {etype : PropType} (long : etype = .u32 ∨ etype = .integer ∨ etype = .window)
    {v : Int} {x : Bytes} (packed : pack env.machine.bigEndian env.machine.sizeofLong v = .ok x) :
    Serialized env etype (.int v) x := by
  have read : fromLong env x = .ok (some (.int v : PropValue Obj)) := by
    rw [fromLong, unpackFirst_packed env packed]
    rfl
  have piece : ¬ etype.isText → Piece env etype x := by
    intro number
    rw [Piece, if_neg number]
    exact pack_length packed
  rcases long with rfl | rfl | rfl
  all_goals
    constructor
    · rw [propEncodeScalar, if_pos (by rfl)]
      dsimp only [propTypes, toLong]
      rw [packed]
      rfl
    · rw [propDecodeScalar]
      dsimp only [propTypes]
      rw [read]
      rfl
    · exact piece (by decide)

theorem fits_atom {atom : Nat} (small : atom < 2 ^ 29) : fits env.machine.sizeofLong atom := by
  have four : fits 4 (atom : Int) := ⟨Int.natCast_nonneg _, by omega⟩
  rcases env.machine.sized with sized | sized
  · exact sized ▸ four
  · exact sized ▸ four.mono (by decide)

theorem toAtom_eq {text : PyStr} {name : Bytes} {atom : Nat} (bytes : text.strtobytes = .ok name)
    (interned : env.server.internAtom (cString name) = .ok atom) :
    toAtom env (.str text) = pack env.machine.bigEndian env.machine.sizeofLong atom := by
  rw [toAtom, bytes]
  dsimp only [bind, Except.bind]
  rw [interned]

theorem isinstance_atomName (text : PyStr) :
    (atomName text : Option (PropValue Obj)).all (fun value => value.isinstance .str) = true := by
  unfold atomName
  split
  · rfl
  split
  · rfl
  · rfl

theorem serialized_atom {text : PyStr} {name : Bytes} {atom : Nat} (bytes : text.strtobytes = .ok name)
    (interned : env.server.internAtom (cString name) = .ok atom) :
    ∃ x, Serialized env .atom (.str text) x := by
  obtain ⟨⟨positive, small⟩, back⟩ := env.server.interned interned
  have packed : pack env.machine.bigEndian env.machine.sizeofLong atom =
      .ok (store env.machine.bigEndian env.machine.sizeofLong (atom : Int).toNat) :=
    pack_eq (fits_atom env small)
  refine ⟨store env.machine.bigEndian env.machine.sizeofLong (atom : Int).toNat, ?_, ?_, ?_⟩
  · rw [propEncodeScalar, if_pos (by rfl)]
    dsimp only [propTypes]
    rw [toAtom_eq env bytes interned, packed]
    rfl
  · have read : getAtom env (store env.machine.bigEndian env.machine.sizeofLong (atom : Int).toNat) =
        .ok (atomName text) := by
      have some : (atom : Int) ≠ 0 := by omega
      rw [getAtom, unpackFirst_packed env packed]
      dsimp only [bind, Except.bind]
      rw [if_neg some, Int.toNat_natCast, back, atomName, bytes]
      dsimp only [pure, Except.pure]
      split <;> rfl
    rw [propDecodeScalar]
    dsimp only [propTypes]
    rw [read, PropValue.readBack, if_pos rfl]
    exact if_pos (isinstance_atomName text)
  · rw [Piece, if_neg (by decide)]
    exact pack_length packed

/-- A value is serialized just when it can be encoded. -/
theorem propEncodeScalar_ok {etype : PropType} {value : PropValue Obj}
    (terminated : (propTypes env etype).terminator ≠ none) (single : etype ≠ .state)
    (typed : value.ofType etype) :
    (value.encodable env etype → ∃ x, Serialized env etype value x) ∧
      ∀ encoded, propEncodeScalar env etype value = .ok encoded →
        value.encodable env etype := by
  cases value with
  | str text =>
      rcases typed with ⟨rfl | rfl, clean⟩ | rfl
      · refine ⟨fun small => serialized_utf8 env clean (small.1 rfl), ?_⟩
        intro encoded done
        obtain ⟨x, serialized, -⟩ := ok_of_bind done
        exact ⟨fun _ => PyStr.plain_of_encodeUtf8 serialized, fun latin1 => absurd latin1 (by decide),
          fun atom => absurd atom (by decide)⟩
      · refine ⟨fun small => serialized_latin1 env clean (small.2.1 rfl), ?_⟩
        intro encoded done
        obtain ⟨x, serialized, -⟩ := ok_of_bind done
        exact ⟨fun utf8 => absurd utf8 (by decide), fun _ => PyStr.small_of_encodeLatin1 serialized,
          fun atom => absurd atom (by decide)⟩
      · constructor
        · intro small
          obtain ⟨name, atom, bytes, interned⟩ := small.2.2 rfl
          exact serialized_atom env bytes interned
        · intro encoded done
          obtain ⟨x, serialized, -⟩ := ok_of_bind done
          obtain ⟨name, bytes, serialized⟩ := ok_of_bind serialized
          obtain ⟨atom, interned, -⟩ := ok_of_bind serialized
          exact ⟨fun utf8 => absurd utf8 (by decide), fun latin1 => absurd latin1 (by decide),
            fun _ => ⟨name, atom, bytes, interned⟩⟩
  | int v =>
      have long : etype = .u32 ∨ etype = .integer ∨ etype = .window := by
        rcases typed with state | others
        · exact absurd state single
        · exact others
      constructor
      · intro small
        exact ⟨_, serialized_long env long (pack_eq small)⟩
      · intro encoded done
        rcases long with rfl | rfl | rfl
        all_goals
          obtain ⟨x, packed, -⟩ := ok_of_bind done
          exact (pack_ok packed).1
  | object value =>
      rcases typed with rfl | rfl | rfl | rfl
      all_goals exact absurd rfl terminated

/-- Values and what they are serialized to, one by one. -/
def AllSerialized (etype : PropType) (values : List (PropValue Obj)) (pieces : List Bytes) : Prop :=
  List.Forall₂ (Serialized env etype) values pieces

section Lists

variable {etype : PropType} (terminated : (propTypes env etype).terminator ≠ none)
  (single : etype ≠ .state)
include terminated single

theorem serializeAll_ok {values : List (PropValue Obj)} {pieces : List Bytes}
    (typed : ∀ value ∈ values, value.ofType etype)
    (done : serializeAll env etype values = .ok pieces) :
    (∀ value ∈ values, value.encodable env etype) ∧
      AllSerialized env etype values pieces := by
  induction values generalizing pieces with
  | nil =>
      cases done
      exact ⟨List.forall_mem_nil _, .nil⟩
  | cons value values ih =>
      obtain ⟨first, others⟩ := List.forall_mem_cons.mp typed
      obtain ⟨encoded, firstDone, done⟩ := ok_of_bind done
      obtain ⟨rest, restDone, whole⟩ := ok_of_bind done
      cases whole
      obtain ⟨written, needed⟩ := propEncodeScalar_ok env terminated single first
      have small := needed encoded firstDone
      obtain ⟨x, serialized⟩ := written small
      cases firstDone.symm.trans serialized.encoded
      obtain ⟨restSmall, restSerialized⟩ := ih others restDone
      exact ⟨List.forall_mem_cons.mpr ⟨small, restSmall⟩, .cons serialized restSerialized⟩

theorem serializeAll_encodable {values : List (PropValue Obj)}
    (typed : ∀ value ∈ values, value.ofType etype)
    (small : ∀ value ∈ values, value.encodable env etype) :
    ∃ pieces, serializeAll env etype values = .ok pieces := by
  induction values with
  | nil => exact ⟨[], rfl⟩
  | cons value values ih =>
      obtain ⟨first, others⟩ := List.forall_mem_cons.mp typed
      obtain ⟨firstSmall, restSmall⟩ := List.forall_mem_cons.mp small
      obtain ⟨x, serialized⟩ :=
        (propEncodeScalar_ok env terminated single first).1 firstSmall
      obtain ⟨rest, restDone⟩ := ih others restSmall
      rw [serializeAll, serialized.encoded, restDone]
      exact ⟨x :: rest, rfl⟩

end Lists

theorem deserializeAll_serialized {etype : PropType} {values : List (PropValue Obj)}
    {pieces : List Bytes} (serialized : AllSerialized env etype values pieces) :
    deserializeAll env etype pieces = .ok (values.filterMap (PropValue.readBack etype)) := by
  induction serialized with
  | nil => rfl
  | cons first _ ih =>
      rw [deserializeAll, first.decoded]
      dsimp only [bind, Except.bind]
      rw [ih]
      rw [List.filterMap_cons]
      dsimp only [pure, Except.pure]
      split
      · rename_i none
        rw [none]
        rfl
      · rename_i value some
        rw [some]
        rfl

variable {env} in
theorem AllSerialized.pieces {etype : PropType} {values : List (PropValue Obj)} {pieces : List Bytes}
    (all : AllSerialized env etype values pieces) :
    ∀ piece ∈ pieces, Piece env etype piece := by
  induction all with
  | nil => exact List.forall_mem_nil _
  | cons first _ ih => exact List.forall_mem_cons.mpr ⟨first.piece, ih⟩

/-- No data is one empty text. -/
theorem deserializeAll_emptyText {etype : PropType} (textual : etype.isText) :
    deserializeAll env etype [[]] = .ok [.str []] := by
  rcases textual with rfl | rfl
  · rfl
  · rfl

theorem filterMap_readBack {etype : PropType} {values : List (PropValue Obj)}
    (named : ∀ value ∈ values, value.named etype) :
    values.filterMap (PropValue.readBack etype) = values := by
  induction values with
  | nil => rfl
  | cons value values ih =>
      obtain ⟨first, others⟩ := List.forall_mem_cons.mp named
      rw [List.filterMap_cons, PropValue.readBack_of_named first, ih others]

theorem splitOn_joined {pieces : List Bytes} (clean : ∀ piece ∈ pieces, 0 ∉ piece) :
    (([0] : Bytes).intercalate pieces).splitOn 0 = if pieces = [] then [[]] else pieces := by
  split
  · rename_i empty
    subst empty
    rfl
  · rename_i some
    exact List.splitOn_intercalate 0 clean some

theorem slices_joined {pieces : List Bytes}
    (long : ∀ piece ∈ pieces, piece.length = env.machine.sizeofLong) :
    slices env.machine.sizeofLong (([] : Bytes).intercalate pieces).length
      (([] : Bytes).intercalate pieces) = pieces := by
  rw [intercalate_nothing]
  exact slices_flatten env.machine.sizeofLong_pos long le_rfl

/-- Pieces are separated as they were joined, except that no piece is one empty text. -/
theorem datums_intercalate {etype : PropType} {terminator : Bytes} {pieces : List Bytes}
    (terminated : (propTypes env etype).terminator = some terminator)
    (each : ∀ piece ∈ pieces, Piece env etype piece) :
    datums env etype (terminator.intercalate pieces) =
      if pieces = [] ∧ etype.isText then [[]] else pieces := by
  by_cases textual : etype.isText
  · have clean : ∀ piece ∈ pieces, 0 ∉ piece := by
      intro piece member
      have held := each piece member
      rw [Piece, if_pos textual] at held
      exact held
    simp only [textual, and_true]
    rw [← splitOn_joined clean]
    rcases textual with rfl | rfl
    all_goals
      cases terminated
      rfl
  · have long : ∀ piece ∈ pieces, piece.length = env.machine.sizeofLong := by
      intro piece member
      have held := each piece member
      rw [Piece, if_neg textual] at held
      exact held
    have joined := slices_joined env long
    simp only [textual, and_false, if_false]
    cases etype with
    | utf8 => exact absurd (.inl rfl) textual
    | latin1 => exact absurd (.inr rfl) textual
    | strut | strutPartial | motifHints | icons => cases terminated
    | state | u32 | integer | window | atom =>
        cases terminated
        exact joined

/-- For every type with a list terminator but `state`, a list of its values can be encoded just when
each of them can be, and what is read back of each of them is decoded, which are the values when
they name atoms in Latin-1; the empty list of texts is decoded as one empty text, texts being
separated and not terminated. -/
theorem propDecodeList_propEncodeList {etype : PropType} {values : List (PropValue Obj)}
    (terminated : (propTypes env etype).terminator ≠ none) (single : etype ≠ .state)
    (typed : ∀ value ∈ values, value.ofType etype) :
    ((∃ encoded, propEncodeList env etype values = .ok encoded) ↔
      ∀ value ∈ values, value.encodable env etype) ∧
    ((∀ value ∈ values, value.named etype) →
      values.filterMap (PropValue.readBack etype) = values) ∧
    ∀ encoded, propEncodeList env etype values = .ok encoded →
      propDecodeList env etype encoded.2.2 =
        .ok (if values = [] ∧ etype.isText then [.str []]
          else values.filterMap (PropValue.readBack etype)) := by
  have encodes : ∀ {encoded}, propEncodeList env etype values = .ok encoded →
      ∃ terminator pieces, (propTypes env etype).terminator = some terminator ∧
        serializeAll env etype values = .ok pieces ∧
        encoded.2.2 = terminator.intercalate pieces := by
    intro encoded done
    unfold propEncodeList at done
    dsimp only at done
    cases known : (propTypes env etype).terminator with
    | none => exact absurd known terminated
    | some terminator =>
        rw [known] at done
        obtain ⟨pieces, serialized, whole⟩ := ok_of_bind done
        cases whole
        exact ⟨terminator, pieces, rfl, serialized, rfl⟩
  constructor
  · constructor
    · rintro ⟨encoded, done⟩
      obtain ⟨_, pieces, -, serialized, -⟩ := encodes done
      exact (serializeAll_ok env terminated single typed serialized).1
    · intro small
      obtain ⟨pieces, serialized⟩ := serializeAll_encodable env terminated single typed small
      unfold propEncodeList
      dsimp only
      cases known : (propTypes env etype).terminator with
      | none => exact absurd known terminated
      | some terminator =>
          dsimp only
          rw [serialized]
          exact ⟨_, rfl⟩
  constructor
  · exact filterMap_readBack
  · intro encoded done
    obtain ⟨terminator, pieces, known, serialized, bytes⟩ := encodes done
    have all := (serializeAll_ok env terminated single typed serialized).2
    have each := all.pieces
    have decoded := deserializeAll_serialized env all
    have sameLength := all.length_eq
    rw [propDecodeList, bytes, datums_intercalate env known each]
    by_cases empty : values = []
    · subst empty
      cases List.length_eq_zero_iff.mp sameLength.symm
      by_cases textual : etype.isText
      · rw [if_pos ⟨rfl, textual⟩, if_pos ⟨rfl, textual⟩]
        exact deserializeAll_emptyText env textual
      · rw [if_neg fun both => textual both.2, if_neg fun both => textual both.2]
        exact decoded
    · have some : pieces ≠ [] := by
        rintro rfl
        exact empty (List.length_eq_zero_iff.mp sameLength)
      rw [if_neg fun both => some both.1, if_neg fun both => empty both.1]
      exact decoded

end Env

def lp64 : Machine := ⟨false, 8, eight_sized⟩

/-- The two atoms of the protocol with these names, on a server that has no memory for others. -/
def internPredefined (name : Bytes) : Except Exn Nat :=
  if name = utf8 "PRIMARY" then .ok 1
  else if name = utf8 "SECONDARY" then .ok 2
  else .error (.other "BadAlloc")

def predefinedName : Nat → Except Exn Bytes
  | 1 => .ok (utf8 "PRIMARY")
  | 2 => .ok (utf8 "SECONDARY")
  | _ => .error (.other "BadAtom")

theorem internPredefined_name {name : Bytes} {atom : Nat} (interned : internPredefined name = .ok atom) :
    (0 < atom ∧ atom < 2 ^ 29) ∧ predefinedName atom = .ok name := by
  unfold internPredefined at interned
  split at interned
  · rename_i primary
    cases interned
    exact ⟨by decide, congrArg Except.ok primary.symm⟩
  split at interned
  · rename_i secondary
    cases interned
    exact ⟨by decide, congrArg Except.ok secondary.symm⟩
  · cases interned

def noObjects (_ : PropType) (_ : Bytes) : Except Exn (Option Empty) := .ok none

def display : Env Empty := ⟨lp64, ⟨internPredefined, predefinedName, internPredefined_name⟩, noObjects⟩

def selections : List (PropValue Empty) :=
  [.str (PyStr.ofString "PRIMARY"), .str (PyStr.ofString "SECONDARY")]

theorem propDecodeList_selections :
    (do propDecodeList display .atom (← propEncodeList display .atom selections).2.2) =
      .ok selections := by
  have typed : ∀ value ∈ selections, value.ofType .atom := by
    intro value member
    rcases List.mem_pair.mp member with rfl | rfl
    · exact .inr rfl
    · exact .inr rfl
  obtain ⟨encodes, same, decodes⟩ :=
    propDecodeList_propEncodeList display (by decide) (by decide) typed
  obtain ⟨encoded, done⟩ := encodes.mpr (by
    intro value member
    rcases List.mem_pair.mp member with rfl | rfl
    · exact ⟨by decide, by decide, fun _ => ⟨utf8 "PRIMARY", 1, by decide +kernel, by decide +kernel⟩⟩
    · exact ⟨by decide, by decide, fun _ => ⟨utf8 "SECONDARY", 2, by decide +kernel, by decide +kernel⟩⟩)
  have named : ∀ value ∈ selections, value.named .atom := by
    intro value member
    rcases List.mem_pair.mp member with rfl | rfl
    · exact fun _ => by decide +kernel
    · exact fun _ => by decide +kernel
  rw [done]
  exact (decodes encoded done).trans (congrArg Except.ok (same named))

theorem not_propDecodeList_propEncodeList : ¬ ∀ (env : Env Empty) (etype : PropType)
    (values : List (PropValue Empty)), (propTypes env etype).terminator ≠ none →
    (∀ value ∈ values, value.ofType etype ∧ value.encodable env etype) →
    (do propDecodeList env etype (← propEncodeList env etype values).2.2) = .ok values := by
  intro trip
  have encoded : propEncodeList display .utf8 [] = .ok ("UTF8_STRING", 8, []) := rfl
  have same := trip display .utf8 [] (by decide) (List.forall_mem_nil _)
  rw [encoded] at same
  cases (deserializeAll_emptyText display (.inl rfl)).symm.trans same

end Catlink.X11.PropConv
