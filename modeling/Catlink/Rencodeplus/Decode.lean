import Catlink.Rencodeplus.Encode
import Mathlib.Data.Nat.Log

/-! The decoder, over the memory it is given a pointer to and the position it moves through it. -/

namespace Catlink.Rencodeplus

open BigEndian

/-! ### The data -/

/-- `char *data` with `data_length`: what a read at an index gives. -/
structure CharBuffer where
  length : Nat
  peek : Nat → Except Exn UInt8

/-- The memory of a `bytes` object ends with a null byte that its length leaves out. -/
def bytesBuffer (data : Bytes) : CharBuffer where
  length := data.length
  peek i :=
    if h : i < data.length then .ok data[i]
    else if i = data.length then .ok 0
    else .error (.other "read out of bounds")

/-- `data[start:start + size]` -/
def slice (data : CharBuffer) (start : Nat) : Nat → Except Exn Bytes
  | 0 => .ok []
  | size + 1 => do
      let b ← data.peek start
      let bs ← slice data (start + 1) size
      .ok (b :: bs)

/-- An `unsigned int` is given a value. -/
def uint (n : Int) : Nat := (n % 2 ^ 32).toNat

def checkPos (data : CharBuffer) (pos : Nat) : Except Exn Unit :=
  if pos ≥ data.length then
    .error (.indexError s!"Tried to access data[{pos}] but data len is: {data.length}")
  else .ok ()

/-! ### `int()` of some bytes -/

def isSpace (b : UInt8) : Bool := b = 32 || (9 ≤ b && b ≤ 13)

/-- Single underscores may stand between digits. -/
def intDigits (value : Nat) (afterDigit : Bool) : Bytes → Option Nat
  | [] => if afterDigit then some value else none
  | b :: bs =>
      if 48 ≤ b ∧ b ≤ 57 then intDigits (10 * value + (b.toNat - 48)) true bs
      else if b = 95 ∧ afterDigit then intDigits value false bs
      else none

def strip (bs : Bytes) : Bytes :=
  ((bs.dropWhile isSpace).reverse.dropWhile isSpace).reverse

def signedDigits : Bytes → Option Int
  | 43 :: digits => (intDigits 0 false digits).map fun n : Nat => (n : Int)
  | 45 :: digits => (intDigits 0 false digits).map fun n : Nat => -(n : Int)
  | digits => (intDigits 0 false digits).map fun n : Nat => (n : Int)

def pyInt (text : Bytes) : Except Exn Int :=
  match signedDigits (strip text) with
  | some n => .ok n
  | none => .error (.valueError "invalid literal for int() with base 10")

/-- A C `int` is given a Python one. -/
def asInt (n : Int) : Except Exn Int :=
  if -2 ^ 31 ≤ n ∧ n < 2 ^ 31 then .ok n
  else .error (.overflowError "value too large to convert to int")

/-- `s.decode("utf8")` -/
def decodeUtf8 (s : Bytes) : Except Exn String :=
  match String.fromUTF8? ⟨s.toArray⟩ with
  | some text => .ok text
  | none => .error (.valueError "'utf-8' codec can't decode")

/-! ### Floats as keys and from 32 bits -/

/-- A number as dictionary keys compare it, in units of the smallest positive double. -/
inductive Number
  | finite (units : Int)
  | infinite (negative : Bool)
  | nan
  deriving DecidableEq

def floatNumber (bits : BitVec 64) : Number :=
  let n := bits.toNat
  let exponent := n / 2 ^ 52 % 2 ^ 11
  let fraction := n % 2 ^ 52
  if exponent = 2047 then if fraction = 0 then .infinite bits.msb else .nan
  else
    let units : Nat := if exponent = 0 then fraction else (2 ^ 52 + fraction) * 2 ^ (exponent - 1)
    .finite (if bits.msb then -(units : Int) else units)

def number? : PyVal → Option Number
  | .bool value => some (.finite (if value then 2 ^ 1074 else 0))
  | .int value => some (.finite (value * 2 ^ 1074))
  | .float bits => some (floatNumber bits)
  | _ => none

/-- A `float` made a `double`. -/
def widenFloat (bits : Nat) : BitVec 64 :=
  let sign := bits / 2 ^ 31 % 2
  let exponent := bits / 2 ^ 23 % 2 ^ 8
  let fraction := bits % 2 ^ 23
  let rest :=
    if exponent = 255 then
      -- a signalling NaN becomes a quiet one
      2047 * 2 ^ 52 + if fraction = 0 then 0 else (fraction * 2 ^ 29) ||| 2 ^ 51
    else if exponent ≠ 0 then (exponent + 896) * 2 ^ 52 + fraction * 2 ^ 29
    else if fraction = 0 then 0
    else
      let leading := Nat.log2 fraction
      (leading + 874) * 2 ^ 52 + (fraction - 2 ^ leading) * 2 ^ (52 - leading)
  BitVec.ofNat 64 (sign * 2 ^ 63 + rest)

/-! ### Dictionaries -/

mutual
/-- `==` on the keys a dictionary can have. -/
def keyEq : PyVal → PyVal → Bool
  | .none, .none => true
  | .bytes x, .bytes y => x = y
  | .str x, .str y => x = y
  | .tuple xs, .tuple ys => keysEq xs ys
  | x, y =>
      match number? x, number? y with
      | some m, some n => m = n ∧ m ≠ .nan
      | _, _ => false

def keysEq : List PyVal → List PyVal → Bool
  | [], [] => true
  | x :: xs, y :: ys => keyEq x y && keysEq xs ys
  | _, _ => false
end

mutual
def hashable : PyVal → Bool
  | .list _ | .dict _ => false
  | .tuple items => hashableAll items
  | _ => true

def hashableAll : List PyVal → Bool
  | [] => true
  | item :: items => hashable item && hashableAll items
end

/-- An equal key stays the first one and gets the new value. -/
def setEntry (k v : PyVal) : List (PyVal × PyVal) → List (PyVal × PyVal)
  | [] => [(k, v)]
  | entry :: entries =>
      if keyEq entry.1 k then (entry.1, v) :: entries else entry :: setEntry k v entries

/-- `d[k] = v` -/
def setItem (d : List (PyVal × PyVal)) (k v : PyVal) : Except Exn (List (PyVal × PyVal)) :=
  if hashable k then .ok (setEntry k v d) else .error (.typeError "unhashable type: 'dict'")

/-! ### Reading -/

/-- The machine integer in the bytes after the type code. -/
def decodeFixedWidth (bigEndian : Bool) (data : CharBuffer) (width pos : Nat) :
    Except Exn (Nat × Nat) := do
  checkPos data (uint (pos + width))
  let c ← slice data (uint (pos + 1)) width
  let n := load bigEndian c
  .ok (if bigEndian then n else swapBytes bigEndian (store bigEndian width n), uint (pos + (width + 1)))

def decodeChar (data : CharBuffer) (pos : Nat) : Except Exn (PyVal × Nat) := do
  checkPos data (uint (pos + 1))
  let c ← data.peek (uint (pos + 1))
  .ok (.int (BitVec.ofNat 8 c.toNat).toInt, uint (pos + 2))

def decodeShort (bigEndian : Bool) (data : CharBuffer) (pos : Nat) : Except Exn (PyVal × Nat) := do
  let (s, pos) ← decodeFixedWidth bigEndian data 2 pos
  .ok (.int (BitVec.ofNat 16 s).toInt, pos)

def decodeInt (bigEndian : Bool) (data : CharBuffer) (pos : Nat) : Except Exn (PyVal × Nat) := do
  let (i, pos) ← decodeFixedWidth bigEndian data 4 pos
  .ok (.int (BitVec.ofNat 32 i).toInt, pos)

def decodeLongLong (bigEndian : Bool) (data : CharBuffer) (pos : Nat) :
    Except Exn (PyVal × Nat) := do
  let (l, pos) ← decodeFixedWidth bigEndian data 8 pos
  .ok (.int (BitVec.ofNat 64 l).toInt, pos)

def decodeFloat32 (bigEndian : Bool) (data : CharBuffer) (pos : Nat) :
    Except Exn (PyVal × Nat) := do
  let (f, pos) ← decodeFixedWidth bigEndian data 4 pos
  .ok (.float (widenFloat f), pos)

def decodeFloat64 (bigEndian : Bool) (data : CharBuffer) (pos : Nat) :
    Except Exn (PyVal × Nat) := do
  let (d, pos) ← decodeFixedWidth bigEndian data 8 pos
  .ok (.float (BitVec.ofNat 64 d), pos)

def decodeFixedPosInt (typecode pos : Nat) : PyVal × Nat :=
  (.int (typecode - INT_POS_FIXED_START), uint (pos + 1))

def decodeFixedNegInt (typecode pos : Nat) : PyVal × Nat :=
  (.int ((typecode - INT_NEG_FIXED_START + 1) * -1), uint (pos + 1))

/-- The `while` loop of `decode_big_number`, with `rounds` left before `x` is too large: the offset
of the terminator. -/
def scanNumber (data : CharBuffer) (pos : Nat) : Nat → Nat → Except Exn Nat
  | 0, _ => .error (.valueError s!"Number is longer than {MAX_INT_LENGTH} characters")
  | rounds + 1, x => do
      checkPos data (uint (pos + x))
      let c ← data.peek (uint (pos + x))
      if c.toNat ≠ CHR_TERM then scanNumber data pos rounds (x + 1) else .ok x

def decodeBigNumber (data : CharBuffer) (pos : Nat) : Except Exn (PyVal × Nat) := do
  let pos := uint (pos + 1)
  let x ← scanNumber data pos (MAX_INT_LENGTH - 18) 18
  let text ← slice data pos x
  let bigNumber ← pyInt text
  .ok (.int bigNumber, uint (pos + (x + 1)))

def decodeFixedStr (data : CharBuffer) (typecode pos : Nat) : Except Exn (PyVal × Nat) := do
  let size := typecode - STR_FIXED_START + 1
  checkPos data (uint (pos + size - 1))
  let s ← slice data (uint (pos + 1)) (size - 1)
  let text ← decodeUtf8 s
  .ok (.str text, uint (pos + size))

/-- The `while` loop of `decode_str`, with `rounds` left before the data ends. -/
def scanSize (data : CharBuffer) (pos : Nat) : Nat → Nat → Except Exn Nat
  | 0, _ => .error (.other "out of fuel")
  | rounds + 1, x => do
      checkPos data (uint (pos + x))
      let c ← data.peek (uint (pos + x))
      if c ≠ 58 ∧ c ≠ 47 then scanSize data pos rounds (x + 1) else .ok x

/-- `cdef int size = int(data[pos[0]:pos[0]+x])` -/
def sizeBefore (data : CharBuffer) (pos x : Nat) : Except Exn Int := do
  let digits ← slice data pos x
  let size ← pyInt digits
  asInt size

def decodeStr (data : CharBuffer) (pos : Nat) : Except Exn (PyVal × Nat) := do
  let x ← scanSize data pos (data.length + 1) 1
  let size ← sizeBefore data pos x
  let separator ← data.peek (uint (pos + x))
  let pos := uint (pos + (x + 1))
  checkPos data (uint (pos + size - 1))
  let s ← slice data pos size.toNat
  let pos := uint (pos + size)
  if separator = 47 then .ok (.bytes s, pos)
  else do
    let text ← decodeUtf8 s
    .ok (.str text, pos)

/-- The branches of `decode`. -/
inductive Kind
  | char | short | int | longLong | fixedPosInt | fixedNegInt | bigNumber | float32 | float64
  | fixedStr | str | none | true | false | fixedList | list | fixedDict | dict | unsupported
  deriving DecidableEq, Repr

def kindOf (typecode : Nat) : Kind :=
  if typecode = CHR_INT1 then .char
  else if typecode = CHR_INT2 then .short
  else if typecode = CHR_INT4 then .int
  else if typecode = CHR_INT8 then .longLong
  else if INT_POS_FIXED_START ≤ typecode ∧
      typecode < INT_POS_FIXED_START + INT_POS_FIXED_COUNT then .fixedPosInt
  else if INT_NEG_FIXED_START ≤ typecode ∧
      typecode < INT_NEG_FIXED_START + INT_NEG_FIXED_COUNT then .fixedNegInt
  else if typecode = CHR_INT then .bigNumber
  else if typecode = CHR_FLOAT32 then .float32
  else if typecode = CHR_FLOAT64 then .float64
  else if STR_FIXED_START ≤ typecode ∧ typecode < STR_FIXED_START + STR_FIXED_COUNT then .fixedStr
  else if 48 ≤ typecode ∧ typecode ≤ 57 then .str
  else if typecode = CHR_NONE then .none
  else if typecode = CHR_TRUE then .true
  else if typecode = CHR_FALSE then .false
  else if LIST_FIXED_START ≤ typecode then .fixedList
  else if typecode = CHR_LIST then .list
  else if DICT_FIXED_START ≤ typecode ∧ typecode < DICT_FIXED_START + DICT_FIXED_COUNT then
    .fixedDict
  else if typecode = CHR_DICT then .dict
  else .unsupported

mutual
/-- Every call, and every round of a container's loop, takes one from `fuel`. -/
def decode (bigEndian : Bool) (data : CharBuffer) : Nat → Nat → Except Exn (PyVal × Nat)
  | 0, _ => .error (.other "out of fuel")
  | fuel + 1, pos => do
      checkPos data pos
      let c ← data.peek pos
      let typecode := c.toNat
      match kindOf typecode with
      | .char => decodeChar data pos
      | .short => decodeShort bigEndian data pos
      | .int => decodeInt bigEndian data pos
      | .longLong => decodeLongLong bigEndian data pos
      | .fixedPosInt => .ok (decodeFixedPosInt typecode pos)
      | .fixedNegInt => .ok (decodeFixedNegInt typecode pos)
      | .bigNumber => decodeBigNumber data pos
      | .float32 => decodeFloat32 bigEndian data pos
      | .float64 => decodeFloat64 bigEndian data pos
      | .fixedStr => decodeFixedStr data typecode pos
      | .str => decodeStr data pos
      | .none => .ok (.none, uint (pos + 1))
      | .true => .ok (.bool true, uint (pos + 1))
      | .false => .ok (.bool false, uint (pos + 1))
      | .fixedList => do
          let (items, pos) ←
            decodeFixedList bigEndian data fuel (typecode - LIST_FIXED_START) (uint (pos + 1))
          .ok (.tuple items, pos)
      | .list => do
          let (items, pos) ← decodeList bigEndian data fuel (uint (pos + 1))
          .ok (.tuple items, pos)
      | .fixedDict => do
          let (d, pos) ←
            decodeFixedDict bigEndian data fuel (typecode - DICT_FIXED_START) [] (uint (pos + 1))
          .ok (.dict d, pos)
      | .dict => do
          checkPos data (uint (pos + 1))
          let (d, pos) ← decodeDict bigEndian data fuel [] (uint (pos + 1))
          .ok (.dict d, pos)
      | .unsupported => .error (.valueError s!"unsupported typecode {typecode}")
termination_by structural fuel => fuel

/-- The loop of `decode_fixed_list`, with `size` items to go. -/
def decodeFixedList (bigEndian : Bool) (data : CharBuffer) :
    Nat → Nat → Nat → Except Exn (List PyVal × Nat)
  | _, 0, pos => .ok ([], pos)
  | 0, _ + 1, _ => .error (.other "out of fuel")
  | fuel + 1, size + 1, pos => do
      let (item, pos) ← decode bigEndian data fuel pos
      let (items, pos) ← decodeFixedList bigEndian data fuel size pos
      .ok (item :: items, pos)
termination_by structural fuel => fuel

/-- The loop of `decode_list`. -/
def decodeList (bigEndian : Bool) (data : CharBuffer) : Nat → Nat → Except Exn (List PyVal × Nat)
  | 0, _ => .error (.other "out of fuel")
  | fuel + 1, pos => do
      let c ← data.peek pos
      if c.toNat ≠ CHR_TERM then do
        let (item, pos) ← decode bigEndian data fuel pos
        let (items, pos) ← decodeList bigEndian data fuel pos
        .ok (item :: items, pos)
      else .ok ([], uint (pos + 1))
termination_by structural fuel => fuel

/-- The loop of `decode_fixed_dict`, with `size` entries to go. -/
def decodeFixedDict (bigEndian : Bool) (data : CharBuffer) :
    Nat → Nat → List (PyVal × PyVal) → Nat → Except Exn (List (PyVal × PyVal) × Nat)
  | _, 0, d, pos => .ok (d, pos)
  | 0, _ + 1, _, _ => .error (.other "out of fuel")
  | fuel + 1, size + 1, d, pos => do
      let (k, pos) ← decode bigEndian data fuel pos
      let (v, pos) ← decode bigEndian data fuel pos
      let d ← setItem d k v
      decodeFixedDict bigEndian data fuel size d pos
termination_by structural fuel => fuel

/-- The loop of `decode_dict`. -/
def decodeDict (bigEndian : Bool) (data : CharBuffer) :
    Nat → List (PyVal × PyVal) → Nat → Except Exn (List (PyVal × PyVal) × Nat)
  | 0, _, _ => .error (.other "out of fuel")
  | fuel + 1, d, pos => do
      let c ← data.peek pos
      if c.toNat ≠ CHR_TERM then do
        let (k, pos) ← decode bigEndian data fuel pos
        let (v, pos) ← decode bigEndian data fuel pos
        let d ← setItem d k v
        decodeDict bigEndian data fuel d pos
      else .ok (d, uint (pos + 1))
termination_by structural fuel => fuel
end

/-- A value takes at least one byte, and one call and one round: what no run on `data` uses up. -/
def decodeFuel (data : Bytes) : Nat := 2 * data.length + 2

/-- `decode` from the start: the value and where it stops. -/
def decodeStart (bigEndian : Bool) (data : Bytes) : Except Exn (PyVal × Nat) :=
  decode bigEndian (bytesBuffer data) (decodeFuel data) 0

def loads (bigEndian : Bool) (data : Bytes) : Except Exn PyVal := do
  let (value, _) ← decodeStart bigEndian data
  .ok value

end Catlink.Rencodeplus
