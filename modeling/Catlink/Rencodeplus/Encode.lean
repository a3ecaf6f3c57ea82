import Catlink.Python
import Catlink.Lib.BigEndian
import Mathlib.Data.Nat.Digits.Defs

/-! The encoder: type codes, machine integers, and the buffer that grows with every write. -/

namespace Catlink.Rencodeplus

open BigEndian

/-- Maximum length of integer when written as base 10 string. -/
def MAX_INT_LENGTH : Nat := 64
abbrev CHR_LIST : Nat := 59
abbrev CHR_DICT : Nat := 60
abbrev CHR_INT : Nat := 61
abbrev CHR_INT1 : Nat := 62
abbrev CHR_INT2 : Nat := 63
abbrev CHR_INT4 : Nat := 64
abbrev CHR_INT8 : Nat := 65
abbrev CHR_FLOAT32 : Nat := 66
abbrev CHR_FLOAT64 : Nat := 44
abbrev CHR_TRUE : Nat := 67
abbrev CHR_FALSE : Nat := 68
abbrev CHR_NONE : Nat := 69
abbrev CHR_TERM : Nat := 127
abbrev INT_POS_FIXED_START : Nat := 0
abbrev INT_POS_FIXED_COUNT : Nat := 44
abbrev DICT_FIXED_START : Nat := 102
abbrev DICT_FIXED_COUNT : Nat := 25
abbrev INT_NEG_FIXED_START : Nat := 70
abbrev INT_NEG_FIXED_COUNT : Nat := 32
abbrev STR_FIXED_START : Nat := 128
abbrev STR_FIXED_COUNT : Nat := 64
abbrev LIST_FIXED_START : Nat := STR_FIXED_START + STR_FIXED_COUNT
abbrev LIST_FIXED_COUNT : Nat := 64

/-! ### Byte order -/

/-- On an `unsigned short`. -/
def swapByteOrderUshort (s : BitVec 16) : BitVec 16 := (s >>> 8) ||| (s <<< 8)

/-- On an `int`, whose right shift copies the sign. -/
def swapByteOrderUint (i : BitVec 32) : BitVec 32 :=
  i.sshiftRight 24 ||| ((i <<< 8) &&& 0x00FF0000#32) ||| (i.sshiftRight 8 &&& 0x0000FF00#32) |||
    (i <<< 24)

/-- On a `long long`. -/
def swapByteOrderUlongLong (v : BitVec 64) : BitVec 64 :=
  v.sshiftRight 56 ||| ((v <<< 40) &&& 0x00FF000000000000#64) |||
    ((v <<< 24) &&& 0x0000FF0000000000#64) ||| ((v <<< 8) &&& 0x000000FF00000000#64) |||
    (v.sshiftRight 8 &&& 0x00000000FF000000#64) ||| (v.sshiftRight 24 &&& 0x0000000000FF0000#64) |||
    (v.sshiftRight 40 &&& 0x000000000000FF00#64) ||| (v <<< 56)

/-- `swap_byte_order_short`, `_int`, `_long_long` and `_double`: the machine integer (or the bits of
a double) made of the bytes at `c` in reverse. -/
def swapBytes (bigEndian : Bool) (c : Bytes) : Nat := load bigEndian c.reverse

/-! ### Writing -/

/-- A C `int` is given a size. -/
def cInt (n : Nat) : Int := (n : Int).bmod (2 ^ 32)

/-- `pos` is an `unsigned int` and always the length of what was written: a write that would wrap it
reallocates the buffer too small and runs out of it. -/
def writeBuffer (buf data : Bytes) : Except Exn Bytes :=
  if buf.length + data.length < 2 ^ 32 then .ok (buf ++ data)
  else .error (.other "write out of bounds")

def writeBufferChar (buf : Bytes) (c : UInt8) : Except Exn Bytes := writeBuffer buf [c]

/-- `write_buffer` with a size that may be less than the data there is. -/
def writeBufferSize (buf data : Bytes) (size : Int) : Except Exn Bytes :=
  if size < 0 then .error (.other "write out of bounds") else writeBuffer buf (data.take size.toNat)

/-- A value from -128 to 127. -/
def encodeChar (buf : Bytes) (x : Int) : Except Exn Bytes :=
  if 0 ≤ x ∧ x < INT_POS_FIXED_COUNT then
    writeBufferChar buf (UInt8.ofNat (INT_POS_FIXED_START + x.toNat))
  else if -(INT_NEG_FIXED_COUNT : Int) ≤ x ∧ x < 0 then
    writeBufferChar buf (UInt8.ofNat (INT_NEG_FIXED_START - 1 - x).toNat)
  else do
    let buf ← writeBufferChar buf (UInt8.ofNat CHR_INT1)
    writeBufferChar buf (UInt8.ofInt x)

def encodeShort (bigEndian : Bool) (buf : Bytes) (x : Int) : Except Exn Bytes := do
  let buf ← writeBufferChar buf (UInt8.ofNat CHR_INT2)
  let n := (BitVec.ofInt 16 x).toNat
  let swapped :=
    if bigEndian then n
    else if x > 0 then (swapByteOrderUshort (BitVec.ofInt 16 x)).toNat
    else swapBytes bigEndian (store bigEndian 2 n)
  writeBuffer buf (store bigEndian 2 swapped)

def encodeInt (bigEndian : Bool) (buf : Bytes) (x : Int) : Except Exn Bytes := do
  let buf ← writeBufferChar buf (UInt8.ofNat CHR_INT4)
  let n := (BitVec.ofInt 32 x).toNat
  let swapped :=
    if bigEndian then n
    else if x > 0 then (swapByteOrderUint (BitVec.ofInt 32 x)).toNat
    else swapBytes bigEndian (store bigEndian 4 n)
  writeBuffer buf (store bigEndian 4 swapped)

def encodeLongLong (bigEndian : Bool) (buf : Bytes) (x : Int) : Except Exn Bytes := do
  let buf ← writeBufferChar buf (UInt8.ofNat CHR_INT8)
  let n := (BitVec.ofInt 64 x).toNat
  let swapped :=
    if bigEndian then n
    else if x > 0 then (swapByteOrderUlongLong (BitVec.ofInt 64 x)).toNat
    else swapBytes bigEndian (store bigEndian 8 n)
  writeBuffer buf (store bigEndian 8 swapped)

/-- The decimal digits of a number, as ASCII. -/
def decimalNat (n : Nat) : Bytes :=
  if n = 0 then [48] else (Nat.digits 10 n).reverse.map fun d => UInt8.ofNat (48 + d)

/-- `str(x).encode("ascii")`, or `b"%i" % x` -/
def decimal (x : Int) : Bytes :=
  if x < 0 then 45 :: decimalNat x.natAbs else decimalNat x.natAbs

def encodeBigNumber (buf x : Bytes) : Except Exn Bytes := do
  let buf ← writeBufferChar buf (UInt8.ofNat CHR_INT)
  let buf ← writeBuffer buf x
  writeBufferChar buf (UInt8.ofNat CHR_TERM)

def encodeFloat64 (bigEndian : Bool) (buf : Bytes) (x : BitVec 64) : Except Exn Bytes := do
  let buf ← writeBufferChar buf (UInt8.ofNat CHR_FLOAT64)
  let swapped := if bigEndian then x.toNat else swapBytes bigEndian (store bigEndian 8 x.toNat)
  writeBuffer buf (store bigEndian 8 swapped)

/-- Also `encode_memoryview`, which does the same with the memory of a contiguous view. -/
def encodeBytes (buf x : Bytes) : Except Exn Bytes := do
  let lx := cInt x.length
  let buf ← writeBuffer buf (decimal lx ++ [47])
  writeBufferSize buf x lx

/-- `x` is the UTF-8 text. -/
def encodeStr (buf x : Bytes) : Except Exn Bytes := do
  let lx := cInt x.length
  if lx < STR_FIXED_COUNT then do
    let buf ← writeBufferChar buf (UInt8.ofInt (STR_FIXED_START + lx))
    writeBufferSize buf x lx
  else do
    let buf ← writeBuffer buf (decimal lx ++ [58])
    writeBufferSize buf x lx

def encodeNone (buf : Bytes) : Except Exn Bytes := writeBufferChar buf (UInt8.ofNat CHR_NONE)

def encodeBool (buf : Bytes) (x : Bool) : Except Exn Bytes :=
  writeBufferChar buf (UInt8.ofNat (if x then CHR_TRUE else CHR_FALSE))

/-- The integer branch of `encode`. -/
def encodeInteger (bigEndian : Bool) (buf : Bytes) (data : Int) : Except Exn Bytes :=
  if -128 ≤ data ∧ data < 128 then encodeChar buf data
  else if -32768 ≤ data ∧ data < 32768 then encodeShort bigEndian buf data
  else if -2 ^ 31 ≤ data ∧ data < 2 ^ 31 then encodeInt bigEndian buf data
  else if -2 ^ 63 ≤ data ∧ data < 2 ^ 63 then encodeLongLong bigEndian buf data
  else
    let s := decimal data
    if s.length ≥ MAX_INT_LENGTH then
      .error (.valueError s!"Number is longer than {MAX_INT_LENGTH} characters")
    else encodeBigNumber buf s

/-- `text.encode("utf8")`, that a text without lone surrogates always has -/
def utf8 (text : String) : Bytes := text.toByteArray.data.toList

mutual
/-- With `encode_list` and `encode_dict`. -/
def encode (bigEndian : Bool) (buf : Bytes) : PyVal → Except Exn Bytes
  | .int data => encodeInteger bigEndian buf data
  | .float bits => encodeFloat64 bigEndian buf bits
  | .bytes data => encodeBytes buf data
  | .memoryview data => encodeBytes buf data
  | .str text => encodeStr buf (utf8 text)
  | .none => encodeNone buf
  | .bool value => encodeBool buf value
  | .list items | .tuple items =>
      if items.length < LIST_FIXED_COUNT then do
        let buf ← writeBufferChar buf (UInt8.ofNat (LIST_FIXED_START + items.length))
        encodeItems bigEndian buf items
      else do
        let buf ← writeBufferChar buf (UInt8.ofNat CHR_LIST)
        let buf ← encodeItems bigEndian buf items
        writeBufferChar buf (UInt8.ofNat CHR_TERM)
  | .dict entries =>
      if entries.length < DICT_FIXED_COUNT then do
        let buf ← writeBufferChar buf (UInt8.ofNat (DICT_FIXED_START + entries.length))
        encodeEntries bigEndian buf entries
      else do
        let buf ← writeBufferChar buf (UInt8.ofNat CHR_DICT)
        let buf ← encodeEntries bigEndian buf entries
        writeBufferChar buf (UInt8.ofNat CHR_TERM)

/-- `for i in x` -/
def encodeItems (bigEndian : Bool) (buf : Bytes) : List PyVal → Except Exn Bytes
  | [] => .ok buf
  | item :: items => do
      let buf ← encode bigEndian buf item
      encodeItems bigEndian buf items

/-- `for k, v in x.items()` -/
def encodeEntries (bigEndian : Bool) (buf : Bytes) : List (PyVal × PyVal) → Except Exn Bytes
  | [] => .ok buf
  | entry :: entries => do
      let buf ← encodeEntry bigEndian buf entry
      encodeEntries bigEndian buf entries

def encodeEntry (bigEndian : Bool) (buf : Bytes) : PyVal × PyVal → Except Exn Bytes
  | (k, v) => do
      let buf ← encode bigEndian buf k
      encode bigEndian buf v
end

def dumps (bigEndian : Bool) (data : PyVal) : Except Exn Bytes := encode bigEndian [] data

end Catlink.Rencodeplus
