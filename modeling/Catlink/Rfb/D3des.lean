import Catlink.Lib.BigEndian
import Catlink.Lib.Feistel
import Catlink.Python
import Mathlib.Data.Nat.Bitwise
import Mathlib.Tactic

/-! The DES cipher of the RFB authentication, and the response to a challenge. -/

namespace Catlink.D3des

open BigEndian

/-- This constant was taken from vncviewer/rfb/vncauth.c -/
def vnckey : Bytes := [23, 82, 107, 6, 35, 78, 88, 7]

/-- VNC version -/
def bytebit : List Nat :=
  [1, 2, 4, 8, 16, 32, 64, 128]

def bigbyte : List Nat :=
  [0x800000, 0x400000, 0x200000, 0x100000, 0x80000, 0x40000, 0x20000, 0x10000,
    0x8000, 0x4000, 0x2000, 0x1000, 0x800, 0x400, 0x200, 0x100,
    0x80, 0x40, 0x20, 0x10, 0x8, 0x4, 0x2, 0x1]

def pc1 : List Nat :=
  [56, 48, 40, 32, 24, 16, 8, 0, 57, 49, 41, 33, 25, 17,
    9, 1, 58, 50, 42, 34, 26, 18, 10, 2, 59, 51, 43, 35,
    62, 54, 46, 38, 30, 22, 14, 6, 61, 53, 45, 37, 29, 21,
    13, 5, 60, 52, 44, 36, 28, 20, 12, 4, 27, 19, 11, 3]

def totrot : List Nat :=
  [1, 2, 4, 6, 8, 10, 12, 14, 15, 17, 19, 21, 23, 25, 27, 28]

def pc2 : List Nat :=
  [13, 16, 10, 23, 0, 4, 2, 27, 14, 5, 20, 9,
    22, 18, 11, 3, 25, 7, 15, 6, 26, 19, 12, 1,
    40, 51, 30, 36, 46, 54, 29, 39, 50, 44, 32, 47,
    43, 48, 38, 55, 33, 52, 45, 41, 49, 35, 28, 31]

/-- `unpack('8B', ..)`, and `unpack('>II', ..)` -/
def checkEight (data : Bytes) : Except Exn Unit :=
  if data.length = 8 then .ok () else .error (.structError "unpack requires a buffer of 8 bytes")

/-! ### Keys -/

/-- `pc1m` -/
def keyBits (key : Bytes) : List Bool :=
  pc1.map fun l => (key.getD (l >>> 3) 0).toNat &&& bytebit.getD (l &&& 7) 0 ≠ 0

/-- `pcr[j]`, both halves rotated -/
def rotated (pc1m : List Bool) (rotation j : Nat) : Bool :=
  let l := j + rotation
  if l < (if j < 28 then 28 else 56) then pc1m.getD l false else pc1m.getD (l - 28) false

/-- `for j in range(24): if pcr[pc2[j]]: kn |= bigbyte[j]`, with the second half of `pc2` after `first` -/
def gather (pc1m : List Bool) (rotation first : Nat) : Nat :=
  (List.range 24).foldl (fun kn j =>
    if rotated pc1m rotation (pc2.getD (j + first) 0) = true then kn ||| bigbyte.getD j 0 else kn) 0

def cookeyPair (raw : Nat × Nat) : Nat × Nat :=
  (((raw.1 &&& 0x00fc0000) <<< 6) ||| ((raw.1 &&& 0x00000fc0) <<< 10) |||
      ((raw.2 &&& 0x00fc0000) >>> 10) ||| ((raw.2 &&& 0x00000fc0) >>> 6),
    ((raw.1 &&& 0x0003f000) <<< 12) ||| ((raw.1 &&& 0x0000003f) <<< 16) |||
      ((raw.2 &&& 0x0003f000) >>> 4) ||| (raw.2 &&& 0x0000003f))

def cookey (raw : List (Nat × Nat)) : List Nat :=
  raw.flatMap fun raw => [(cookeyPair raw).1, (cookeyPair raw).2]

/-- The rounds' keys; the places of the last round come first to decrypt. -/
def deskey (key : Bytes) (decrypt : Bool) : Except Exn (List Nat) := do
  checkEight key
  let raw := totrot.map fun rotation => (gather (keyBits key) rotation 0, gather (keyBits key) rotation 24)
  .ok (cookey (if decrypt then raw.reverse else raw))

/-! ### Substitution -/

def sp1 : List Nat :=
  [0x01010400, 0x00000000, 0x00010000, 0x01010404, 0x01010004, 0x00010404, 0x00000004, 0x00010000,
    0x00000400, 0x01010400, 0x01010404, 0x00000400, 0x01000404, 0x01010004, 0x01000000, 0x00000004,
    0x00000404, 0x01000400, 0x01000400, 0x00010400, 0x00010400, 0x01010000, 0x01010000, 0x01000404,
    0x00010004, 0x01000004, 0x01000004, 0x00010004, 0x00000000, 0x00000404, 0x00010404, 0x01000000,
    0x00010000, 0x01010404, 0x00000004, 0x01010000, 0x01010400, 0x01000000, 0x01000000, 0x00000400,
    0x01010004, 0x00010000, 0x00010400, 0x01000004, 0x00000400, 0x00000004, 0x01000404, 0x00010404,
    0x01010404, 0x00010004, 0x01010000, 0x01000404, 0x01000004, 0x00000404, 0x00010404, 0x01010400,
    0x00000404, 0x01000400, 0x01000400, 0x00000000, 0x00010004, 0x00010400, 0x00000000, 0x01010004]

def sp2 : List Nat :=
  [0x80108020, 0x80008000, 0x00008000, 0x00108020, 0x00100000, 0x00000020, 0x80100020, 0x80008020,
    0x80000020, 0x80108020, 0x80108000, 0x80000000, 0x80008000, 0x00100000, 0x00000020, 0x80100020,
    0x00108000, 0x00100020, 0x80008020, 0x00000000, 0x80000000, 0x00008000, 0x00108020, 0x80100000,
    0x00100020, 0x80000020, 0x00000000, 0x00108000, 0x00008020, 0x80108000, 0x80100000, 0x00008020,
    0x00000000, 0x00108020, 0x80100020, 0x00100000, 0x80008020, 0x80100000, 0x80108000, 0x00008000,
    0x80100000, 0x80008000, 0x00000020, 0x80108020, 0x00108020, 0x00000020, 0x00008000, 0x80000000,
    0x00008020, 0x80108000, 0x00100000, 0x80000020, 0x00100020, 0x80008020, 0x80000020, 0x00100020,
    0x00108000, 0x00000000, 0x80008000, 0x00008020, 0x80000000, 0x80100020, 0x80108020, 0x00108000]

def sp3 : List Nat :=
  [0x00000208, 0x08020200, 0x00000000, 0x08020008, 0x08000200, 0x00000000, 0x00020208, 0x08000200,
    0x00020008, 0x08000008, 0x08000008, 0x00020000, 0x08020208, 0x00020008, 0x08020000, 0x00000208,
    0x08000000, 0x00000008, 0x08020200, 0x00000200, 0x00020200, 0x08020000, 0x08020008, 0x00020208,
    0x08000208, 0x00020200, 0x00020000, 0x08000208, 0x00000008, 0x08020208, 0x00000200, 0x08000000,
    0x08020200, 0x08000000, 0x00020008, 0x00000208, 0x00020000, 0x08020200, 0x08000200, 0x00000000,
    0x00000200, 0x00020008, 0x08020208, 0x08000200, 0x08000008, 0x00000200, 0x00000000, 0x08020008,
    0x08000208, 0x00020000, 0x08000000, 0x08020208, 0x00000008, 0x00020208, 0x00020200, 0x08000008,
    0x08020000, 0x08000208, 0x00000208, 0x08020000, 0x00020208, 0x00000008, 0x08020008, 0x00020200]

def sp4 : List Nat :=
  [0x00802001, 0x00002081, 0x00002081, 0x00000080, 0x00802080, 0x00800081, 0x00800001, 0x00002001,
    0x00000000, 0x00802000, 0x00802000, 0x00802081, 0x00000081, 0x00000000, 0x00800080, 0x00800001,
    0x00000001, 0x00002000, 0x00800000, 0x00802001, 0x00000080, 0x00800000, 0x00002001, 0x00002080,
    0x00800081, 0x00000001, 0x00002080, 0x00800080, 0x00002000, 0x00802080, 0x00802081, 0x00000081,
    0x00800080, 0x00800001, 0x00802000, 0x00802081, 0x00000081, 0x00000000, 0x00000000, 0x00802000,
    0x00002080, 0x00800080, 0x00800081, 0x00000001, 0x00802001, 0x00002081, 0x00002081, 0x00000080,
    0x00802081, 0x00000081, 0x00000001, 0x00002000, 0x00800001, 0x00002001, 0x00802080, 0x00800081,
    0x00002001, 0x00002080, 0x00800000, 0x00802001, 0x00000080, 0x00800000, 0x00002000, 0x00802080]

def sp5 : List Nat :=
  [0x00000100, 0x02080100, 0x02080000, 0x42000100, 0x00080000, 0x00000100, 0x40000000, 0x02080000,
    0x40080100, 0x00080000, 0x02000100, 0x40080100, 0x42000100, 0x42080000, 0x00080100, 0x40000000,
    0x02000000, 0x40080000, 0x40080000, 0x00000000, 0x40000100, 0x42080100, 0x42080100, 0x02000100,
    0x42080000, 0x40000100, 0x00000000, 0x42000000, 0x02080100, 0x02000000, 0x42000000, 0x00080100,
    0x00080000, 0x42000100, 0x00000100, 0x02000000, 0x40000000, 0x02080000, 0x42000100, 0x40080100,
    0x02000100, 0x40000000, 0x42080000, 0x02080100, 0x40080100, 0x00000100, 0x02000000, 0x42080000,
    0x42080100, 0x00080100, 0x42000000, 0x42080100, 0x02080000, 0x00000000, 0x40080000, 0x42000000,
    0x00080100, 0x02000100, 0x40000100, 0x00080000, 0x00000000, 0x40080000, 0x02080100, 0x40000100]

def sp6 : List Nat :=
  [0x20000010, 0x20400000, 0x00004000, 0x20404010, 0x20400000, 0x00000010, 0x20404010, 0x00400000,
    0x20004000, 0x00404010, 0x00400000, 0x20000010, 0x00400010, 0x20004000, 0x20000000, 0x00004010,
    0x00000000, 0x00400010, 0x20004010, 0x00004000, 0x00404000, 0x20004010, 0x00000010, 0x20400010,
    0x20400010, 0x00000000, 0x00404010, 0x20404000, 0x00004010, 0x00404000, 0x20404000, 0x20000000,
    0x20004000, 0x00000010, 0x20400010, 0x00404000, 0x20404010, 0x00400000, 0x00004010, 0x20000010,
    0x00400000, 0x20004000, 0x20000000, 0x00004010, 0x20000010, 0x20404010, 0x00404000, 0x20400000,
    0x00404010, 0x20404000, 0x00000000, 0x20400010, 0x00000010, 0x00004000, 0x20400000, 0x00404010,
    0x00004000, 0x00400010, 0x20004010, 0x00000000, 0x20404000, 0x20000000, 0x00400010, 0x20004010]

def sp7 : List Nat :=
  [0x00200000, 0x04200002, 0x04000802, 0x00000000, 0x00000800, 0x04000802, 0x00200802, 0x04200800,
    0x04200802, 0x00200000, 0x00000000, 0x04000002, 0x00000002, 0x04000000, 0x04200002, 0x00000802,
    0x04000800, 0x00200802, 0x00200002, 0x04000800, 0x04000002, 0x04200000, 0x04200800, 0x00200002,
    0x04200000, 0x00000800, 0x00000802, 0x04200802, 0x00200800, 0x00000002, 0x04000000, 0x00200800,
    0x04000000, 0x00200800, 0x00200000, 0x04000802, 0x04000802, 0x04200002, 0x04200002, 0x00000002,
    0x00200002, 0x04000000, 0x04000800, 0x00200000, 0x04200800, 0x00000802, 0x00200802, 0x04200800,
    0x00000802, 0x04000002, 0x04200802, 0x04200000, 0x00200800, 0x00000000, 0x00000002, 0x04200802,
    0x00000000, 0x00200802, 0x04200000, 0x00000800, 0x04000002, 0x04000800, 0x00000800, 0x00200002]

def sp8 : List Nat :=
  [0x10001040, 0x00001000, 0x00040000, 0x10041040, 0x10000000, 0x10001040, 0x00000040, 0x10000000,
    0x00040040, 0x10040000, 0x10041040, 0x00041000, 0x10041000, 0x00041040, 0x00001000, 0x00000040,
    0x10040000, 0x10000040, 0x10001000, 0x00001040, 0x00041000, 0x00040040, 0x10040040, 0x10041000,
    0x00001040, 0x00000000, 0x00000000, 0x10040040, 0x10000040, 0x10001000, 0x00041040, 0x00040000,
    0x00041040, 0x00040000, 0x10041000, 0x00001000, 0x00000040, 0x10040040, 0x00001000, 0x00041040,
    0x10001000, 0x00000040, 0x10000040, 0x10040000, 0x10040040, 0x10000000, 0x00040000, 0x10001040,
    0x00000000, 0x10041040, 0x00040040, 0x10000040, 0x10040000, 0x10001000, 0x10001040, 0x00000000,
    0x10041040, 0x00041000, 0x00041000, 0x00001040, 0x00001040, 0x00040040, 0x10000000, 0x10041000]

/-! ### Blocks -/

/-- What a half and two keys are looked up as. -/
def fval (key : Nat × Nat) (half : Nat) : Nat :=
  let work := ((half <<< 28) ||| (half >>> 4)) ^^^ key.1
  let fval := sp7.getD (work &&& 0x3f) 0
  let fval := fval ||| sp5.getD ((work >>> 8) &&& 0x3f) 0
  let fval := fval ||| sp3.getD ((work >>> 16) &&& 0x3f) 0
  let fval := fval ||| sp1.getD ((work >>> 24) &&& 0x3f) 0
  let work := half ^^^ key.2
  let fval := fval ||| sp8.getD (work &&& 0x3f) 0
  let fval := fval ||| sp6.getD ((work >>> 8) &&& 0x3f) 0
  let fval := fval ||| sp4.getD ((work >>> 16) &&& 0x3f) 0
  fval ||| sp2.getD ((work >>> 24) &&& 0x3f) 0

/-- `for i in range(0, 32, 4)` -/
def loop : List Nat → Nat × Nat → Nat × Nat
  | k :: k1 :: k2 :: k3 :: keys, (leftt, right) =>
      let leftt := leftt ^^^ fval (k, k1) right
      let right := right ^^^ fval (k2, k3) leftt
      loop keys (leftt, right)
  | _, halves => halves

/-- `work = ((a >> shift) ^ b) & mask; b ^= work; a ^= (work << shift)` -/
def exchange (shift mask : Nat) (halves : Nat × Nat) : Nat × Nat :=
  let work := ((halves.1 >>> shift) ^^^ halves.2) &&& mask
  (halves.1 ^^^ (work <<< shift), halves.2 ^^^ work)

def rotateLeft (half : Nat) : Nat := ((half <<< 1) ||| ((half >>> 31) &&& 1)) &&& 0xffffffff

/-- The bits that are moved up are not cut off. -/
def rotateRight (half : Nat) : Nat := (half <<< 31) ||| (half >>> 1)

/-- Before the rounds, of `leftt` and `right`. -/
def permute (halves : Nat × Nat) : Nat × Nat :=
  let halves := exchange 16 0x0000ffff (exchange 4 0x0f0f0f0f halves)
  -- here `right` is the first one
  let halves := exchange 8 0x00ff00ff (exchange 2 0x33333333 halves.swap)
  let halves := exchange 0 0xaaaaaaaa (halves.2, rotateLeft halves.1)
  (rotateLeft halves.1, halves.2)

/-- After the rounds; `right` is the first one of the result. -/
def unpermute (halves : Nat × Nat) : Nat × Nat :=
  let halves := exchange 0 0xaaaaaaaa (halves.1, rotateRight halves.2)
  let halves := exchange 2 0x33333333 (exchange 8 0x00ff00ff (rotateRight halves.1, halves.2))
  exchange 4 0x0f0f0f0f (exchange 16 0x0000ffff halves.swap)

def unpackHalves (block : Bytes) : Nat × Nat := (decodeBE (block.take 4), decodeBE (block.drop 4))

/-- With `& 0xffffffff` for both. -/
def packHalves (halves : Nat × Nat) : Bytes :=
  encodeBE 4 (halves.1 &&& 0xffffffff) ++ encodeBE 4 (halves.2 &&& 0xffffffff)

def desfunc (block : Bytes) (keys : List Nat) : Except Exn Bytes := do
  checkEight block
  .ok (packHalves (unpermute (loop (keys.take 32) (permute (unpackHalves block)))))

/-! ### Passwords -/

def decryptPasswd (data : Bytes) : Except Exn Bytes := do
  let dk ← deskey vnckey true
  desfunc data dk

def generateResponse (passwd challenge : Bytes) : Except Exn Bytes := do
  let ek ← deskey ((passwd ++ List.replicate 8 0).take 8) false
  let first ← desfunc (challenge.take 8) ek
  let second ← desfunc (challenge.drop 8) ek
  .ok (first ++ second)

end Catlink.D3des
