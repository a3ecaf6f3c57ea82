import Catlink.Python

/-! Packet encryption: modes, padding, and the two directions of a cipher. -/

namespace Catlink.Crypto

def PADDING_PKCS7 : String := "PKCS#7"

/-- What python-cryptography does with a running context (`update`) and with a fresh one that is
given a whole message (`update` then `finalize`). -/
structure Backend (σ : Type) where
  modes : List String
  defaultMode : String
  update : σ → Bytes → Except Exn (Bytes × σ)
  whole : (key iv : Bytes) → (mode : String) → Bytes → Except Exn Bytes

/-- The `cipher_in_*` or `cipher_out_*` fields. -/
structure CipherSettings where
  /-- empty without a cipher -/
  name : String
  blockSize : Nat
  padding : String
  alwaysPad : Bool
  stream : Bool
  key : Bytes
  deriving DecidableEq, Repr

variable {σ : Type}

def getMode (lib : Backend σ) (ciphername : String) : Except Exn String :=
  let part := String.ofList (((ciphername ++ "-").toList.splitOn '-').getD 1 [])
  let mode := if part = "" then lib.defaultMode else part
  if ¬ "AES".toList.isPrefixOf ciphername.toList then
    .error (.valueError s!"unsupported cipher {ciphername}")
  else if mode ∉ lib.modes then .error (.valueError s!"unsupported AES mode {mode}")
  else .ok mode

/-- `get_cipher` and one whole message through the context it makes. -/
def runCipher (lib : Backend σ) (key iv : Bytes) (mode : String) (data : Bytes) :
    Except Exn Bytes :=
  if iv = [] then .error (.valueError "missing encryption iv") else lib.whole key iv mode data

def pad (padding : String) (size : Nat) : Except Exn Bytes :=
  if padding ≠ PADDING_PKCS7 then .error (.valueError s!"invalid padding: {padding}")
  else if 256 ≤ size then .error (.structError "ubyte format requires 0 <= number <= 255")
  else .ok (List.replicate size (UInt8.ofNat size))

/-- The computation `encrypt` makes of the clear size and the parse loop of the announced one. -/
def paddingSize (c : CipherSettings) (size : Nat) : Nat :=
  if c.blockSize = 0 then 0
  else
    let padding := c.blockSize - size % c.blockSize
    if c.alwaysPad ∧ padding = 0 then c.blockSize else padding

structure Decrypted (σ : Type) where
  data : Bytes
  decryptor : Option σ
  /-- the text given to `_internal_error`, when it is called -/
  internalError : Option String

/-- The part of `decrypt` that runs the cipher. -/
def decryptData (lib : Backend σ) (c : CipherSettings) (decryptor : Option σ) (mode : String)
    (encrypted : Bytes) : Except Exn (Bytes × Option σ) :=
  if c.stream then
    match decryptor with
    | none => .error (.assertionError "")
    | some ctx => do
        let (data, ctx) ← lib.update ctx encrypted
        .ok (data, some ctx)
  else do
    let data ← runCipher lib c.key (encrypted.take 16) mode (encrypted.drop 16)
    .ok (data, decryptor)

/-- The part of `decrypt` that removes the padding. -/
def removePadding (c : CipherSettings) (padding : Nat) (data : Bytes) (decryptor : Option σ) :
    Except Exn (Decrypted σ) :=
  if padding = 0 then .ok ⟨data, decryptor, none⟩
  else do
    let padtext ← pad c.padding padding
    if padtext.isSuffixOf data then
      .ok ⟨data.take (data.length - padding), decryptor, none⟩
    else .ok ⟨[], decryptor, some s!"{c.name} encryption padding error - wrong key?"⟩

def decrypt (lib : Backend σ) (c : CipherSettings) (decryptor : Option σ) (encrypted : Bytes)
    (padding : Nat) : Except Exn (Decrypted σ) := do
  let mode ← getMode lib c.name
  let (data, decryptor) ← decryptData lib c decryptor mode encrypted
  removePadding c padding data decryptor

structure Encrypted (σ : Type) where
  payload : Bytes
  /-- the size announced in the packet header: without the padding -/
  payloadSize : Nat
  encryptor : Option σ

/-- The part of `encrypt` that adds the padding. -/
def addPadding (c : CipherSettings) (data : Bytes) : Except Exn Bytes :=
  if paddingSize c data.length = 0 then .ok data
  else do
    let padtext ← pad c.padding (paddingSize c data.length)
    .ok (data ++ padtext)

/-- `iv` is what `os.urandom(16)` returns. -/
def encrypt (lib : Backend σ) (c : CipherSettings) (encryptor : Option σ) (iv data : Bytes) :
    Except Exn (Encrypted σ) := do
  let payloadSize := data.length
  let padded ← addPadding c data
  if c.name = "" then .error (.assertionError "")
  else if c.stream then
    match encryptor with
    | none => .error (.assertionError "")
    | some ctx => do
        let (payload, ctx) ← lib.update ctx padded
        .ok ⟨payload, payloadSize, some ctx⟩
  else do
    let mode ← getMode lib c.name
    let encrypted ← runCipher lib c.key iv mode padded
    .ok ⟨iv ++ encrypted, payloadSize + iv.length, encryptor⟩

end Catlink.Crypto
