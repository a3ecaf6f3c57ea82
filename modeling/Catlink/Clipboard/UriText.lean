import Catlink.Python
import Catlink.Lib.BigEndian

/-! The texts of clipboard offers: target names, lists of file URIs, image data. -/

namespace Catlink.Clipboard.UriText

def startsWith (text part : String) : Bool := part.toList.isPrefixOf text.toList

def endsWith (data part : Bytes) : Bool := part.isSuffixOf data

/-- `text.lower()`, which is only compared with the letters of `text/html`, `image/` and `file://`:
no other character becomes one of these -/
def lower (text : String) : String := text.map Char.toLower

def isHtmlTarget (target : String) : Bool := startsWith (lower target) "text/html"

/-! ### UTF-8 -/

/-- The lead byte of a sequence: how many bytes follow, and the bounds of the first of them. -/
def sequenceOf (b : Nat) : Option (Nat × Nat × Nat) :=
  if 0xC2 ≤ b ∧ b ≤ 0xDF then some (1, 0x80, 0xBF)
  else if b = 0xE0 then some (2, 0xA0, 0xBF)
  else if b = 0xED then some (2, 0x80, 0x9F)
  else if 0xE1 ≤ b ∧ b ≤ 0xEF then some (2, 0x80, 0xBF)
  else if b = 0xF0 then some (3, 0x90, 0xBF)
  else if 0xF1 ≤ b ∧ b ≤ 0xF3 then some (3, 0x80, 0xBF)
  else if b = 0xF4 then some (3, 0x80, 0x8F)
  else none

/-- The replacement character. -/
def replacement : Char := Char.ofNat 0xFFFD

/-- A sequence that is being read: its value so far, the bytes it wants, the bounds of the next. -/
structure Partial where
  value : Nat
  wanted : Nat
  low : Nat
  high : Nat

/-- The bits of a lead byte that are part of the character. -/
def leadBits (count b : Nat) : Nat :=
  if count = 1 then b % 0x20 else if count = 2 then b % 0x10 else b % 0x08

/-- A byte outside of a sequence. -/
def startByte (b : Nat) : List Char × Option Partial :=
  if b < 0x80 then ([Char.ofNat b], none)
  else
    match sequenceOf b with
    | none => ([replacement], none)
    | some (count, low, high) => ([], some ⟨leadBits count b, count, low, high⟩)

def decodeFrom : Option Partial → Bytes → List Char
  -- a sequence cut short is one replacement character
  | none, [] => []
  | some _, [] => [replacement]
  | none, b :: rest =>
      let (chars, begun) := startByte b.toNat
      chars ++ decodeFrom begun rest
  | some p, b :: rest =>
      if p.low ≤ b.toNat ∧ b.toNat ≤ p.high then
        let value := p.value * 0x40 + b.toNat % 0x40
        if p.wanted = 1 then Char.ofNat value :: decodeFrom none rest
        else decodeFrom (some ⟨value, p.wanted - 1, 0x80, 0xBF⟩) rest
      else
        let (chars, begun) := startByte b.toNat
        replacement :: (chars ++ decodeFrom begun rest)

/-- `data.decode("utf8", "replace")` -/
def decodeReplace (data : Bytes) : String := String.ofList (decodeFrom none data)

/-! ### Lines -/

def isLineBreak (c : Char) : Bool :=
  c.toNat ∈ [0x0A, 0x0B, 0x0C, 0x0D, 0x1C, 0x1D, 0x1E, 0x85, 0x2028, 0x2029]

/-- The lines of a text, after the reversed start of the first one. -/
def linesFrom (start : List Char) : List Char → List (List Char)
  | [] => if start = [] then [] else [start.reverse]
  | '\r' :: '\n' :: rest => start.reverse :: linesFrom [] rest
  | c :: rest => if isLineBreak c then start.reverse :: linesFrom [] rest else linesFrom (c :: start) rest

/-- `text.splitlines()` -/
def splitlines (text : String) : List (List Char) := linesFrom [] text.toList

def isSpace (c : Char) : Bool :=
  let n := c.toNat
  (9 ≤ n && n ≤ 13) || (0x1C ≤ n && n ≤ 0x20) || n ∈ [0x85, 0xA0, 0x1680, 0x2028, 0x2029, 0x202F, 0x205F, 0x3000] ||
    (0x2000 ≤ n && n ≤ 0x200A)

/-- `line.strip()` -/
def strip (line : List Char) : List Char :=
  ((line.dropWhile isSpace).reverse.dropWhile isSpace).reverse

/-- `_is_remote_file_uri_text` of a text -/
def isRemoteFileUriText (value : String) : Bool :=
  let lines := ((splitlines value).map strip).filter (· ≠ [])
  lines ≠ [] && lines.all fun line => "file://".toList.isPrefixOf (line.map Char.toLower)

/-! ### File URIs -/

def hexDigit (c : Char) : Option Nat :=
  if '0' ≤ c ∧ c ≤ '9' then some (c.toNat - '0'.toNat)
  else if 'a' ≤ c ∧ c ≤ 'f' then some (c.toNat - 'a'.toNat + 10)
  else if 'A' ≤ c ∧ c ≤ 'F' then some (c.toNat - 'A'.toNat + 10)
  else none

/-- `unquote`, with the bytes of the run of ASCII characters it is in. -/
def unquoteFrom (run : Bytes) : List Char → List Char
  | [] => decodeFrom none run
  | '%' :: a :: b :: rest =>
      match hexDigit a, hexDigit b with
      | some high, some low => unquoteFrom (run ++ [UInt8.ofNat (16 * high + low)]) rest
      | _, _ => unquoteFrom (run ++ [UInt8.ofNat '%'.toNat]) (a :: b :: rest)
  | c :: rest =>
      if c.toNat < 0x80 then unquoteFrom (run ++ [UInt8.ofNat c.toNat]) rest
      else decodeFrom none run ++ c :: unquoteFrom [] rest

/-- The network location and the path of a URL that starts with `file://`. -/
def urlsplit (line : List Char) : List Char × List Char :=
  let url := (line.filter fun c => c ≠ '\t').drop 7
  let isNetloc (c : Char) : Bool := c ∉ ['/', '?', '#']
  (url.takeWhile isNetloc, (url.dropWhile isNetloc).takeWhile fun c => c ∉ ['?', '#'])

/-- The paths of the local files of a list, in order and each once; nothing when `urlsplit` refuses
a location (`refused`: brackets that do not match, characters that a normal form changes). -/
def localPaths (refused : List Char → Bool) : List (List Char) → List String → Option (List String)
  | [], paths => some paths
  | line :: lines, paths =>
      let line := strip line
      if ¬ "file://".toList.isPrefixOf line then localPaths refused lines paths
      else
        let (netloc, rawPath) := urlsplit line
        if refused netloc then none
        else if netloc ≠ [] ∧ netloc ≠ "localhost".toList then localPaths refused lines paths
        else
          let path := String.ofList (unquoteFrom [] rawPath)
          if startsWith path "/" ∧ path ∉ paths then localPaths refused lines (paths ++ [path])
          else localPaths refused lines paths

/-- `os.path.basename(path.rstrip("/")) or "file"` -/
def baseName (path : String) : String :=
  let name := ((path.toList.reverse.dropWhile (· = '/')).takeWhile (· ≠ '/')).reverse
  if name = [] then "file" else String.ofList name

/-! ### Images -/

def littleEndian (data : Bytes) : Nat := BigEndian.decodeBE data.reverse

/-- `_image_data_complete` -/
def imageDataComplete (dtype : String) (raw : Bytes) : Bool :=
  let kind := lower dtype
  if kind = "image/bmp" then
    raw.length ≥ 6 && raw.take 2 = [66, 77] && littleEndian ((raw.drop 2).take 4) ≤ raw.length
  else if kind = "image/png" then
    raw.length ≥ 20 && [137, 80, 78, 71, 13, 10, 26, 10].isPrefixOf raw &&
      (raw.drop (raw.length - 8)).take 4 = [73, 69, 78, 68]
  else if kind = "image/jpeg" ∨ kind = "image/jpg" then
    raw.length ≥ 4 && [255, 216].isPrefixOf raw && endsWith raw [255, 217]
  else if kind = "image/webp" then
    raw.length ≥ 12 && raw.take 4 = [82, 73, 70, 70] && (raw.drop 8).take 4 = [87, 69, 66, 80] &&
      littleEndian ((raw.drop 4).take 4) + 8 ≤ raw.length
  else true

end Catlink.Clipboard.UriText
