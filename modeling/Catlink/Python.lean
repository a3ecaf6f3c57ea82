import Mathlib.Data.List.Basic

/-! The Python objects and exceptions that cross function boundaries of the network code. -/

namespace Catlink

abbrev Bytes := List UInt8

inductive PyVal
  | none
  | bool (value : Bool)
  | int (value : Int)
  /-- the 64 bits of an IEEE double -/
  | float (bits : BitVec 64)
  | bytes (data : Bytes)
  | memoryview (data : Bytes)
  /-- a text without lone surrogates -/
  | str (text : String)
  | list (items : List PyVal)
  | tuple (items : List PyVal)
  /-- entries in insertion order -/
  | dict (entries : List (PyVal × PyVal))
  deriving Repr, Inhabited

/-- `bool(value)` -/
def PyVal.truthy : PyVal → Bool
  | .none => false
  | .bool value => value
  | .int value => value ≠ 0
  | .float bits => bits.setWidth 63 ≠ 0
  | .bytes data | .memoryview data => data ≠ []
  | .str text => text ≠ ""
  | .list items | .tuple items => items.length ≠ 0
  | .dict entries => entries.length ≠ 0

/-- Exceptions by class, with their text. -/
inductive Exn
  | invalidPacketEncoding (text : String)
  | invalidCompression (text : String)
  | valueError (text : String)
  | typeError (text : String)
  | indexError (text : String)
  | assertionError (text : String)
  | structError (text : String)
  | runtimeError (text : String)
  | overflowError (text : String)
  | other (text : String)
  deriving DecidableEq, Repr

namespace Exn

def text : Exn → String
  | invalidPacketEncoding text | invalidCompression text | valueError text | typeError text
  | indexError text | assertionError text | structError text | runtimeError text
  | overflowError text | other text => text

end Exn

/-- A computation that succeeds does so step by step. -/
theorem ok_of_bind {ε α β : Type} {x : Except ε α} {f : α → Except ε β} {b : β}
    (h : x >>= f = .ok b) : ∃ a, x = .ok a ∧ f a = .ok b := by
  cases x with
  | error e => cases h
  | ok a => exact ⟨a, rfl, h⟩

/-- `list(value)` -/
def pyList : PyVal → Except Exn (List PyVal)
  | .list items | .tuple items => .ok items
  | .bytes data | .memoryview data => .ok (data.map fun b => .int b.toNat)
  | .str text => .ok (text.toList.map fun c => .str (String.singleton c))
  | .dict entries => .ok (entries.map Prod.fst)
  | _ => .error (.typeError "object is not iterable")

/-- `part in text` -/
def mentions (text part : String) : Bool := text.toList.tails.any part.toList.isPrefixOf

end Catlink
