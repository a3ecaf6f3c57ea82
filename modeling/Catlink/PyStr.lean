import Catlink.Rencodeplus.RoundTrip

/-! Python strings as code points, lone surrogates among them, and their encodings. -/

namespace Catlink

open Rencodeplus

structure CodePoint where
  val : Nat
  bounded : val < 0x110000
  deriving DecidableEq, Repr

abbrev PyStr := List CodePoint

theorem zero_bounded : 0 < 0x110000 := by decide

def CodePoint.nul : CodePoint := ⟨0, zero_bounded⟩

theorem CodePoint.ext {c d : CodePoint} (same : c.val = d.val) : c = d := by
  cases c
  cases d
  cases same
  rfl

def CodePoint.isSurrogate (c : CodePoint) : Prop := 0xD800 ≤ c.val ∧ c.val < 0xE000

instance (c : CodePoint) : Decidable c.isSurrogate := inferInstanceAs (Decidable (_ ∧ _))

namespace PyStr

theorem char_bounded (c : Char) : c.toNat < 0x110000 := by
  rcases c.valid with low | high
  · exact low.trans (by decide)
  · exact high.2

theorem byte_bounded (b : UInt8) : b.toNat < 0x110000 := b.toNat_lt.trans (by decide)

def ofString (text : String) : PyStr := text.toList.map fun c => ⟨c.toNat, char_bounded c⟩

/-- The text without surrogates, by its characters. -/
def toString (s : PyStr) : String := String.ofList (s.map fun c => Char.ofNat c.val)

/-- `s.encode("UTF-8")` -/
def encodeUtf8 (s : PyStr) : Except Exn Bytes :=
  if ∃ c ∈ s, c.isSurrogate then
    .error (.valueError "'utf-8' codec can't encode character: surrogates not allowed")
  else .ok (utf8 s.toString)

/-- `s.encode("latin1")` -/
def encodeLatin1 (s : PyStr) : Except Exn Bytes :=
  if ∀ c ∈ s, c.val < 256 then .ok (s.map fun c => UInt8.ofNat c.val)
  else .error (.valueError "'latin-1' codec can't encode characters")

/-- `v.decode("latin1")` -/
def decodeLatin1 (v : Bytes) : PyStr := v.map fun b => ⟨b.toNat, byte_bounded b⟩

/-- `strtobytes(s)` -/
def strtobytes (s : PyStr) : Except Exn Bytes :=
  match s.encodeLatin1 with
  | .ok v => .ok v
  | .error _ => s.encodeUtf8

theorem isSurrogate_or_valid (c : CodePoint) : c.isSurrogate ∨ c.val.isValidChar := by
  rcases Nat.lt_or_ge c.val 0xD800 with low | high
  · exact .inr (.inl low)
  rcases Nat.lt_or_ge c.val 0xE000 with surrogate | high
  · exact .inl ⟨high, surrogate⟩
  · exact .inr (.inr ⟨by omega, c.bounded⟩)

theorem ofString_toString {s : PyStr} (plain : ∀ c ∈ s, ¬ c.isSurrogate) : ofString s.toString = s := by
  unfold ofString toString
  rw [String.toList_ofList, List.map_map]
  conv_rhs => rw [← List.map_id s]
  apply List.map_congr_left
  intro c member
  have valid := (isSurrogate_or_valid c).resolve_left (plain c member)
  have value : (Char.ofNat c.val).toNat = c.val := by
    rw [Char.ofNat, dif_pos valid]
    rfl
  exact CodePoint.ext value

/-- Text that is encoded is decoded to itself. -/
theorem decode_encodeUtf8 {s : PyStr} {v : Bytes} (encoded : s.encodeUtf8 = .ok v) :
    ∃ text, decodeUtf8 v = .ok text ∧ ofString text = s := by
  unfold encodeUtf8 at encoded
  split at encoded
  · cases encoded
  · rename_i plain
    cases encoded
    refine ⟨s.toString, decodeUtf8_utf8 _, ofString_toString ?_⟩
    intro c member surrogate
    exact plain ⟨c, member, surrogate⟩

theorem decode_encodeLatin1 {s : PyStr} {v : Bytes} (encoded : s.encodeLatin1 = .ok v) :
    decodeLatin1 v = s := by
  unfold encodeLatin1 at encoded
  split at encoded
  · rename_i small
    cases encoded
    unfold decodeLatin1
    rw [List.map_map]
    conv_rhs => rw [← List.map_id s]
    apply List.map_congr_left
    intro c member
    have byte : (UInt8.ofNat c.val).toNat = c.val := by
      rw [UInt8.toNat_ofNat', Nat.mod_eq_of_lt (small c member)]
    exact CodePoint.ext byte
  · cases encoded

theorem plain_of_encodeUtf8 {s : PyStr} {v : Bytes} (encoded : s.encodeUtf8 = .ok v) :
    ∀ c ∈ s, ¬ c.isSurrogate := by
  unfold encodeUtf8 at encoded
  split at encoded
  · cases encoded
  · rename_i plain
    intro c member surrogate
    exact plain ⟨c, member, surrogate⟩

theorem encodeLatin1_of_small {s : PyStr} (small : ∀ c ∈ s, c.val < 256) :
    s.encodeLatin1 = .ok (s.map fun c => UInt8.ofNat c.val) := by
  rw [encodeLatin1, if_pos small]

theorem small_of_encodeLatin1 {s : PyStr} {v : Bytes} (encoded : s.encodeLatin1 = .ok v) :
    ∀ c ∈ s, c.val < 256 := by
  unfold encodeLatin1 at encoded
  split at encoded
  · assumption
  · cases encoded

/-! ### The byte that separates strings -/

theorem ofNat_ne_zero {n : Nat} (some : n % 256 ≠ 0) : (0 : UInt8) ≠ UInt8.ofNat n := by
  intro zero
  apply some
  have value := congrArg UInt8.toNat zero
  rw [UInt8.toNat_ofNat'] at value
  exact value.symm

theorem zero_not_mem_utf8EncodeChar {c : Char} (other : c ≠ Char.ofNat 0) :
    0 ∉ String.utf8EncodeChar c := by
  have positive : c.val.toNat ≠ 0 := fun zero => other (Char.toNat_inj.mp zero)
  have small : c.val.toNat < 0x110000 := by
    rcases c.valid with low | high
    · omega
    · exact high.2
  unfold String.utf8EncodeChar
  dsimp only
  split
  · simp only [List.mem_singleton]
    exact ofNat_ne_zero (by omega)
  split
  · simp only [List.mem_cons, List.not_mem_nil, or_false, not_or]
    exact ⟨ofNat_ne_zero (by omega), ofNat_ne_zero (by omega)⟩
  split
  · simp only [List.mem_cons, List.not_mem_nil, or_false, not_or]
    exact ⟨ofNat_ne_zero (by omega), ofNat_ne_zero (by omega), ofNat_ne_zero (by omega)⟩
  · simp only [List.mem_cons, List.not_mem_nil, or_false, not_or]
    exact ⟨ofNat_ne_zero (by omega), ofNat_ne_zero (by omega), ofNat_ne_zero (by omega),
      ofNat_ne_zero (by omega)⟩

theorem zero_not_mem_utf8 {text : String} (clean : Char.ofNat 0 ∉ text.toList) : 0 ∉ utf8 text := by
  have bytes : utf8 text = text.toList.flatMap String.utf8EncodeChar := by
    rw [utf8, ← String.utf8Encode_toList, List.utf8Encode]
    simp
  rw [bytes, List.mem_flatMap]
  rintro ⟨c, member, zero⟩
  refine zero_not_mem_utf8EncodeChar ?_ zero
  rintro rfl
  exact clean member

theorem zero_not_mem_encodeUtf8 {s : PyStr} {v : Bytes} (clean : .nul ∉ s)
    (encoded : s.encodeUtf8 = .ok v) : 0 ∉ v := by
  unfold encodeUtf8 at encoded
  split at encoded
  · cases encoded
  · rename_i plain
    cases encoded
    apply zero_not_mem_utf8
    unfold toString
    rw [String.toList_ofList, List.mem_map]
    rintro ⟨c, member, zero⟩
    have valid := (isSurrogate_or_valid c).resolve_left fun surrogate => plain ⟨c, member, surrogate⟩
    have value := congrArg Char.toNat zero
    rw [Char.ofNat, dif_pos valid] at value
    have none : c = .nul := CodePoint.ext value
    exact clean (none ▸ member)

theorem zero_not_mem_encodeLatin1 {s : PyStr} {v : Bytes} (clean : .nul ∉ s)
    (encoded : s.encodeLatin1 = .ok v) : 0 ∉ v := by
  unfold encodeLatin1 at encoded
  split at encoded
  · rename_i small
    cases encoded
    rw [List.mem_map]
    rintro ⟨c, member, zero⟩
    have value := congrArg UInt8.toNat zero
    rw [UInt8.toNat_ofNat', Nat.mod_eq_of_lt (small c member)] at value
    have none : c = .nul := CodePoint.ext value
    exact clean (none ▸ member)
  · cases encoded

end PyStr

end Catlink
