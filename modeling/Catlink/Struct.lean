import Catlink.Python
import Catlink.Lib.BigEndian

/-! The `struct` module: unsigned integers packed into bytes, in the byte order of the machine. -/

namespace Catlink.Struct

open BigEndian

/-- What native sizes and orders depend on. -/
structure Machine where
  bigEndian : Bool
  sizeofLong : Nat
  sized : sizeofLong = 4 ∨ sizeofLong = 8

theorem eight_sized : 8 = 4 ∨ 8 = 8 := .inr rfl

theorem Machine.sizeofLong_pos (machine : Machine) : 0 < machine.sizeofLong := by
  rcases machine.sized with four | eight
  · omega
  · omega

variable (bigEndian : Bool) (width : Nat)

def fits (width : Nat) (v : Int) : Prop := 0 ≤ v ∧ v < 256 ^ width

instance (width : Nat) (v : Int) : Decidable (fits width v) := inferInstanceAs (Decidable (_ ∧ _))

/-- `struct.pack` of one unsigned integer. -/
def pack (v : Int) : Except Exn Bytes :=
  if fits width v then .ok (store bigEndian width v.toNat)
  else .error (.structError "argument out of range")

/-- The integers that are `count` pieces of the data. -/
def values : Nat → Bytes → List Int
  | 0, _ => []
  | count + 1, data => load bigEndian (data.take width) :: values count (data.drop width)

/-- `struct.unpack` of `count` unsigned integers. -/
def unpack (count : Nat) (data : Bytes) : Except Exn (List Int) :=
  if data.length = count * width then .ok (values bigEndian width count data)
  else .error (.structError s!"unpack requires a buffer of {count * width} bytes")

/-- `struct.pack` of any number of them. -/
def packAll (vs : List Int) : Except Exn Bytes :=
  vs.foldr (fun v packed => do return (← pack bigEndian width v) ++ (← packed)) (.ok [])

variable {bigEndian width}

theorem pack_eq {v : Int} (small : fits width v) :
    pack bigEndian width v = .ok (store bigEndian width v.toNat) :=
  if_pos small

theorem pack_ok {v : Int} {bytes : Bytes} (packed : pack bigEndian width v = .ok bytes) :
    fits width v ∧ bytes = store bigEndian width v.toNat := by
  unfold pack at packed
  split at packed
  · rename_i small
    exact ⟨small, (Except.ok.inj packed).symm⟩
  · cases packed

theorem pack_length {v : Int} {bytes : Bytes} (packed : pack bigEndian width v = .ok bytes) :
    bytes.length = width := by
  rw [(pack_ok packed).2, store_length]

/-- Unpacking gives back what was packed. -/
theorem load_pack {v : Int} {bytes : Bytes} (packed : pack bigEndian width v = .ok bytes) :
    (load bigEndian bytes : Int) = v := by
  obtain ⟨⟨nonneg, small⟩, rfl⟩ := pack_ok packed
  rw [load_store]
  · omega
  · zify
    rw [Int.toNat_of_nonneg nonneg]
    exact small

theorem fits.mono {width width' : Nat} {v : Int} (small : fits width v) (wider : width ≤ width') :
    fits width' v :=
  ⟨small.1, lt_of_lt_of_le small.2 (pow_le_pow_right₀ (by decide) wider)⟩

theorem fits_load (bytes : Bytes) : fits bytes.length (load bigEndian bytes) := by
  constructor
  · exact Int.natCast_nonneg _
  · exact_mod_cast load_lt bigEndian bytes

/-- Packing gives back what was unpacked. -/
theorem pack_load (bytes : Bytes) : pack bigEndian bytes.length (load bigEndian bytes) = .ok bytes := by
  rw [pack_eq (fits_load bytes), Int.toNat_natCast, store_load]

theorem packAll_cons (v : Int) (vs : List Int) :
    packAll bigEndian width (v :: vs) =
      (do return (← pack bigEndian width v) ++ (← packAll bigEndian width vs)) := rfl

theorem packAll_ok {v : Int} {vs : List Int} {bytes : Bytes}
    (packed : packAll bigEndian width (v :: vs) = .ok bytes) :
    ∃ first rest, pack bigEndian width v = .ok first ∧ packAll bigEndian width vs = .ok rest ∧
      bytes = first ++ rest := by
  rw [packAll_cons] at packed
  obtain ⟨first, firstPacked, packed⟩ := ok_of_bind packed
  obtain ⟨rest, restPacked, whole⟩ := ok_of_bind packed
  exact ⟨first, rest, firstPacked, restPacked, (Except.ok.inj whole).symm⟩

theorem packAll_length {vs : List Int} {bytes : Bytes}
    (packed : packAll bigEndian width vs = .ok bytes) : bytes.length = vs.length * width := by
  induction vs generalizing bytes with
  | nil =>
      cases packed
      exact (Nat.zero_mul _).symm
  | cons v vs ih =>
      obtain ⟨first, rest, firstPacked, restPacked, rfl⟩ := packAll_ok packed
      rw [List.length_append, pack_length firstPacked, ih restPacked, List.length_cons, Nat.succ_mul,
        Nat.add_comm]

/-- What was unpacked as a whole is packed to the same data. -/
theorem packAll_values {count : Nat} {data : Bytes} (whole : data.length = count * width) :
    packAll bigEndian width (values bigEndian width count data) = .ok data := by
  induction count generalizing data with
  | zero =>
      rw [Nat.zero_mul, List.length_eq_zero_iff] at whole
      subst whole
      rfl
  | succ count ih =>
      rw [Nat.succ_mul] at whole
      have first : (data.take width).length = width := by
        rw [List.length_take]
        omega
      have rest : (data.drop width).length = count * width := by
        rw [List.length_drop]
        omega
      have packed : pack bigEndian (data.take width).length (load bigEndian (data.take width)) =
          .ok (data.take width) := pack_load _
      rw [first] at packed
      rw [values, packAll_cons, packed, ih rest]
      exact congrArg Except.ok (List.take_append_drop width data)

@[simp] theorem values_length (count : Nat) (data : Bytes) :
    (values bigEndian width count data).length = count := by
  induction count generalizing data with
  | zero => rfl
  | succ count ih => rw [values, List.length_cons, ih]

/-- A shorter list of values is a shorter piece of the data. -/
theorem values_take {count : Nat} (data : Bytes) {n : Nat} (fewer : n ≤ count) :
    (values bigEndian width count data).take n = values bigEndian width n data := by
  induction count generalizing data n with
  | zero =>
      rw [Nat.le_zero.mp fewer]
      rfl
  | succ count ih =>
      cases n with
      | zero => rfl
      | succ n => rw [values, List.take_succ_cons, ih _ (by omega), values]

/-- Only the data up to the last value matters. -/
theorem values_prefix (count : Nat) (data : Bytes) :
    values bigEndian width count (data.take (count * width)) = values bigEndian width count data := by
  induction count generalizing data with
  | zero => rfl
  | succ count ih =>
      rw [Nat.succ_mul]
      have first : (data.take (count * width + width)).take width = data.take width := by
        rw [List.take_take, Nat.min_eq_left (Nat.le_add_left _ _)]
      have rest : (data.take (count * width + width)).drop width =
          (data.drop width).take (count * width) := by
        rw [List.drop_take, Nat.add_sub_cancel]
      rw [values, values, first, rest, ih]

/-- Values are packed to the data that they are. -/
theorem packAll_values_take {count : Nat} {data : Bytes} (enough : count * width ≤ data.length) :
    packAll bigEndian width (values bigEndian width count data) = .ok (data.take (count * width)) := by
  rw [← values_prefix]
  apply packAll_values
  rw [List.length_take, Nat.min_eq_left enough]

end Catlink.Struct
