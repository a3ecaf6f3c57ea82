import Catlink.Rfb.D3des
import Mathlib.Tactic

/-! What is encrypted is decrypted, with every key. -/

namespace Catlink.D3des

open BigEndian Feistel

/-! ### Halves -/

/-- The same low 32 bits. -/
def Alike (a b : Nat) : Prop := ∀ i < 32, a.testBit i = b.testBit i

def Small (a : Nat) : Prop := a < 2 ^ 32

section

variable {a b shift mask : Nat} {halves halves' : Nat × Nat}

theorem Alike.eq (alike : Alike a b) (left : Small a) (right : Small b) : a = b := by
  apply Nat.eq_of_testBit_eq
  intro i
  by_cases low : i < 32
  · exact alike i low
  · have power : 2 ^ 32 ≤ 2 ^ i := Nat.pow_le_pow_right (by decide) (Nat.le_of_not_lt low)
    rw [Nat.testBit_lt_two_pow (Nat.lt_of_lt_of_le left power),
      Nat.testBit_lt_two_pow (Nat.lt_of_lt_of_le right power)]

theorem mask_eq (a : Nat) : a &&& 0xffffffff = a % 2 ^ 32 := Nat.and_two_pow_sub_one_eq_mod a 32

theorem mask_alike (a : Nat) : Alike (a &&& 0xffffffff) a := by
  intro i low
  rw [mask_eq, Nat.testBit_mod_two_pow, decide_eq_true low, Bool.true_and]

theorem mask_small (a : Nat) : Small (a &&& 0xffffffff) := by
  rw [mask_eq]
  exact Nat.mod_lt _ (by decide)

/-- An exchange is undone by the same one. -/
theorem exchange_exchange (shift mask : Nat) (halves : Nat × Nat) :
    exchange shift mask (exchange shift mask halves) = halves := by
  unfold exchange
  dsimp only
  generalize worked : ((halves.1 >>> shift) ^^^ halves.2) &&& mask = work
  have again : (((halves.1 ^^^ (work <<< shift)) >>> shift) ^^^ (halves.2 ^^^ work)) &&& mask = work := by
    rw [Nat.shiftRight_xor_distrib, Nat.shiftLeft_shiftRight, ← worked]
    congr 1
    rw [worked, Nat.xor_comm halves.2 work, ← Nat.xor_assoc, Nat.xor_assoc _ work work, Nat.xor_self,
      Nat.xor_zero]
  rw [again, Nat.xor_assoc, Nat.xor_self, Nat.xor_zero, Nat.xor_assoc, Nat.xor_self, Nat.xor_zero]

/-- What is exchanged comes from the low bits. -/
theorem work_eq (fits : mask < 2 ^ (32 - shift)) (first : Alike halves.1 halves'.1)
    (second : Alike halves.2 halves'.2) :
    ((halves.1 >>> shift) ^^^ halves.2) &&& mask = ((halves'.1 >>> shift) ^^^ halves'.2) &&& mask := by
  apply Nat.eq_of_testBit_eq
  intro i
  rw [Nat.testBit_and, Nat.testBit_and, Nat.testBit_xor, Nat.testBit_xor, Nat.testBit_shiftRight,
    Nat.testBit_shiftRight]
  by_cases low : i < 32 - shift
  · rw [first (shift + i) (by omega), second i (by omega)]
  · have power : 2 ^ (32 - shift) ≤ 2 ^ i := Nat.pow_le_pow_right (by decide) (Nat.le_of_not_lt low)
    rw [Nat.testBit_lt_two_pow (Nat.lt_of_lt_of_le fits power), Bool.and_false, Bool.and_false]

theorem Alike.xor {c d : Nat} (first : Alike a b) (second : Alike c d) : Alike (a ^^^ c) (b ^^^ d) := by
  intro i low
  rw [Nat.testBit_xor, Nat.testBit_xor, first i low, second i low]

theorem exchange_alike (fits : mask < 2 ^ (32 - shift)) (first : Alike halves.1 halves'.1)
    (second : Alike halves.2 halves'.2) :
    Alike (exchange shift mask halves).1 (exchange shift mask halves').1 ∧
      Alike (exchange shift mask halves).2 (exchange shift mask halves').2 := by
  unfold exchange
  dsimp only
  rw [work_eq fits first second]
  exact ⟨first.xor fun _ _ => rfl, second.xor fun _ _ => rfl⟩

theorem exchange_small (fits : mask < 2 ^ (32 - shift)) (shifts : shift ≤ 32) (first : Small halves.1)
    (second : Small halves.2) :
    Small (exchange shift mask halves).1 ∧ Small (exchange shift mask halves).2 := by
  unfold exchange
  dsimp only
  generalize worked : ((halves.1 >>> shift) ^^^ halves.2) &&& mask = work
  have below : work < 2 ^ (32 - shift) := by
    rw [← worked]
    exact Nat.lt_of_le_of_lt Nat.and_le_right fits
  have shifted : work <<< shift < 2 ^ 32 := by
    rw [Nat.shiftLeft_eq]
    calc work * 2 ^ shift < 2 ^ (32 - shift) * 2 ^ shift :=
          (Nat.mul_lt_mul_right (Nat.two_pow_pos shift)).mpr below
      _ = 2 ^ 32 := by rw [← Nat.pow_add, Nat.sub_add_cancel shifts]
  have small : work < 2 ^ 32 :=
    Nat.lt_of_lt_of_le below (Nat.pow_le_pow_right (by decide) (Nat.sub_le 32 shift))
  exact ⟨Nat.xor_lt_two_pow first shifted, Nat.xor_lt_two_pow second small⟩

/-- Without a shift the halves play the same part. -/
theorem exchange_swap (mask : Nat) (halves : Nat × Nat) :
    exchange 0 mask halves.swap = (exchange 0 mask halves).swap := by
  unfold exchange
  dsimp only [Prod.swap]
  rw [Nat.shiftRight_zero, Nat.shiftRight_zero, Nat.shiftLeft_zero, Nat.xor_comm halves.2 halves.1]
  rfl

/-! ### Rotations -/

theorem rotateLeft_small (a : Nat) : Small (rotateLeft a) := mask_small _

theorem testBit_rotateLeft (a i : Nat) :
    (rotateLeft a).testBit i =
      (decide (i < 32) && if i = 0 then a.testBit 31 else a.testBit (i - 1)) := by
  unfold rotateLeft
  rw [mask_eq, Nat.testBit_mod_two_pow, Nat.testBit_or, Nat.testBit_shiftLeft, Nat.testBit_and,
    Nat.testBit_shiftRight]
  by_cases first : i = 0
  · subst first
    simp
  · have one : Nat.testBit 1 i = false :=
      Bool.eq_false_iff.mpr fun set => first (Nat.testBit_one_eq_true_iff_self_eq_zero.mp set)
    have above : 1 ≤ i := Nat.one_le_iff_ne_zero.mpr first
    rw [one, if_neg first, Bool.and_false, Bool.or_false, decide_eq_true above, Bool.true_and]

theorem testBit_rotateRight (a i : Nat) :
    (rotateRight a).testBit i = (decide (31 ≤ i) && a.testBit (i - 31) || a.testBit (1 + i)) := by
  unfold rotateRight
  rw [Nat.testBit_or, Nat.testBit_shiftLeft, Nat.testBit_shiftRight]

/-- To the right, and whatever is above the low bits, and back. -/
theorem rotateLeft_of_alike (small : Small a) (alike : Alike b (rotateRight a)) : rotateLeft b = a := by
  apply Alike.eq _ (rotateLeft_small b) small
  intro i low
  rw [testBit_rotateLeft, decide_eq_true low, Bool.true_and]
  have high : a.testBit 32 = false := Nat.testBit_lt_two_pow small
  split
  · rename_i first
    subst first
    rw [alike 31 (by decide), testBit_rotateRight]
    change (true && a.testBit 0 || a.testBit 32) = a.testBit 0
    rw [high, Bool.true_and, Bool.or_false]
  · rename_i first
    rw [alike (i - 1) (by omega), testBit_rotateRight]
    have below : ¬ 31 ≤ i - 1 := by omega
    have position : 1 + (i - 1) = i := by omega
    rw [decide_eq_false below, Bool.false_and, Bool.false_or, position]

theorem rotateRight_rotateLeft (a : Nat) : Alike (rotateRight (rotateLeft a)) a := by
  intro i low
  rw [testBit_rotateRight, testBit_rotateLeft, testBit_rotateLeft]
  by_cases last : 31 ≤ i
  · have same : i = 31 := by omega
    subst same
    simp
  · have next : 1 + i < 32 := by omega
    have position : 1 + i - 1 = i := by omega
    have other : ¬ 1 + i = 0 := by omega
    rw [decide_eq_false last, Bool.false_and, Bool.false_or, decide_eq_true next, Bool.true_and,
      if_neg other, position]

/-! ### Permutations -/

/-- Both halves have the same low bits. -/
def Alikes (halves halves' : Nat × Nat) : Prop := Alike halves.1 halves'.1 ∧ Alike halves.2 halves'.2

def Smalls (halves : Nat × Nat) : Prop := Small halves.1 ∧ Small halves.2

theorem Alikes.swap (alikes : Alikes halves halves') : Alikes halves.swap halves'.swap := alikes.symm

theorem Alikes.eq (alikes : Alikes halves halves') (left : Smalls halves) (right : Smalls halves') :
    halves = halves' := Prod.ext (alikes.1.eq left.1 right.1) (alikes.2.eq left.2 right.2)

/-- A mask with room for the shift. -/
def Fits (shift mask : Nat) : Prop := shift ≤ 32 ∧ mask < 2 ^ (32 - shift)

theorem fits_four : Fits 4 0x0f0f0f0f := ⟨by decide, by decide⟩

theorem fits_sixteen : Fits 16 0x0000ffff := ⟨by decide, by decide⟩

theorem fits_two : Fits 2 0x33333333 := ⟨by decide, by decide⟩

theorem fits_eight : Fits 8 0x00ff00ff := ⟨by decide, by decide⟩

theorem fits_zero : Fits 0 0xaaaaaaaa := ⟨by decide, by decide⟩

theorem Smalls.exchange (smalls : Smalls halves) (fits : Fits shift mask) :
    Smalls (exchange shift mask halves) := exchange_small fits.2 fits.1 smalls.1 smalls.2

/-- What is exchanged again is as it was before, in the low bits. -/
theorem Alikes.undo (alikes : Alikes halves (exchange shift mask halves')) (fits : Fits shift mask) :
    Alikes (D3des.exchange shift mask halves) halves' := by
  have again := exchange_alike fits.2 alikes.1 alikes.2
  rw [exchange_exchange] at again
  exact again

theorem Smalls.swap (smalls : Smalls halves) : Smalls halves.swap := smalls.symm

theorem permute_small (smalls : Smalls halves) : Smalls (permute halves) := by
  have first := (smalls.exchange fits_four).exchange fits_sixteen
  have second := (first.swap.exchange fits_two).exchange fits_eight
  unfold permute
  dsimp only
  generalize exchange 8 0x00ff00ff (exchange 2 0x33333333
    (exchange 16 0x0000ffff (exchange 4 0x0f0f0f0f halves)).swap) = outer at second ⊢
  have third : Smalls (outer.2, rotateLeft outer.1) := ⟨second.2, rotateLeft_small _⟩
  exact ⟨rotateLeft_small _, (third.exchange fits_zero).2⟩

/-- Whatever the second half is, the first one stays small. -/
theorem exchange_zero_small (small : Small halves.1) : Small (exchange 0 0xaaaaaaaa halves).1 := by
  unfold exchange
  have work : ((halves.1 >>> 0) ^^^ halves.2) &&& 0xaaaaaaaa < 2 ^ 32 :=
    Nat.lt_of_le_of_lt Nat.and_le_right (by decide)
  exact Nat.xor_lt_two_pow small work

/-- The second permutation is undone by the first one, which leaves the halves in the other order. -/
theorem permute_unpermute (smalls : Smalls halves) (alikes : Alikes halves' (unpermute halves)) :
    Alikes (permute halves') halves.swap := by
  unfold unpermute at alikes
  dsimp only at alikes
  have small : Small (exchange 0 0xaaaaaaaa (halves.1, rotateRight halves.2)).1 :=
    exchange_zero_small smalls.1
  generalize mixed : exchange 0 0xaaaaaaaa (halves.1, rotateRight halves.2) = inner at alikes small
  have undone := (((alikes.undo fits_four).undo fits_sixteen).swap.undo fits_two).undo fits_eight
  unfold permute
  dsimp only
  generalize exchange 8 0x00ff00ff (exchange 2 0x33333333
    (exchange 16 0x0000ffff (exchange 4 0x0f0f0f0f halves')).swap) = outer at undone ⊢
  rw [rotateLeft_of_alike small undone.1]
  have again : Alikes (outer.2, inner.1) inner.swap := ⟨undone.2, fun _ _ => rfl⟩
  have unmixed : inner.swap = exchange 0 0xaaaaaaaa (rotateRight halves.2, halves.1) := by
    rw [← mixed]
    exact (exchange_swap 0xaaaaaaaa (halves.1, rotateRight halves.2)).symm
  rw [unmixed] at again
  have last := again.undo fits_zero
  rw [rotateLeft_of_alike smalls.2 last.1]
  exact ⟨fun _ _ => rfl, last.2⟩

/-- The first permutation is undone by the second one, when the halves change places in between. -/
theorem unpermute_permute (smalls : Smalls halves) : Alikes (unpermute (permute halves).swap) halves := by
  have first := (smalls.exchange fits_four).exchange fits_sixteen
  have second := (first.swap.exchange fits_two).exchange fits_eight
  unfold permute
  dsimp only
  generalize made : exchange 8 0x00ff00ff (exchange 2 0x33333333
    (exchange 16 0x0000ffff (exchange 4 0x0f0f0f0f halves)).swap) = outer at second ⊢
  have third : Smalls (outer.2, rotateLeft outer.1) := ⟨second.2, rotateLeft_small _⟩
  replace third := third.exchange fits_zero
  generalize mixed : exchange 0 0xaaaaaaaa (outer.2, rotateLeft outer.1) = inner at third ⊢
  unfold unpermute
  dsimp only [Prod.swap]
  have small : Small (exchange 0 0xaaaaaaaa (inner.2, rotateRight (rotateLeft inner.1))).1 :=
    exchange_zero_small third.2
  have turned : Alikes (inner.2, rotateRight (rotateLeft inner.1))
      (exchange 0 0xaaaaaaaa (rotateLeft outer.1, outer.2)) := by
    have same : exchange 0 0xaaaaaaaa (rotateLeft outer.1, outer.2) = inner.swap := by
      rw [← mixed]
      exact exchange_swap 0xaaaaaaaa (outer.2, rotateLeft outer.1)
    rw [same]
    exact ⟨fun _ _ => rfl, rotateRight_rotateLeft inner.1⟩
  have unmixed := turned.undo fits_zero
  generalize exchange 0 0xaaaaaaaa (inner.2, rotateRight (rotateLeft inner.1)) = left at unmixed small ⊢
  have exact' : left.1 = rotateLeft outer.1 := unmixed.1.eq small (rotateLeft_small _)
  have back : Alikes (rotateRight left.1, left.2) outer := by
    rw [exact']
    exact ⟨rotateRight_rotateLeft outer.1, unmixed.2⟩
  rw [← made] at back
  exact (((back.undo fits_eight).undo fits_two).swap.undo fits_sixteen).undo fits_four

end

/-! ### Rounds -/

theorem getD_small {table : List Nat} (smalls : ∀ value ∈ table, value < 2 ^ 32) (i : Nat) :
    table.getD i 0 < 2 ^ 32 := by
  by_cases inside : i < table.length
  · rw [List.getD_eq_getElem table 0 inside]
    exact smalls _ (List.getElem_mem inside)
  · rw [List.getD_eq_default table 0 (Nat.le_of_not_lt inside)]
    decide

theorem fval_small (key : Nat × Nat) (half : Nat) : Small (fval key half) := by
  have odd (i j k l : Nat) : sp7.getD i 0 ||| sp5.getD j 0 ||| sp3.getD k 0 ||| sp1.getD l 0 < 2 ^ 32 := by
    refine Nat.or_lt_two_pow (Nat.or_lt_two_pow (Nat.or_lt_two_pow ?_ ?_) ?_) ?_
    all_goals exact getD_small (by decide) _
  refine Nat.or_lt_two_pow (Nat.or_lt_two_pow (Nat.or_lt_two_pow (Nat.or_lt_two_pow ?_ ?_) ?_) ?_) ?_
  · exact odd _ _ _ _
  all_goals exact getD_small (by decide) _

theorem xor_cancels (a b : Nat) : (a ^^^ b) ^^^ b = a := by
  rw [Nat.xor_assoc, Nat.xor_self, Nat.xor_zero]

/-- The keys of the rounds one after another. -/
def flat (keys : List (Nat × Nat)) : List Nat := keys.flatMap fun key => [key.1, key.2]

/-- The loop is an even number of rounds. -/
theorem loop_rounds : ∀ (keys : List (Nat × Nat)), keys.length % 2 = 0 → ∀ halves : Nat × Nat,
    loop (flat keys) halves = rounds Nat.xor fval keys halves
  | [], _, _ => rfl
  | [_], odd, _ => absurd odd Nat.one_ne_zero
  | first :: second :: keys, even, halves => by
      have rest : keys.length % 2 = 0 := by
        rw [List.length_cons, List.length_cons] at even
        omega
      exact loop_rounds keys rest _

def roundKeys (key : Bytes) (decrypt : Bool) : List (Nat × Nat) :=
  let keys := totrot.map fun rotation =>
    cookeyPair (gather (keyBits key) rotation 0, gather (keyBits key) rotation 24)
  if decrypt then keys.reverse else keys

theorem deskey_eq {key : Bytes} (sized : key.length = 8) (decrypt : Bool) :
    deskey key decrypt = .ok (flat (roundKeys key decrypt)) := by
  unfold deskey checkEight
  rw [if_pos sized]
  dsimp only [bind, Except.bind]
  congr 1
  unfold cookey flat roundKeys
  cases decrypt with
  | false => simp only [Bool.false_eq_true, if_false, List.flatMap_map]
  | true => simp only [if_true, ← List.map_reverse, List.flatMap_map]

theorem roundKeys_length (key : Bytes) (decrypt : Bool) : (roundKeys key decrypt).length = 16 := by
  unfold roundKeys
  cases decrypt with
  | false => rfl
  | true => exact List.length_reverse

theorem roundKeys_not (key : Bytes) (decrypt : Bool) :
    roundKeys key (!decrypt) = (roundKeys key decrypt).reverse := by
  unfold roundKeys
  cases decrypt with
  | false => rfl
  | true => exact (List.reverse_reverse _).symm

/-! ### Blocks -/

theorem unpackHalves_small {block : Bytes} (sized : block.length = 8) : Smalls (unpackHalves block) := by
  have first := decodeBE_lt (block.take 4)
  have second := decodeBE_lt (block.drop 4)
  rw [List.length_take, sized] at first
  rw [List.length_drop, sized] at second
  exact ⟨first, second⟩

theorem packHalves_length (halves : Nat × Nat) : (packHalves halves).length = 8 := by
  unfold packHalves
  rw [List.length_append, encodeBE_length, encodeBE_length]

theorem unpack_packHalves (halves : Nat × Nat) : Alikes (unpackHalves (packHalves halves)) halves := by
  unfold unpackHalves packHalves
  rw [List.take_left' (encodeBE_length 4 _), List.drop_left' (encodeBE_length 4 _),
    decodeBE_encodeBE 4 _ (mask_small _), decodeBE_encodeBE 4 _ (mask_small _)]
  exact ⟨mask_alike halves.1, mask_alike halves.2⟩

theorem pack_unpackHalves {block : Bytes} (sized : block.length = 8) {halves : Nat × Nat}
    (alikes : Alikes halves (unpackHalves block)) : packHalves halves = block := by
  have smalls := unpackHalves_small sized
  have masked (a b : Nat) (alike : Alike a b) (small : Small b) : a &&& 0xffffffff = b :=
    Alike.eq (fun i low => (mask_alike a i low).trans (alike i low)) (mask_small a) small
  have first : (block.take 4).length = 4 := by rw [List.length_take, sized]; rfl
  have second : (block.drop 4).length = 4 := by rw [List.length_drop, sized]
  unfold packHalves
  rw [masked _ _ alikes.1 smalls.1, masked _ _ alikes.2 smalls.2]
  unfold unpackHalves
  have whole := encodeBE_decodeBE (block.take 4)
  have others := encodeBE_decodeBE (block.drop 4)
  rw [first] at whole
  rw [second] at others
  rw [whole, others, List.take_append_drop]

/-- A block with these keys of the rounds. -/
def crypt (keys : List (Nat × Nat)) (block : Bytes) : Bytes :=
  packHalves (unpermute (rounds Nat.xor fval keys (permute (unpackHalves block))))

theorem crypt_length (keys : List (Nat × Nat)) (block : Bytes) : (crypt keys block).length = 8 :=
  packHalves_length _

theorem desfunc_eq {block : Bytes} (sized : block.length = 8) (key : Bytes) (decrypt : Bool) :
    desfunc block (flat (roundKeys key decrypt)) = .ok (crypt (roundKeys key decrypt) block) := by
  have length : (flat (roundKeys key decrypt)).length = 32 := by
    unfold flat
    rw [List.length_flatMap]
    have sixteen := roundKeys_length key decrypt
    simp [sixteen]
  unfold desfunc checkEight
  rw [if_pos sized, List.take_of_length_le (Nat.le_of_eq length),
    loop_rounds _ (by rw [roundKeys_length])]
  rfl

/-- With the keys in reverse, the block is there again. -/
theorem crypt_reverse {block : Bytes} (sized : block.length = 8) (keys : List (Nat × Nat)) :
    crypt keys.reverse (crypt keys block) = block := by
  have smalls := permute_small (unpackHalves_small sized)
  unfold crypt
  generalize rounded : rounds Nat.xor fval keys (permute (unpackHalves block)) = halves
  have mixes : Smalls halves := by
    rw [← rounded]
    refine rounds_invariant fval (fun key a b first _ => ?_) _ smalls
    exact Nat.xor_lt_two_pow first (fval_small key b)
  have turned : permute (unpackHalves (packHalves (unpermute halves))) = halves.swap := by
    refine (permute_unpermute mixes (unpack_packHalves _)).eq ?_ mixes.swap
    exact permute_small (unpackHalves_small (packHalves_length _))
  have undone : rounds Nat.xor fval keys.reverse halves.swap = (permute (unpackHalves block)).swap := by
    rw [← rounded]
    exact rounds_reverse fval xor_cancels _ _
  rw [turned, undone]
  exact pack_unpackHalves sized (unpermute_permute (unpackHalves_small sized))

theorem crypt_injective {block block' : Bytes} (sized : block.length = 8) (sized' : block'.length = 8)
    (keys : List (Nat × Nat)) (same : crypt keys block = crypt keys block') : block = block' := by
  rw [← crypt_reverse sized keys, same, crypt_reverse sized' keys]

/-- With every key, what is encrypted is decrypted, and the other way. -/
theorem desfunc_desfunc {key block : Bytes} (keyed : key.length = 8) (sized : block.length = 8)
    (decrypt : Bool) :
    ∃ keys keys' cipher, deskey key decrypt = .ok keys ∧ deskey key (!decrypt) = .ok keys' ∧
      desfunc block keys = .ok cipher ∧ cipher.length = 8 ∧ desfunc cipher keys' = .ok block := by
  refine ⟨_, _, _, deskey_eq keyed decrypt, deskey_eq keyed (!decrypt), desfunc_eq sized key decrypt,
    crypt_length _ _, ?_⟩
  rw [desfunc_eq (crypt_length _ _) key (!decrypt), roundKeys_not, crypt_reverse sized]

/-- A password that was encrypted with the fixed key is there again. -/
theorem decryptPasswd_desfunc {data : Bytes} (sized : data.length = 8) :
    ∃ keys cipher, deskey vnckey false = .ok keys ∧ desfunc data keys = .ok cipher ∧
      decryptPasswd cipher = .ok data := by
  refine ⟨_, _, deskey_eq rfl false, desfunc_eq sized vnckey false, ?_⟩
  have reversed : roundKeys vnckey true = (roundKeys vnckey false).reverse := roundKeys_not vnckey false
  unfold decryptPasswd
  rw [deskey_eq rfl true]
  dsimp only [bind, Except.bind]
  rw [desfunc_eq (crypt_length _ _), reversed, crypt_reverse sized]

/-- A block that is its own key. -/
def counted : Bytes := [0x01, 0x23, 0x45, 0x67, 0x89, 0xab, 0xcd, 0xef]

theorem desfunc_desfunc_counted : ∃ keys keys' cipher, deskey counted false = .ok keys ∧
    deskey counted true = .ok keys' ∧ desfunc counted keys = .ok cipher ∧ cipher.length = 8 ∧
      desfunc cipher keys' = .ok counted :=
  desfunc_desfunc rfl rfl false

example : (do desfunc counted (← deskey counted false)) =
    .ok [0x6e, 0x09, 0xa3, 0x77, 0x26, 0xdd, 0x56, 0x0c] := rfl

end Catlink.D3des
