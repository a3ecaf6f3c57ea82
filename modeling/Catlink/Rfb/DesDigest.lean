import Catlink.Auth.SysAuthBase
import Catlink.Rfb.D3desRoundTrip
import Mathlib.Tactic

/-! The `des` digest: which responses are accepted. -/

namespace Catlink.D3des

open Auth

/-! ### The digest -/

def hexDigit (n : Nat) : UInt8 := UInt8.ofNat (if n < 10 then 48 + n else 87 + n)

/-- `strtobytes(hexstr(v))` -/
def hexlify (v : Bytes) : Bytes := v.flatMap fun b => [hexDigit (b.toNat / 16), hexDigit (b.toNat % 16)]

/-- The digests, with the `des` one computed. -/
def desHashes (hmac : String → Bytes → Bytes → Option Bytes) : Hashes where
  hmac := hmac
  des password salt := (generateResponse password salt).map hexlify

theorem hexDigit_injective : ∀ a < 16, ∀ b < 16, hexDigit a = hexDigit b → a = b := by decide

theorem hexlify_injective {v w : Bytes} (same : hexlify v = hexlify w) : v = w := by
  induction v generalizing w with
  | nil =>
      cases w with
      | nil => rfl
      | cons c w => cases same
  | cons b v ih =>
      cases w with
      | nil => cases same
      | cons c w =>
          unfold hexlify at same ih
          rw [List.flatMap_cons, List.flatMap_cons] at same
          obtain ⟨digits, rest⟩ := List.append_inj same rfl
          rw [List.cons.injEq, List.cons.injEq] at digits
          have byte := b.toNat_lt
          have byte' := c.toNat_lt
          have high := hexDigit_injective _ (by omega) _ (by omega) digits.1
          have low := hexDigit_injective _ (by omega) _ (by omega) digits.2.1
          have number : b.toNat = c.toNat := by omega
          rw [UInt8.toNat_inj.mp number, ih rest]

theorem hexlify_ne_nil {v : Bytes} (some : v ≠ []) : hexlify v ≠ [] := by
  cases v with
  | nil => exact absurd rfl some
  | cons b v => exact List.cons_ne_nil _ _

theorem padTo_length (size : Nat) (data : Bytes) : (padTo size data).length = size := by
  unfold padTo
  rw [List.length_take, List.length_append, List.length_replicate]
  omega

/-! ### The response -/

/-- The key of a password. -/
def passwordKey (passwd : Bytes) : Bytes := (passwd ++ List.replicate 8 0).take 8

theorem passwordKey_length (passwd : Bytes) : (passwordKey passwd).length = 8 := by
  unfold passwordKey
  rw [List.length_take, List.length_append, List.length_replicate]
  omega

/-- The two blocks of a response. -/
def response (passwd challenge : Bytes) : Bytes :=
  crypt (roundKeys (passwordKey passwd) false) (challenge.take 8) ++
    crypt (roundKeys (passwordKey passwd) false) (challenge.drop 8)

theorem generateResponse_eq (passwd : Bytes) {challenge : Bytes} (sized : challenge.length = 16) :
    generateResponse passwd challenge = .ok (response passwd challenge) := by
  have first : (challenge.take 8).length = 8 := by rw [List.length_take, sized]; rfl
  have second : (challenge.drop 8).length = 8 := by rw [List.length_drop, sized]
  have keyed := deskey_eq (passwordKey_length passwd) false
  unfold generateResponse
  change deskey (passwordKey passwd) false >>= _ = _
  rw [keyed]
  change desfunc _ _ >>= _ = _
  rw [desfunc_eq first]
  change desfunc _ _ >>= _ = _
  rw [desfunc_eq second]
  rfl

theorem response_injective (passwd : Bytes) {challenge challenge' : Bytes} (sized : challenge.length = 16)
    (sized' : challenge'.length = 16) (same : response passwd challenge = response passwd challenge') :
    challenge = challenge' := by
  have halves {data : Bytes} (sized : data.length = 16) :
      (data.take 8).length = 8 ∧ (data.drop 8).length = 8 := by
    rw [List.length_take, List.length_drop, sized]
    exact ⟨rfl, rfl⟩
  unfold response at same
  obtain ⟨first, second⟩ := List.append_inj same ((crypt_length _ _).trans (crypt_length _ _).symm)
  have starts := crypt_injective (halves sized).1 (halves sized').1 _ first
  have ends := crypt_injective (halves sized).2 (halves sized').2 _ second
  rw [← List.take_append_drop 8 challenge, starts, ends, List.take_append_drop]

/-- The highest bit of the characters is not looked at. -/
theorem keyBits_eq {key key' : Bytes} (same : ∀ i, key.getD i 0 &&& 127 = key'.getD i 0 &&& 127) :
    keyBits key = keyBits key' := by
  have low (a b : UInt8) (bit : Nat) (small : bit < 128) (equal : a &&& 127 = b &&& 127) :
      a.toNat &&& bit = b.toNat &&& bit := by
    have values := congrArg UInt8.toNat equal
    rw [UInt8.toNat_and, UInt8.toNat_and] at values
    have masked : 127 &&& bit = bit := by
      rw [Nat.and_comm]
      exact (Nat.and_two_pow_sub_one_eq_mod bit 7).trans (Nat.mod_eq_of_lt small)
    rw [← masked, ← Nat.and_assoc, ← Nat.and_assoc]
    exact congrArg (· &&& bit) values
  have bits : ∀ l ∈ pc1, bytebit.getD (l &&& 7) 0 < 128 := by decide
  unfold keyBits
  refine List.map_congr_left fun l member => ?_
  rw [low _ _ _ (bits l member) (same (l >>> 3))]

theorem passwordKey_padTo (passwd : Bytes) : passwordKey (padTo 8 passwd) = padTo 8 passwd := by
  have sized := padTo_length 8 passwd
  unfold passwordKey
  rw [List.take_append_of_le_length (Nat.le_of_eq sized.symm), List.take_of_length_le (Nat.le_of_eq sized)]

theorem gendigest_des (hmac : String → Bytes → Bytes → Option Bytes) {password salt : Bytes}
    (known : password ≠ []) (salted : salt ≠ []) :
    gendigest (desHashes hmac) "des" password salt =
      .ok (hexlify (response (padTo 8 password) (padTo 16 salt))) := by
  unfold gendigest
  rw [if_neg (fun either => either.elim known salted), if_pos rfl]
  unfold desHashes
  dsimp only
  rw [generateResponse_eq _ (padTo_length 16 salt)]
  rfl

theorem getD_padTo (size : Nat) (data : Bytes) (i : Nat) :
    (padTo size data).getD i 0 = if i < size then data.getD i 0 else 0 := by
  unfold padTo
  rw [List.getD_eq_getElem?_getD, List.getElem?_take]
  split
  · rw [List.getElem?_append, List.getD_eq_getElem?_getD]
    split
    · rfl
    · rename_i beyond
      rw [List.getElem?_replicate, List.getElem?_eq_none (Nat.le_of_not_lt beyond)]
      split
      · rfl
      · rfl
  · rfl

/-- The response to one salt is accepted for those salts only that start with the same 16 bytes; and
no more than seven bits of the first eight characters of the password matter. -/
theorem des_response (hmac : String → Bytes → Bytes → Option Bytes) {password salt : Bytes}
    (known : password ≠ []) (salted : salt ≠ []) :
    ∃ response, gendigest (desHashes hmac) "des" password salt = .ok response ∧
      (∀ salt', salt' ≠ [] → verifyDigest (desHashes hmac) "des" password salt' response =
        .ok (decide (padTo 16 salt' = padTo 16 salt))) ∧
      ∀ password', password' ≠ [] →
        (∀ i < 8, password'.getD i 0 &&& 127 = password.getD i 0 &&& 127) →
        gendigest (desHashes hmac) "des" password' salt = .ok response := by
  have sized := padTo_length 16 salt
  refine ⟨_, gendigest_des hmac known salted, fun salt' salted' => ?_, fun password' known' same => ?_⟩
  · have filled : response (padTo 8 password) (padTo 16 salt) ≠ [] := by
      intro empty
      have length := congrArg List.length empty
      unfold response at length
      rw [List.length_append, crypt_length, crypt_length] at length
      cases length
    unfold verifyDigest
    rw [if_neg (by simp [known, salted', hexlify_ne_nil filled]), gendigest_des hmac known salted']
    change Except.ok (_ == _) = _
    congr 1
    rw [Bool.eq_iff_iff, beq_iff_eq, decide_eq_true_eq]
    constructor
    · intro equal
      exact response_injective _ (padTo_length 16 salt') sized (hexlify_injective equal)
    · intro equal
      rw [equal]
  · rw [gendigest_des hmac known' salted]
    have bits : keyBits (padTo 8 password') = keyBits (padTo 8 password) := by
      refine keyBits_eq fun i => ?_
      rw [getD_padTo, getD_padTo]
      split
      · rename_i inside
        exact same i inside
      · rfl
    have keys : roundKeys (padTo 8 password') false = roundKeys (padTo 8 password) false := by
      unfold roundKeys
      rw [bits]
    unfold response
    rw [passwordKey_padTo, passwordKey_padTo, keys]

/-- With a longer password that has the same first characters. -/
theorem des_response_sixteen : ∃ response,
    gendigest (desHashes fun _ _ _ => none) "des" counted (List.replicate 64 7) = .ok response ∧
      verifyDigest (desHashes fun _ _ _ => none) "des" counted (List.replicate 16 7) response = .ok true ∧
      verifyDigest (desHashes fun _ _ _ => none) "des" counted (List.replicate 64 8) response = .ok false ∧
      gendigest (desHashes fun _ _ _ => none) "des" (counted ++ [9]) (List.replicate 64 7) = .ok response := by
  have salted : List.replicate 64 (7 : UInt8) ≠ [] := List.cons_ne_nil _ _
  obtain ⟨response, made, verifies, alike⟩ := @des_response (fun _ _ _ => none) counted
    (List.replicate 64 7) (List.cons_ne_nil _ _) salted
  refine ⟨response, made, verifies _ (List.cons_ne_nil _ _), verifies _ (List.cons_ne_nil _ _), ?_⟩
  exact alike (counted ++ [9]) (List.cons_ne_nil _ _) (by decide)

end Catlink.D3des
