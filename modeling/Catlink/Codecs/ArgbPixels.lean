import Catlink.Codecs.Argb

/-! What the RGB conversions make of one pixel, and where they put it. -/

namespace Catlink.Codecs.Argb

open Accesses BigEndian Rows

/-! ### Bytes of words -/

/-- Byte `k` of a number. -/
def part (n k : Nat) : Nat := n / 2 ^ (8 * k) % 2 ^ 8

theorem part_or (m n k : Nat) : part (m ||| n) k = part m k ||| part n k := by
  rw [part, Nat.or_div_two_pow, Nat.or_mod_two_pow, part, part]

/-- What a mask of `w` bits leaves, `s` bits up. -/
theorem and_field (n w s : Nat) : n &&& ((2 ^ w - 1) * 2 ^ s) = n / 2 ^ s % 2 ^ w * 2 ^ s := by
  apply Nat.eq_of_testBit_eq
  intro i
  rw [Nat.testBit_and, Nat.testBit_mul_two_pow, Nat.testBit_mul_two_pow, Nat.testBit_two_pow_sub_one,
    Nat.testBit_mod_two_pow, Nat.testBit_div_two_pow]
  by_cases high : s ≤ i
  · have same : i - s + s = i := by omega
    simp [high, same, Bool.and_comm]
  · simp [high]

theorem mask_low (n : Nat) : n &&& 0xff = n % 256 := Nat.and_two_pow_sub_one_eq_mod n 8

/-- A byte in its place. -/
theorem part_field {x : Nat} (small : x < 256) (j k : Nat) :
    part (x * 2 ^ (8 * j)) k = if k = j then x else 0 := by
  rw [part]
  rcases Nat.lt_trichotomy k j with below | rfl | above
  · obtain ⟨more, rfl⟩ := Nat.exists_eq_add_of_lt below
    have power : x * 2 ^ (8 * (k + more + 1)) = x * 2 ^ (8 * more) * 2 ^ 8 * 2 ^ (8 * k) := by ring
    rw [power, Nat.mul_div_cancel _ (by positivity), Nat.mul_mod_left, if_neg (by omega)]
  · rw [Nat.mul_div_cancel _ (by positivity), Nat.mod_eq_of_lt (show x < 2 ^ 8 from small),
      if_pos rfl]
  · obtain ⟨more, rfl⟩ := Nat.exists_eq_add_of_lt above
    have less : x * 2 ^ (8 * j) < 2 ^ (8 * (j + more + 1)) := by
      calc x * 2 ^ (8 * j) < 2 ^ 8 * 2 ^ (8 * j) := Nat.mul_lt_mul_of_pos_right small (by positivity)
        _ ≤ 2 ^ 8 * 2 ^ (8 * j) * 2 ^ (8 * more) := Nat.le_mul_of_pos_right _ (by positivity)
        _ = 2 ^ (8 * (j + more + 1)) := by ring
    rw [Nat.div_eq_of_lt less, Nat.zero_mod, if_neg (by omega)]

theorem store_parts (n : Nat) :
    store false 4 n = [UInt8.ofNat (part n 0), UInt8.ofNat (part n 1), UInt8.ofNat (part n 2),
      UInt8.ofNat (part n 3)] := by
  have wraps : ∀ k, UInt8.ofNat (part n k) = UInt8.ofNat (n / 2 ^ (8 * k)) := by
    intro k
    apply UInt8.toNat_inj.mp
    rw [UInt8.toNat_ofNat', UInt8.toNat_ofNat', part, Nat.mod_mod]
  rw [wraps, wraps, wraps, wraps]
  simp [store, encodeBE]

/-- Four bytes that are put together. -/
theorem store_fields {x y z t : Nat} (hx : x < 256) (hy : y < 256) (hz : z < 256) (ht : t < 256) :
    store false 4 (((x ||| y * 256) ||| z * 65536) ||| t * 16777216) =
      [UInt8.ofNat x, UInt8.ofNat y, UInt8.ofNat z, UInt8.ofNat t] := by
  have first : ∀ k, part x k = if k = 0 then x else 0 := fun k => by
    have field := part_field hx 0 k
    rwa [Nat.mul_zero, pow_zero, Nat.mul_one] at field
  have second : ∀ k, part (y * 256) k = if k = 1 then y else 0 := part_field hy 1
  have third : ∀ k, part (z * 65536) k = if k = 2 then z else 0 := part_field hz 2
  have fourth : ∀ k, part (t * 16777216) k = if k = 3 then t else 0 := part_field ht 3
  rw [store_parts]
  simp [part_or, first, second, third, fourth]

theorem low_part (n k : Nat) : low (n >>> (8 * k)) = UInt8.ofNat (part n k) := by
  rw [low, Nat.shiftRight_eq_div_pow, show (0xFF : Nat) = 2 ^ 8 - 1 by rfl,
    Nat.and_two_pow_sub_one_eq_mod, part]

/-- A byte of a word is a byte of what it was loaded from. -/
theorem word_part (data : Bytes) {k : Nat} (inside : k < data.length) :
    UInt8.ofNat (part (word data) k) = data.getD k 0 := by
  have whole : (encodeBE data.length (word data)).reverse = data := store_load false data
  have there : k < (encodeBE data.length (word data)).reverse.length := by
    rw [List.length_reverse, encodeBE_length]
    exact inside
  have byte : data.getD k 0 = UInt8.ofNat (word data / 256 ^ k) := by
    rw [List.getD_eq_getElem _ _ inside]
    have same : data[k] = (encodeBE data.length (word data)).reverse[k] := by simp only [whole]
    rw [same, List.getElem_reverse, encodeBE_getElem]
    congr 2
    rw [encodeBE_length]
    congr 1
    omega
  rw [byte]
  apply UInt8.toNat_inj.mp
  have power : 2 ^ (8 * k) = 256 ^ k := by
    rw [pow_mul]
    norm_num
  rw [UInt8.toNat_ofNat', UInt8.toNat_ofNat', part, Nat.mod_mod, power]

theorem word_four (a b c d : UInt8) : word [a, b, c, d] =
    a.toNat + b.toNat * 256 + c.toNat * 65536 + d.toNat * 16777216 := by
  simp only [word, load, Bool.false_eq_true, if_false, List.reverse_cons, List.reverse_nil,
    List.nil_append, List.cons_append, decodeBE, List.length_cons, List.length_nil]
  omega

section Pixels

variable (a b c d : UInt8)

theorem low_zero : low (word [a, b, c, d]) = a := by
  have same := low_part (word [a, b, c, d]) 0
  rw [word_part _ (by simp)] at same
  exact same

theorem low_one : low (word [a, b, c, d] >>> 8) = b := by
  have same := low_part (word [a, b, c, d]) 1
  rw [word_part _ (by simp)] at same
  exact same

theorem low_two : low (word [a, b, c, d] >>> 16) = c := by
  have same := low_part (word [a, b, c, d]) 2
  rw [word_part _ (by simp)] at same
  exact same

theorem low_three : low (word [a, b, c, d] >>> 24) = d := by
  have same := low_part (word [a, b, c, d]) 3
  rw [word_part _ (by simp)] at same
  exact same

theorem bgrxToRgbPixel_eq : bgrxToRgbPixel [a, b, c, d] = [a, b, c] := by
  rw [bgrxToRgbPixel, low_zero, low_one, low_two]

theorem bgrxToLPixel_eq : bgrxToLPixel [a, b, c, d] = [luminance a b c] := by
  simp only [bgrxToLPixel, low_zero, low_one, low_two]

theorem bgraToLaPixel_eq : bgraToLaPixel [a, b, c, d] = [luminance a b c, d] := by
  simp only [bgraToLaPixel, low_zero, low_one, low_two, low_three]

theorem argbToRgbPixel_eq : argbToRgbPixel [a, b, c, d] = [b, c, d] := by
  rw [argbToRgbPixel, low_one, low_two, low_three]

theorem bgraToRgbPixel_eq : bgraToRgbPixel [a, b, c, d] = [c, b, a] := by
  rw [bgraToRgbPixel, low_zero, low_one, low_two]

theorem bgraToRgbxPixel_eq : bgraToRgbxPixel [a, b, c, d] = [c, b, a, 0xff] := rfl

theorem bgraToRgbaPixel_eq : bgraToRgbaPixel [a, b, c, d] = [c, b, a, d] := by
  have bounds := And.intro a.toNat_lt (And.intro b.toNat_lt (And.intro c.toNat_lt d.toNat_lt))
  have bytes := word_four a b c d
  rw [bgraToRgbaPixel]
  generalize word [a, b, c, d] = p at bytes
  have first : (p >>> 16) &&& 0xff = c.toNat := by
    rw [mask_low, Nat.shiftRight_eq_div_pow]
    omega
  have second : p &&& 0xff00 = b.toNat * 256 := by
    have field : p &&& 0xff00 = p / 256 % 256 * 256 := and_field p 8 8
    rw [field]
    omega
  have third : (p &&& 0xff) <<< 16 = a.toNat * 65536 := by
    rw [mask_low, Nat.shiftLeft_eq]
    omega
  have fourth : p &&& 0xff000000 = d.toNat * 16777216 := by
    have field : p &&& 0xff000000 = p / 16777216 % 256 * 16777216 := and_field p 8 24
    rw [field]
    omega
  rw [first, second, third, fourth, store_fields c.toNat_lt b.toNat_lt a.toNat_lt d.toNat_lt]
  simp

theorem argbToRgbaPixel_eq : argbToRgbaPixel [a, b, c, d] = [b, c, d, a] := by
  have bounds := And.intro a.toNat_lt (And.intro b.toNat_lt (And.intro c.toNat_lt d.toNat_lt))
  have bytes := word_four a b c d
  rw [argbToRgbaPixel]
  generalize word [a, b, c, d] = p at bytes
  have last : (p &&& 0xff) <<< 24 = a.toNat * 2 ^ (8 * 3) := by
    rw [mask_low, Nat.shiftLeft_eq]
    omega
  have zero : part (p >>> 8) 0 = b.toNat := by
    rw [part, Nat.shiftRight_eq_div_pow]
    omega
  have one : part (p >>> 8) 1 = c.toNat := by
    rw [part, Nat.shiftRight_eq_div_pow]
    omega
  have two : part (p >>> 8) 2 = d.toNat := by
    rw [part, Nat.shiftRight_eq_div_pow]
    omega
  have three : part (p >>> 8) 3 = 0 := by
    rw [part, Nat.shiftRight_eq_div_pow]
    omega
  rw [store_parts, part_or, part_or, part_or, part_or, zero, one, two, three, last,
    part_field a.toNat_lt, part_field a.toNat_lt, part_field a.toNat_lt, part_field a.toNat_lt]
  simp

theorem rgbToBgrxPixel_eq : rgbToBgrxPixel [a, b, c] = [a, b, c, 0] := by
  have whole : a.toNat + b.toNat <<< 8 + c.toNat <<< 16 = word [a, b, c, 0] := by
    rw [word_four, Nat.shiftLeft_eq, Nat.shiftLeft_eq, UInt8.toNat_zero]
    omega
  have stored := store_load false [a, b, c, 0]
  rw [rgbToBgrxPixel]
  simp only [List.getD_cons_zero, List.getD_cons_succ, List.length_cons, List.length_nil] at stored ⊢
  rw [whole]
  exact stored

end Pixels

/-! ### Channels of words -/

/-- The top 8 bits of the channels of r210. -/
def r210Red (v : Nat) : UInt8 := UInt8.ofNat (v / 2 ^ 22 % 256)

def r210Green (v : Nat) : UInt8 := UInt8.ofNat (v / 2 ^ 12 % 256)

def r210Blue (v : Nat) : UInt8 := UInt8.ofNat (v / 2 ^ 2 % 256)

/-- The channels of BGR565, as the top bits of a byte. -/
def bgr565Red (v : Nat) : UInt8 := UInt8.ofNat (v / 2 ^ 11 % 32 * 8)

def bgr565Green (v : Nat) : UInt8 := UInt8.ofNat (v / 2 ^ 5 % 64 * 4)

def bgr565Blue (v : Nat) : UInt8 := UInt8.ofNat (v % 32 * 8)

theorem r210ToRgbPixel_eq (data : Bytes) : r210ToRgbPixel data =
    [r210Red (word data), r210Green (word data), r210Blue (word data)] := by
  rw [r210ToRgbPixel, r210Red, r210Green, r210Blue]
  generalize word data = v
  have red : (v &&& 0x3ff00000) >>> 22 = v / 2 ^ 22 % 256 := by
    have field : v &&& 0x3ff00000 = v / 2 ^ 20 % 1024 * 2 ^ 20 := and_field v 10 20
    rw [field, Nat.shiftRight_eq_div_pow]
    omega
  have green : (v &&& 0x000ffc00) >>> 12 = v / 2 ^ 12 % 256 := by
    have field : v &&& 0x000ffc00 = v / 2 ^ 10 % 1024 * 2 ^ 10 := and_field v 10 10
    rw [field, Nat.shiftRight_eq_div_pow]
    omega
  have blue : (v &&& 0x000003ff) >>> 2 = v / 2 ^ 2 % 256 := by
    have field : v &&& 0x000003ff = v % 1024 := Nat.and_two_pow_sub_one_eq_mod v 10
    rw [field, Nat.shiftRight_eq_div_pow]
    omega
  rw [red, green, blue]

theorem r210ToRgbxPixel_eq (data : Bytes) : r210ToRgbxPixel data =
    [r210Red (word data), r210Green (word data), r210Blue (word data), 0xff] := by
  rw [r210ToRgbxPixel, r210Red, r210Green, r210Blue]
  generalize word data = v
  have red : (v &&& 0x3fc00000) >>> 22 = v / 2 ^ 22 % 256 := by
    have field : v &&& 0x3fc00000 = v / 2 ^ 22 % 256 * 2 ^ 22 := and_field v 8 22
    rw [field, Nat.shiftRight_eq_div_pow]
    omega
  have green : (v &&& 0x000ff000) >>> 4 = v / 2 ^ 12 % 256 * 256 := by
    have field : v &&& 0x000ff000 = v / 2 ^ 12 % 256 * 2 ^ 12 := and_field v 8 12
    rw [field, Nat.shiftRight_eq_div_pow]
    omega
  have blue : (v &&& 0x000003fc) <<< 14 = v / 2 ^ 2 % 256 * 65536 := by
    have field : v &&& 0x000003fc = v / 2 ^ 2 % 256 * 2 ^ 2 := and_field v 8 2
    rw [field, Nat.shiftLeft_eq]
    omega
  have stored := store_fields (Nat.mod_lt (v / 2 ^ 22) (by decide : 0 < 256))
    (Nat.mod_lt (v / 2 ^ 12) (by decide : 0 < 256)) (Nat.mod_lt (v / 2 ^ 2) (by decide : 0 < 256))
    (by decide : 255 < 256)
  rw [red, green, blue]
  exact stored

theorem bgr565ToRgbPixel_eq (data : Bytes) : bgr565ToRgbPixel data =
    [bgr565Red (word data), bgr565Green (word data), bgr565Blue (word data)] := by
  rw [bgr565ToRgbPixel, bgr565Red, bgr565Green, bgr565Blue]
  generalize word data = v
  have red : (v &&& 0xF800) >>> 8 = v / 2 ^ 11 % 32 * 8 := by
    have field : v &&& 0xF800 = v / 2 ^ 11 % 32 * 2 ^ 11 := and_field v 5 11
    rw [field, Nat.shiftRight_eq_div_pow]
    omega
  have green : (v &&& 0x07E0) >>> 3 = v / 2 ^ 5 % 64 * 4 := by
    have field : v &&& 0x07E0 = v / 2 ^ 5 % 64 * 2 ^ 5 := and_field v 6 5
    rw [field, Nat.shiftRight_eq_div_pow]
    omega
  have blue : (v &&& 0x001F) <<< 3 = v % 32 * 8 := by
    have field : v &&& 0x001F = v % 32 := Nat.and_two_pow_sub_one_eq_mod v 5
    rw [field, Nat.shiftLeft_eq]
  rw [red, green, blue]

theorem bgr565ToRgbxPixel_eq (data : Bytes) : bgr565ToRgbxPixel data =
    [bgr565Red (word data), bgr565Green (word data), bgr565Blue (word data), 0xff] := by
  rw [bgr565ToRgbxPixel, bgr565Red, bgr565Green, bgr565Blue]
  generalize word data = v
  have red : (v &&& 0xF800) >>> 8 = v / 2 ^ 11 % 32 * 8 := by
    have field : v &&& 0xF800 = v / 2 ^ 11 % 32 * 2 ^ 11 := and_field v 5 11
    rw [field, Nat.shiftRight_eq_div_pow]
    omega
  have green : (v &&& 0x07E0) <<< 5 = v / 2 ^ 5 % 64 * 4 * 256 := by
    have field : v &&& 0x07E0 = v / 2 ^ 5 % 64 * 2 ^ 5 := and_field v 6 5
    rw [field, Nat.shiftLeft_eq]
    omega
  have blue : (v &&& 0x001F) <<< 19 = v % 32 * 8 * 65536 := by
    have field : v &&& 0x001F = v % 32 := Nat.and_two_pow_sub_one_eq_mod v 5
    rw [field, Nat.shiftLeft_eq]
    omega
  have stored := store_fields (by omega : v / 2 ^ 11 % 32 * 8 < 256)
    (by omega : v / 2 ^ 5 % 64 * 4 < 256) (by omega : v % 32 * 8 < 256) (by decide : 255 < 256)
  rw [red, green, blue, Nat.or_comm]
  exact stored

/-! ### Where the pixels go -/

/-- Some bytes of a buffer, if all of them were written. -/
def MemBuf.readAt (buf : MemBuf) (pos n : Nat) : Option Bytes :=
  (List.range n).mapM fun k => buf.byte? (pos + k)

theorem readAt_of_bytes {buf : MemBuf} {pos n : Nat} {data : Bytes} (size : data.length = n)
    (bytes : ∀ k < n, buf.byte? (pos + k) = some (data.getD k 0)) : buf.readAt pos n = some data := by
  induction n generalizing data with
  | zero =>
      rw [List.length_eq_zero_iff.mp size]
      rfl
  | succ n ih =>
      obtain ⟨front, last, rfl⟩ : ∃ front last, data = front ++ [last] := by
        rcases List.eq_nil_or_concat data with rfl | ⟨front, last, same⟩
        · cases size
        · exact ⟨front, last, by rw [same, List.concat_eq_append]⟩
      have length : front.length = n := by simpa using size
      have before : ∀ k < n, buf.byte? (pos + k) = some (front.getD k 0) := by
        intro k inside
        rw [bytes k (Nat.lt_succ_of_lt inside), List.getD_append _ _ _ _ (by rw [length]; exact inside)]
      have after := bytes n (Nat.lt_succ_self n)
      rw [List.getD_append_right _ _ _ _ (by rw [length]), length, Nat.sub_self] at after
      have read := ih length before
      unfold MemBuf.readAt at read ⊢
      rw [List.range_succ, List.mapM_append, read]
      simp [after]

theorem stores_fill {value : Nat → UInt8} {reads : List Nat} {index count : Nat} {data : Bytes}
    (size : data.length = count) (same : ∀ k < count, data.getD k 0 = value (index + k)) :
    Fills value index count (stores reads index data) := by
  rw [stores, size]
  exact fills_map (fun _ _ => rfl) same

section Conversions

variable {inSize outSize : Nat} {pixel : Bytes → Bytes} {buf : Bytes} {place : Nat → Nat}
  {accesses : List (Access UInt8)}

/-- The byte at an index of the output, when pixel `q` is read at `place q`. -/
def pixelByte (place : Nat → Nat) (inSize outSize : Nat) (pixel : Bytes → Bytes) (buf : Bytes)
    (k : Nat) : UInt8 :=
  (pixel (slice buf (place (k / outSize)) inSize)).getD (k % outSize) 0

theorem pixelByte_add {q k : Nat} (inside : k < outSize) :
    pixelByte place inSize outSize pixel buf (outSize * q + k) =
      (pixel (slice buf (place q) inSize)).getD k 0 := by
  rw [pixelByte, Nat.mul_add_div (by omega), Nat.mul_add_mod, Nat.div_eq_of_lt inside,
    Nat.mod_eq_of_lt inside, Nat.add_zero]

/-- A pixel is stored where it belongs. -/
theorem pixel_fill (place : Nat → Nat) (reads : List Nat) (q : Nat)
    (size : (pixel (slice buf (place q) inSize)).length = outSize) :
    Fills (pixelByte place inSize outSize pixel buf) (outSize * q) outSize
      (stores reads (outSize * q) (pixel (slice buf (place q) inSize))) :=
  stores_fill size fun _ inside => (pixelByte_add inside).symm

theorem pixel_byte {n q k : Nat}
    (fills : Fills (pixelByte place inSize outSize pixel buf) 0 (outSize * n) accesses) (inside : q < n)
    (within : k < outSize) : MemBuf.byte? ⟨n * outSize, accesses⟩ (outSize * q + k) =
      some ((pixel (slice buf (place q) inSize)).getD k 0) := by
  have below : outSize * q + k < outSize * n := by
    have next : outSize * (q + 1) ≤ outSize * n := Nat.mul_le_mul_left _ inside
    rw [Nat.mul_succ] at next
    omega
  rw [MemBuf.byte?, if_pos (by rw [Nat.mul_comm n]; exact below), fills.written,
    if_pos ⟨Nat.zero_le _, by rw [Nat.zero_add]; exact below⟩, pixelByte_add within]

theorem pixel_read {n q : Nat}
    (fills : Fills (pixelByte place inSize outSize pixel buf) 0 (outSize * n) accesses) (inside : q < n)
    (size : (pixel (slice buf (place q) inSize)).length = outSize) :
    MemBuf.readAt ⟨n * outSize, accesses⟩ (outSize * q) outSize =
      some (pixel (slice buf (place q) inSize)) :=
  readAt_of_bytes size fun _ within => pixel_byte fills inside within

theorem cInt_small {n : Nat} (fits : n < 2 ^ 31) : cInt n = n := by
  rw [cInt, Nat.mod_eq_of_lt (by omega), if_pos fits]

theorem slice_full {pos n : Nat} (inside : pos + n ≤ buf.length) : (slice buf pos n).length = n := by
  rw [slice_length]
  omega

/-- A conversion of all the pixels of a buffer. -/
theorem eachPixel_ok (nothing : Option MemBuf) {n : Nat} (some : 0 < n) (positive : 0 < inSize)
    (whole : buf.length = n * inSize) (fits : buf.length < 2 ^ 31)
    (sized : ∀ data : Bytes, data.length = inSize → (pixel data).length = outSize) :
    ∃ accesses, eachPixel inSize outSize nothing pixel buf = .ok (.some ⟨n * outSize, accesses⟩) ∧
      Fills (pixelByte (inSize * ·) inSize outSize pixel buf) 0 (outSize * n) accesses ∧
        ∀ a ∈ accesses, ∃ i < n, a.reads = (List.range inSize).map (inSize * i + ·) ∧
          outSize * i ≤ a.index ∧ a.index < outSize * (i + 1) := by
  have length := cInt_small fits
  have filled : 0 < buf.length := by
    rw [whole]
    exact Nat.mul_pos some positive
  have count : (cInt buf.length).toNat / inSize = n := by
    rw [length, Int.toNat_natCast, whole, Nat.mul_div_cancel _ positive]
  have exactly : buf.length % inSize = 0 := by rw [whole, Nat.mul_mod_left]
  have exactly' : cInt buf.length % inSize = 0 := by
    rw [length]
    exact_mod_cast exactly
  have read : ∀ i < n, (pixel (slice buf (inSize * i) inSize)).length = outSize := by
    intro i inside
    apply sized
    apply slice_full
    have next : (i + 1) * inSize ≤ n * inSize := Nat.mul_le_mul_right _ inside
    rw [whole, Nat.mul_comm inSize i]
    rwa [Nat.succ_mul] at next
  refine ⟨(List.range n).flatMap (pixelAccesses inSize outSize pixel buf), ?_, ?_, ?_⟩
  · rw [eachPixel, if_neg (not_not.mpr exactly), if_neg (by omega),
      if_neg (not_not.mpr exactly')]
    simp only [count]
  · have each : ∀ i < n, Fills (pixelByte (inSize * ·) inSize outSize pixel buf) (0 + outSize * i)
        outSize (pixelAccesses inSize outSize pixel buf i) := by
      intro i inside
      rw [Nat.zero_add]
      exact pixel_fill (inSize * ·) _ i (read i inside)
    exact fills_flatMap each
  · intro a member
    obtain ⟨i, turn, member⟩ := List.mem_flatMap.mp member
    obtain ⟨k, within, rfl⟩ := List.mem_map.mp member
    have inside := List.mem_range.mp turn
    have below := List.mem_range.mp within
    rw [read i inside] at below
    refine ⟨i, inside, rfl, Nat.le_add_right _ _, ?_⟩
    rw [Nat.mul_succ]
    exact Nat.add_lt_add_left below _

/-- The rows of r210 are packed. -/
theorem r210Rows_ok {w h srcStride : Nat} (stride : w * 4 ≤ srcStride)
    (whole : h * srcStride ≤ buf.length)
    (sized : ∀ data : Bytes, (pixel data).length = outSize) :
    ∃ accesses, r210Rows outSize pixel buf w h srcStride (w * outSize) =
        .ok (some ⟨h * w * outSize, accesses⟩) ∧
      Fills (pixelByte (fun q => q / w * srcStride + 4 * (q % w)) 4 outSize pixel buf) 0
        (outSize * (h * w)) accesses := by
  refine ⟨(List.range h).flatMap fun y => (List.range w).flatMap fun x =>
    stores ((List.range 4).map (y * srcStride + 4 * x + ·)) (y * (w * outSize) + outSize * x)
      (pixel (slice buf (y * srcStride + 4 * x) 4)), ?_, ?_⟩
  · rw [r210Rows, if_neg (Nat.not_lt.mpr stride), if_neg (Nat.lt_irrefl _), if_neg (Nat.not_lt.mpr whole),
      Nat.mul_assoc]
  · rw [show outSize * (h * w) = outSize * w * h by ring]
    apply fills_flatMap
    intro y _
    apply fills_flatMap
    intro x inside
    have row : (y * w + x) / w = y := by
      rw [Nat.mul_comm, Nat.mul_add_div (by omega), Nat.div_eq_of_lt inside, Nat.add_zero]
    have column : (y * w + x) % w = x := by
      rw [Nat.mul_comm, Nat.mul_add_mod, Nat.mod_eq_of_lt inside]
    have index : y * (w * outSize) + outSize * x = outSize * (y * w + x) := by ring
    have fill := pixel_fill (fun q => q / w * srcStride + 4 * (q % w))
      ((List.range 4).map (y * srcStride + 4 * x + ·)) (y * w + x)
      (sized (slice buf ((y * w + x) / w * srcStride + 4 * ((y * w + x) % w)) 4))
    rw [row, column] at fill
    rw [show 0 + outSize * w * y + outSize * x = outSize * (y * w + x) by ring, index]
    exact fill

end Conversions

end Catlink.Codecs.Argb
