import Catlink.Codecs.ArgbPixels

/-! When the greyscale conversions agree. -/

namespace Catlink.Codecs.Argb

open Accesses Rows

/-! ### Packed pixels -/

structure Pixel where
  r : UInt8
  g : UInt8
  b : UInt8
  a : UInt8

def Pixel.grey (p : Pixel) : UInt8 := luminance p.r p.g p.b

def rgbBytes (pixels : List Pixel) : Bytes := pixels.flatMap fun p => [p.r, p.g, p.b]

def bgrBytes (pixels : List Pixel) : Bytes := pixels.flatMap fun p => [p.b, p.g, p.r]

/-- BGRA, or BGRX with any fourth bytes. -/
def bgraBytes (pixels : List Pixel) : Bytes := pixels.flatMap fun p => [p.b, p.g, p.r, p.a]

/-- The luminance of a pixel is written once, from the bytes of the pixel. -/
structure GreyAt (inSize outSize : Nat) (buf : MemBuf) (i : Nat) (p : Pixel) : Prop where
  once : (buf.accesses.map Access.index).count (outSize * i) = 1
  grey : buf.byte? (outSize * i) = some p.grey
  reads : ∀ a ∈ buf.accesses, a.index = outSize * i →
    ∀ k ∈ a.reads, inSize * i ≤ k ∧ k < inSize * (i + 1)

/-- Every `outSize` bytes of the result begin with the luminance of a pixel. -/
def Greyscale (inSize outSize : Nat) (pixels : List Pixel) (converted : Converted) : Prop :=
  ∃ buf, converted = .ok (some buf) ∧ buf.size = pixels.length * outSize ∧
    ∀ (i : Nat) (p : Pixel), pixels[i]? = some p → GreyAt inSize outSize buf i p

def GreysAgree (pixels : List Pixel) : Prop :=
  Greyscale 3 1 pixels (rgbToL (rgbBytes pixels)) ∧ Greyscale 3 1 pixels (bgrToL (bgrBytes pixels)) ∧
    Greyscale 4 1 pixels (bgrxToL (bgraBytes pixels)) ∧
      Greyscale 4 2 pixels (bgraToLa (bgraBytes pixels))

theorem bgraBytes_length (pixels : List Pixel) : (bgraBytes pixels).length = pixels.length * 4 := by
  simp [bgraBytes, List.length_flatMap]

theorem bgraBytes_slice {pixels : List Pixel} {i : Nat} {p : Pixel} (there : pixels[i]? = some p) :
    slice (bgraBytes pixels) (4 * i) 4 = [p.b, p.g, p.r, p.a] := by
  induction pixels generalizing i with
  | nil => cases there
  | cons first pixels ih =>
      cases i with
      | zero =>
          cases there
          rfl
      | succ i =>
          have rest := ih there
          rw [Nat.mul_succ]
          exact rest

/-! ### The words of BGRX and BGRA -/

/-- Red and blue are taken for each other. -/
theorem words_grey_iff {outSize : Nat} {nothing : Option MemBuf} {pixel : Bytes → Bytes}
    {pixels : List Pixel} (filled : pixels ≠ []) (fits : pixels.length * 4 < 2 ^ 31)
    (sized : ∀ data : Bytes, data.length = 4 → (pixel data).length = outSize + 1)
    (swapped : ∀ a b c d : UInt8, (pixel [a, b, c, d]).getD 0 0 = luminance a b c) :
    Greyscale 4 (outSize + 1) pixels (eachPixel 4 (outSize + 1) nothing pixel (bgraBytes pixels)) ↔
      ∀ p ∈ pixels, luminance p.b p.g p.r = luminance p.r p.g p.b := by
  have length := bgraBytes_length pixels
  obtain ⟨accesses, made, fills, reads⟩ := eachPixel_ok nothing
    (List.length_pos_iff.mpr filled) (by decide) length (by rwa [length]) sized
  have byte : ∀ (i : Nat) (p : Pixel), pixels[i]? = some p →
      MemBuf.byte? ⟨pixels.length * (outSize + 1), accesses⟩ ((outSize + 1) * i) =
        some (luminance p.b p.g p.r) := by
    intro i p there
    obtain ⟨inside, -⟩ := List.getElem?_eq_some_iff.mp there
    have first := pixel_byte fills inside (Nat.succ_pos outSize)
    rwa [bgraBytes_slice there, swapped, Nat.add_zero] at first
  rw [made]
  constructor
  · rintro ⟨buf, same, -, grey⟩ p member
    obtain ⟨i, there⟩ := List.mem_iff_getElem?.mp member
    cases same
    have value := (grey i p there).grey
    rw [byte i p there] at value
    exact Option.some.inj value
  · intro same
    refine ⟨_, rfl, rfl, ?_⟩
    intro i p there
    obtain ⟨inside, -⟩ := List.getElem?_eq_some_iff.mp there
    refine ⟨?_, ?_, ?_⟩
    · have below : (outSize + 1) * i < 0 + (outSize + 1) * pixels.length := by
        rw [Nat.zero_add]
        exact Nat.mul_lt_mul_of_pos_left inside (Nat.succ_pos outSize)
      rw [fills.once, if_pos ⟨Nat.zero_le _, below⟩]
    · rw [byte i p there, same p (List.mem_of_getElem? there)]
      rfl
    · intro a member index k read
      obtain ⟨j, -, from', least, most⟩ := reads a member
      rw [index] at least most
      have here : j = i := by
        apply Nat.le_antisymm
        · exact Nat.le_of_mul_le_mul_left least (Nat.succ_pos outSize)
        · exact Nat.lt_succ_iff.mp (Nat.lt_of_mul_lt_mul_left most)
      subst here
      rw [from'] at read
      obtain ⟨n, within, rfl⟩ := List.mem_map.mp read
      have four := List.mem_range.mp within
      omega

theorem bgrxToL_iff {pixels : List Pixel} (filled : pixels ≠ []) (fits : pixels.length * 4 < 2 ^ 31) :
    Greyscale 4 1 pixels (bgrxToL (bgraBytes pixels)) ↔
      ∀ p ∈ pixels, luminance p.b p.g p.r = luminance p.r p.g p.b := by
  apply words_grey_iff filled fits
  · exact fun _ _ => rfl
  · intro a b c d
    rw [bgrxToLPixel_eq]
    rfl

theorem bgraToLa_iff {pixels : List Pixel} (filled : pixels ≠ []) (fits : pixels.length * 4 < 2 ^ 31) :
    Greyscale 4 2 pixels (bgraToLa (bgraBytes pixels)) ↔
      ∀ p ∈ pixels, luminance p.b p.g p.r = luminance p.r p.g p.b := by
  apply words_grey_iff filled fits
  · exact fun _ _ => rfl
  · intro a b c d
    rw [bgraToLaPixel_eq]
    rfl

/-! ### The bytes of RGB and BGR -/

theorem lumaLoop_index {rgb : Bytes} {rindex gindex bindex mi fuel i : Nat} {a : Access UInt8}
    (member : a ∈ lumaLoop rgb rindex gindex bindex mi fuel i) : ∃ k, a.index = i + 3 * k := by
  induction fuel generalizing i with
  | zero => cases member
  | succ fuel ih =>
      rw [lumaLoop] at member
      split at member
      · rcases List.mem_cons.mp member with rfl | later
        · exact ⟨0, rfl⟩
        · obtain ⟨k, index⟩ := ih later
          exact ⟨k + 1, by omega⟩
      · cases member

/-- The second byte is never written. -/
theorem rgbdataToL_second (rindex gindex bindex : Nat) (rgb : Bytes) {buf : MemBuf}
    (made : rgbdataToL rindex gindex bindex rgb = .ok (some buf)) :
    (buf.accesses.map Access.index).count 1 = 0 := by
  unfold rgbdataToL at made
  split at made
  · cases made
  split at made
  · cases made
  split at made
  · cases made
  cases made
  apply List.count_eq_zero.mpr
  intro member
  obtain ⟨a, there, index⟩ := List.mem_map.mp member
  obtain ⟨k, multiple⟩ := lumaLoop_index there
  omega

theorem single_of_grey {rindex gindex bindex : Nat} {rgb : Bytes} {pixels : List Pixel}
    (filled : pixels ≠ []) (grey : Greyscale 3 1 pixels (rgbdataToL rindex gindex bindex rgb)) :
    ∃ p, pixels = [p] := by
  obtain ⟨buf, made, -, each⟩ := grey
  match pixels with
  | [] => exact absurd rfl filled
  | [p] => exact ⟨p, rfl⟩
  | first :: second :: rest =>
      have once := (each 1 second rfl).once
      rw [Nat.one_mul, rgbdataToL_second rindex gindex bindex rgb made] at once
      cases once

/-- One pixel is converted. -/
theorem single_grey {converted : Converted} {p : Pixel} (reads : List Nat)
    (made : converted = .ok (some ⟨1, [⟨reads, 0, p.grey⟩]⟩)) (within : ∀ k ∈ reads, k < 3) :
    Greyscale 3 1 [p] converted := by
  refine ⟨_, made, rfl, ?_⟩
  intro i other there
  cases i with
  | zero =>
      cases there
      refine ⟨rfl, rfl, ?_⟩
      intro a member _ k read
      obtain rfl := List.mem_singleton.mp member
      exact ⟨Nat.zero_le _, within k read⟩
  | succ i => cases there

theorem greys_agree_iff (pixels : List Pixel) (filled : pixels ≠ []) :
    GreysAgree pixels ↔
      pixels.length = 1 ∧ ∀ p ∈ pixels, luminance p.b p.g p.r = luminance p.r p.g p.b := by
  constructor
  · rintro ⟨rgb, -, bgrx, -⟩
    obtain ⟨p, rfl⟩ := single_of_grey filled rgb
    exact ⟨rfl, (bgrxToL_iff filled (by simp)).mp bgrx⟩
  · rintro ⟨one, same⟩
    obtain ⟨p, rfl⟩ := List.length_eq_one_iff.mp one
    have fits : [p].length * 4 < 2 ^ 31 := by simp
    refine ⟨?_, ?_, (bgrxToL_iff filled fits).mpr same, (bgraToLa_iff filled fits).mpr same⟩
    · apply single_grey [0, 1, 2] _ (by decide)
      simp [rgbToL, rgbdataToL, rgbBytes, cInt, lumaLoop, Pixel.grey]
    · apply single_grey [2, 1, 0] _ (by decide)
      simp [bgrToL, rgbdataToL, bgrBytes, cInt, lumaLoop, Pixel.grey]

theorem greys_agree_white : GreysAgree [⟨255, 255, 255, 0⟩] ↔
    1 = 1 ∧ ∀ p ∈ ([⟨255, 255, 255, 0⟩] : List Pixel),
      luminance p.b p.g p.r = luminance p.r p.g p.b :=
  greys_agree_iff [⟨255, 255, 255, 0⟩] (List.cons_ne_nil _ _)

/-- Of two pixels the second is never written. -/
theorem not_greys_agree : ¬ ∀ pixels : List Pixel, pixels ≠ [] → GreysAgree pixels := by
  intro all
  have agree := all [⟨1, 2, 3, 4⟩, ⟨5, 6, 7, 8⟩] (List.cons_ne_nil _ _)
  obtain ⟨p, single⟩ := single_of_grey (List.cons_ne_nil _ _) agree.1
  cases single

end Catlink.Codecs.Argb
