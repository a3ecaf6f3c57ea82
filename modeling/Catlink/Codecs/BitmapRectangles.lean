import Catlink.Codecs.BitRow

/-! When the rectangles of a bitmap are its black pixels. -/

namespace Catlink.Codecs.Bitmap

/-! ### The condition of a row -/

/-- When a run starts in a byte whose last column is white, the columns of all the bytes after it are
black where that byte's runs start. -/
def Settled (byte : Nat → Nat) (w : Nat) : Prop :=
  ∀ s < w, startsRun byte s = true → black byte (s / 8 * 8 + 7) = false →
    ∀ c < w, s / 8 * 8 + 8 ≤ c → black byte c = startsRun byte (s / 8 * 8 + c % 8)

instance (byte : Nat → Nat) (w : Nat) : Decidable (Settled byte w) :=
  inferInstanceAs (Decidable (∀ s < w, startsRun byte s = true → black byte (s / 8 * 8 + 7) = false →
    ∀ c < w, s / 8 * 8 + 8 ≤ c → black byte c = startsRun byte (s / 8 * 8 + c % 8)))

section Rows

variable {byte byte' : Nat → Nat} {w y k : Nat} {rectangles : List Rectangle}

theorem settled_of_free (free : ∀ j, 8 * j + 8 < w → ¬ Stale byte j) : Settled byte w := by
  intro s inside start white c below after
  have stale : Stale byte (s / 8) := ⟨⟨s, rfl, start⟩, by rw [Nat.mul_comm, white]⟩
  exact absurd stale (free _ (by omega))

/-- Once a stale byte's starts are the columns after it, later stale bytes have the same starts. -/
theorem settled_of_stale (stale : Stale byte k) (first : ∀ j < k, ¬ Stale byte j)
    (same : ∀ c < w, 8 * k + 8 ≤ c → black byte c = startsRun byte (8 * k + c % 8)) : Settled byte w := by
  intro s inside start white c below after
  have here : Stale byte (s / 8) := ⟨⟨s, rfl, start⟩, by rw [Nat.mul_comm, white]⟩
  rcases Nat.lt_trichotomy (s / 8) k with before | rfl | later
  · exact absurd here (first _ before)
  · rw [same c below (by omega), Nat.mul_comm]
  · rw [same c below (by omega)]
    have place : (s / 8 * 8 + c % 8) % 8 = c % 8 := by omega
    have column := same (s / 8 * 8 + c % 8) (by omega) (by omega)
    rw [place] at column
    cases begins : startsRun byte (8 * k + c % 8) with
    | false => exact (startsRun_of_white (column.trans begins)).symm
    | true =>
        refine (startsRun_iff.mpr ⟨column.trans begins, fun positive => ?_⟩).symm
        by_cases boundary : s / 8 * 8 + c % 8 = 8 * k + 8
        · have last : s / 8 * 8 + c % 8 - 1 = 8 * k + 7 := by omega
          rw [last, stale.2]
        · rw [same _ (by omega) (by omega)]
          by_cases zero : c % 8 = 0
          · have last : 8 * k + (s / 8 * 8 + c % 8 - 1) % 8 = 8 * k + 7 := by omega
            rw [last]
            exact startsRun_of_white stale.2
          · have before : 8 * k + (s / 8 * 8 + c % 8 - 1) % 8 + 1 = 8 * k + c % 8 := by omega
            by_contra both
            rw [Bool.not_eq_false] at both
            have next := startsRun_succ both
            rw [before, begins] at next
            exact Bool.false_ne_true next.symm

/-- A row's rectangles are its black columns exactly when it is settled. -/
theorem Row.exact_iff (row : Row byte w y rectangles) :
    (∀ c < w, (∃ r ∈ rectangles, r.x ≤ c ∧ c < r.x + r.w) ↔ black byte c = true) ↔ Settled byte w := by
  cases row with
  | exact free reported =>
      exact ⟨fun _ => settled_of_free free, fun _ c inside => reported.shows c inside inside⟩
  | stale k stale first inside reported =>
      have shows : ∀ c < w, (∃ r ∈ rectangles, r.x ≤ c ∧ c < r.x + r.w) ↔ repeated byte k c = true :=
        fun c inside => reported.shows c inside inside
      constructor
      · intro exact
        refine settled_of_stale stale first fun c below after => ?_
        have same : black byte c = true ↔ repeated byte k c = true :=
          (exact c below).symm.trans (shows c below)
        rw [repeated, if_neg (by omega)] at same
        exact Bool.eq_iff_iff.mpr same
      · intro settled c below
        rw [shows c below, repeated]
        split
        · rfl
        · obtain ⟨⟨s, place, start⟩, white⟩ := stale
          have byteStart : s / 8 * 8 = 8 * k := by omega
          rw [settled s (by omega) start (by rw [byteStart, white]) c below (by omega), byteStart]

theorem Row.line (row : Row byte w y rectangles) : ∀ r ∈ rectangles, r.y = y ∧ r.h = 1 ∧ 0 < r.w ∧ r.x + r.w ≤ w := by
  cases row with
  | exact free reported => exact reported.line
  | stale k stale first inside reported => exact reported.line

theorem Row.apart (row : Row byte w y rectangles) :
    rectangles.Pairwise fun p q => p.x + p.w ≤ q.x := by
  cases row with
  | exact free reported => exact reported.apart
  | stale k stale first inside reported => exact reported.apart

theorem black_congr {c : Nat} (same : ∀ j ≤ c / 8, byte j = byte' j) : black byte c = black byte' c := by
  rw [black, black, same _ le_rfl]

theorem startsRun_congr {c : Nat} (same : ∀ j ≤ c / 8, byte j = byte' j) :
    startsRun byte c = startsRun byte' c := by
  rw [startsRun, startsRun, black_congr same, black_congr fun j below => same j (by omega)]

theorem settled_congr (same : ∀ j, 8 * j < w → byte j = byte' j) : Settled byte w ↔ Settled byte' w := by
  unfold Settled
  refine forall₂_congr fun s inside => ?_
  rw [startsRun_congr fun j below => same j (by omega),
    black_congr fun j below => same j (by omega)]
  refine forall₂_congr fun _ _ => forall₂_congr fun c below => ?_
  rw [black_congr fun j before => same j (by omega),
    startsRun_congr fun j before => same j (by omega)]

end Rows

/-! ### The bitmap -/

/-- The bytes of line `y`, each line taking up the bytes its columns need. -/
def lineByte (bitdata : Bytes) (w y j : Nat) : Nat := (bitdata.getD (y * ((w + 7) / 8) + j) 0).toNat

def Rectangle.Covers (r : Rectangle) (x y : Nat) : Prop :=
  r.x ≤ x ∧ x < r.x + r.w ∧ r.y ≤ y ∧ y < r.y + r.h

/-- What holds of every bitmap: the rectangles and the bytes that are read. -/
structure Lines (w h : Nat) (rectangles : List Rectangle) (reads : List Nat) : Prop where
  reads : ∀ i ∈ reads, i < h * ((w + 7) / 8)
  line : ∀ r ∈ rectangles, r.h = 1 ∧ 0 < r.w ∧ r.x + r.w ≤ w ∧ r.y < h
  apart : rectangles.Pairwise fun p q => ∀ x y, ¬ (p.Covers x y ∧ q.Covers x y)

/-- The rectangles are the black pixels. -/
def Exact (bitdata : Bytes) (w h : Nat) : Prop :=
  ∃ rectangles reads, bitdataToRectangles bitdata w h = some (rectangles, reads) ∧
    Lines w h rectangles reads ∧ ∀ x < w, ∀ y < h,
      (∃ r ∈ rectangles, r.Covers x y) ↔ black (lineByte bitdata w y) x = true

section Bitmaps

variable {bitdata : Bytes} {w h y : Nat} {rectangles : List Rectangle} {reads : List Nat}

theorem round8up_bytes (fits : w + 7 < 2 ^ 32) : round8up w / 8 = (w + 7) / 8 := by
  rw [round8up_eq fits, Nat.mul_div_cancel _ (by decide)]

/-- No index wraps in a bitmap of at most `2 ^ 32` bytes. -/
theorem index_small {j : Nat} (room : h * ((w + 7) / 8) ≤ 2 ^ 32) (below : y < h) (inside : 8 * j < w) :
    y * ((w + 7) / 8) + j < h * ((w + 7) / 8) ∧
      (y * ((w + 7) / 8) + j) % 2 ^ 32 = y * ((w + 7) / 8) + j := by
  have line : (y + 1) * ((w + 7) / 8) ≤ h * ((w + 7) / 8) := Nat.mul_le_mul_right _ below
  rw [Nat.add_mul, Nat.one_mul] at line
  exact ⟨by omega, Nat.mod_eq_of_lt (by omega)⟩

/-- What is known after `h` lines. -/
structure Scanning (bitdata : Bytes) (w h : Nat) (rectangles : List Rectangle) (reads : List Nat) :
    Prop extends Lines w h rectangles reads where
  rows : ∀ y < h, ∃ own, Row (rowByte bitdata ((w + 7) / 8) y) w y own ∧
    ∀ x, (∃ r ∈ rectangles, r.Covers x y) ↔ ∃ r ∈ own, r.x ≤ x ∧ x < r.x + r.w

theorem Scanning.none (bitdata : Bytes) (w : Nat) : Scanning bitdata w 0 [] [] :=
  ⟨⟨nofun, nofun, .nil⟩, fun y below => absurd below (Nat.not_lt_zero y)⟩

/-- A rectangle one line high covers columns of its line only. -/
theorem covers_line {r : Rectangle} {x : Nat} (high : r.h = 1) : r.Covers x y ↔ r.y = y ∧ r.x ≤ x ∧ x < r.x + r.w := by
  rw [Rectangle.Covers, high]
  omega

theorem Scanning.row {own : List Rectangle} {more : List Nat}
    (scanning : Scanning bitdata w h rectangles reads)
    (row : Row (rowByte bitdata ((w + 7) / 8) h) w h own)
    (inside : ∀ i ∈ more, i < (h + 1) * ((w + 7) / 8)) :
    Scanning bitdata w (h + 1) (rectangles ++ own) (reads ++ more) := by
  have before : h * ((w + 7) / 8) ≤ (h + 1) * ((w + 7) / 8) := Nat.mul_le_mul_right _ h.le_succ
  refine ⟨⟨fun i member => ?_, fun r member => ?_, ?_⟩, fun y below => ?_⟩
  · rcases List.mem_append.mp member with old | new
    · exact (scanning.reads i old).trans_le before
    · exact inside i new
  · rcases List.mem_append.mp member with old | new
    · obtain ⟨high, wide, within, line⟩ := scanning.line r old
      exact ⟨high, wide, within, by omega⟩
    · obtain ⟨line, high, wide, within⟩ := row.line r new
      exact ⟨high, wide, within, by omega⟩
  · refine List.pairwise_append.mpr ⟨scanning.apart, ?_, fun p old q new x y both => ?_⟩
    · refine row.apart.imp fun {p q} apart x y both => ?_
      obtain ⟨⟨-, right, -⟩, left, -⟩ := both
      omega
    · obtain ⟨high, -, -, above⟩ := scanning.line p old
      obtain ⟨line, highToo, -⟩ := row.line q new
      have first := (covers_line high).mp both.1
      have second := (covers_line highToo).mp both.2
      omega
  · rcases Nat.lt_succ_iff_lt_or_eq.mp below with earlier | rfl
    · obtain ⟨lineOwn, is, shows⟩ := scanning.rows y earlier
      refine ⟨lineOwn, is, fun x => (Iff.trans ?_ (shows x))⟩
      constructor
      · rintro ⟨r, member, covers⟩
        rcases List.mem_append.mp member with old | new
        · exact ⟨r, old, covers⟩
        · obtain ⟨line, high, -⟩ := row.line r new
          have place := (covers_line high).mp covers
          omega
      · rintro ⟨r, member, covers⟩
        exact ⟨r, List.mem_append_left _ member, covers⟩
    · refine ⟨own, row, fun x => ⟨?_, ?_⟩⟩
      · rintro ⟨r, member, covers⟩
        rcases List.mem_append.mp member with old | new
        · obtain ⟨high, -, -, above⟩ := scanning.line r old
          have place := (covers_line high).mp covers
          omega
        · obtain ⟨line, high, -⟩ := row.line r new
          exact ⟨r, new, ((covers_line high).mp covers).2⟩
      · rintro ⟨r, member, low, far⟩
        obtain ⟨line, high, -⟩ := row.line r member
        exact ⟨r, List.mem_append_right _ member, (covers_line high).mpr ⟨line, low, far⟩⟩

/-- The scan of a bitmap returns, and what it returns is made of its rows. -/
theorem bitdataToRectangles_scanning (bitdata : Bytes) (fits : w + 7 < 2 ^ 32) (room : h * ((w + 7) / 8) ≤ 2 ^ 32) :
    ∃ rectangles reads, bitdataToRectangles bitdata w h = some (rectangles, reads) ∧
      Scanning bitdata w h rectangles reads := by
  rw [bitdataToRectangles, round8up_bytes fits]
  induction h with
  | zero => exact ⟨[], [], rfl, Scanning.none bitdata w⟩
  | succ h ih =>
      have fewer : h * ((w + 7) / 8) ≤ 2 ^ 32 :=
        (Nat.mul_le_mul_right _ h.le_succ).trans room
      obtain ⟨rectangles, reads, scanned, scanning⟩ := ih fewer
      obtain ⟨s, ran, inside, row⟩ := scanRow_row (rowByte bitdata ((w + 7) / 8) h) (y := h)
        (fun j => UInt8.toNat_lt _) fits
      refine ⟨rectangles ++ s.rectangles,
        reads ++ s.reads.map fun j => (h * ((w + 7) / 8) + j) % 2 ^ 32, ?_,
        scanning.row row fun i member => ?_⟩
      · rw [List.range_succ, List.foldlM_append, scanned]
        simp only [Option.bind_eq_bind, Option.bind_some, List.foldlM_cons, List.foldlM_nil, ran]
        rfl
      · obtain ⟨j, read, rfl⟩ := List.mem_map.mp member
        obtain ⟨small, same⟩ := index_small room h.lt_succ_self (inside j read)
        rw [same]
        exact small

/-- Whatever the bitmap, the scan ends, reads bytes of the bitmap only and reports lines that are apart. -/
theorem bitdataToRectangles_lines (bitdata : Bytes) (fits : w + 7 < 2 ^ 32) (room : h * ((w + 7) / 8) ≤ 2 ^ 32) :
    ∃ rectangles reads, bitdataToRectangles bitdata w h = some (rectangles, reads) ∧
      Lines w h rectangles reads := by
  obtain ⟨rectangles, reads, scanned, scanning⟩ := bitdataToRectangles_scanning bitdata fits room
  exact ⟨rectangles, reads, scanned, scanning.toLines⟩

theorem Scanning.settled (room : h * ((w + 7) / 8) ≤ 2 ^ 32)
    (scanning : Scanning bitdata w h rectangles reads) (below : y < h) :
    (∀ x < w, (∃ r ∈ rectangles, r.Covers x y) ↔ black (lineByte bitdata w y) x = true) ↔
      Settled (lineByte bitdata w y) w := by
  have same : ∀ j, 8 * j < w → rowByte bitdata ((w + 7) / 8) y j = lineByte bitdata w y j := by
    intro j inside
    rw [rowByte, (index_small room below inside).2, lineByte]
  obtain ⟨own, row, shows⟩ := scanning.rows y below
  rw [← settled_congr same, ← row.exact_iff]
  refine forall₂_congr fun x inside => ?_
  rw [shows x, black_congr fun j before => same j (by omega)]

end Bitmaps

/-- The length of the buffer is an `int`, and `round8up` of the width does not wrap. -/
theorem bit_to_rectangles_exact_iff (bitdata : Bytes) (w h : Nat)
    (enough : h * ((w + 7) / 8) ≤ bitdata.length) (length : bitdata.length < 2 ^ 31)
    (fits : w + 7 < 2 ^ 32) : Exact bitdata w h ↔ ∀ y < h, Settled (lineByte bitdata w y) w := by
  have room : h * ((w + 7) / 8) ≤ 2 ^ 32 := by omega
  obtain ⟨rectangles, reads, scanned, scanning⟩ :=
    bitdataToRectangles_scanning bitdata fits room
  constructor
  · rintro ⟨found, read, is, -, exact⟩ y below
    rw [scanned, Option.some_inj] at is
    cases is
    exact (scanning.settled room below).mp fun x inside => exact x inside y below
  · intro settled
    exact ⟨rectangles, reads, scanned, scanning.toLines, fun x inside y below =>
      (scanning.settled room below).mpr (settled y below) x inside⟩

/-- A run over two bytes is reported once. -/
theorem bit_to_rectangles_exact_two : Exact [0x0f, 0xf0] 16 1 :=
  (bit_to_rectangles_exact_iff [0x0f, 0xf0] 16 1 (by decide) (by decide) (by decide)).mpr (by decide)

/-- One black pixel, and a byte without any after it: it is reported a second time there. -/
theorem not_bit_to_rectangles_exact : ¬ ∀ (bitdata : Bytes) (w h : Nat),
    h * ((w + 7) / 8) ≤ bitdata.length → Exact bitdata w h := by
  intro claim
  obtain ⟨rectangles, reads, scanned, -, exact⟩ := claim [0x80, 0x00] 16 1 (by decide)
  have found : bitdataToRectangles [0x80, 0x00] 16 1 = some ([⟨0, 0, 1, 1⟩, ⟨8, 0, 1, 1⟩], [0, 0]) := by
    decide
  rw [found, Option.some_inj] at scanned
  cases scanned
  have black := (exact 8 (by decide) 0 (by decide)).mp
    ⟨⟨8, 0, 1, 1⟩, by decide, by decide, by decide, by decide, by decide⟩
  exact absurd black (by decide)

end Catlink.Codecs.Bitmap
