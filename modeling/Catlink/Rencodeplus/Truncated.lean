import Catlink.Rencodeplus.Bounds

/-! A value that is cut off: the decoder comes to a check that fails, unless it has read too far. -/

namespace Catlink.Rencodeplus

/-- The data before it was cut. Positions in it do not come around. -/
structure Cut (whole data : Bytes) : Prop where
  before : data.length ≤ whole.length
  same : ∀ i, i < data.length → byte data i = byte whole i
  small : whole.length < 2 ^ 32

variable {whole data : Bytes}

theorem cut_append {data rest : Bytes} (small : (data ++ rest).length < 2 ^ 32) :
    Cut (data ++ rest) data := by
  refine ⟨?_, ?_, small⟩
  · rw [List.length_append]
    omega
  · intro i inside
    unfold byte
    rw [List.getD_append _ _ _ _ inside]

theorem text_same (cut : Cut whole data) {start size : Nat} (inside : start + size ≤ data.length) :
    text data start size = text whole start size := by
  induction size generalizing start with
  | zero => rfl
  | succ size ih =>
      have before := cut.before
      rw [text_cons (by omega), text_cons (by omega), cut.same start (by omega), ih (by omega)]

theorem kindAt_same (cut : Cut whole data) {p : Nat} (inside : p < data.length) :
    kindAt data p = kindAt whole p := by
  unfold kindAt
  rw [cut.same p inside]

/-- The decoder of `data` finds that there is too little of it. -/
def TooShort {α : Type} (r : Except Exn α) : Prop := ∃ text, r = .error (.indexError text)

theorem TooShort.bind {α β : Type} {r : Except Exn α} {f : α → Except Exn β} (short : TooShort r) :
    TooShort (r >>= f) := by
  obtain ⟨text, found⟩ := short
  exact ⟨text, by rw [found]; rfl⟩

theorem checkPos_short {p : Nat} (outside : data.length ≤ p) : TooShort (checkPos (exactBuffer data) p) :=
  checkPos_outside outside

/-! ### Loops over bytes -/

variable {goes : UInt8 → Prop} {p first x : Nat}

theorem Cut.place (cut : Cut whole data) {p y : Nat} (inside : p + y ≤ whole.length) :
    uint (p + y) = p + y := by
  have small := cut.small
  unfold uint
  omega

theorem FoundAt.kept (cut : Cut whole data) (found : FoundAt whole goes p first x)
    (inside : p + x < data.length) : FoundAt data goes p first x := by
  have before := cut.before
  refine ⟨found.since, ?_, ?_, ?_⟩
  · intro y _ upto
    rw [cut.place (by omega)]
    omega
  · intro y since earlier
    have go := found.before y since earlier
    rw [cut.place (by omega)] at go ⊢
    rw [cut.same _ (by omega)]
    exact go
  · have here := found.here
    rw [cut.place (by omega)] at here ⊢
    rw [cut.same _ inside]
    exact here

/-- A loop whose last byte is cut off. -/
theorem loop_short (cut : Cut whole data) [DecidablePred goes] {loop : Nat → Nat → Except Exn Nat}
    (round : ∀ rounds x, loop (rounds + 1) x = (do
      checkPos (exactBuffer data) (uint (p + x))
      let c ← (exactBuffer data).peek (uint (p + x))
      if goes c then loop rounds (x + 1) else .ok x))
    (found : FoundAt whole goes p first x) (inside : p + x ≤ whole.length)
    (outside : data.length ≤ p + x) (rounds y : Nat) (since : first ≤ y) (upto : y ≤ x)
    (more : 0 < rounds) (few : data.length < p + y + rounds) : TooShort (loop rounds y) := by
  induction rounds generalizing y with
  | zero => omega
  | succ rounds ih =>
      have place : uint (p + y) = p + y := cut.place (by omega)
      rw [round]
      by_cases there : p + y < data.length
      · have go := found.before y since (by omega)
        rw [place] at go ⊢
        rw [checkPos_inside there, peek_inside there]
        change TooShort (if goes (byte data (p + y)) then _ else _)
        rw [cut.same _ there, if_pos go]
        exact ih (y + 1) (by omega) (by omega) (by omega) (by omega)
      · apply TooShort.bind
        rw [place]
        exact checkPos_short (by omega)

/-! ### Values without members -/

/-- What is left of a value that ends before `q` when the data is cut. -/
structure Kept (whole data : Bytes) (p q : Nat) (kept : Prop) (r : Except Exn (PyVal × Nat)) : Prop where
  later : p < q
  inside : q ≤ whole.length
  kept : q ≤ data.length → kept
  short : data.length < q → TooShort r

theorem fixed_kept (bigEndian : Bool) (cut : Cut whole data) {width q : Nat} (inside : p < data.length)
    (value : Nat → PyVal) (ends : FixedEnds whole width p q) :
    Kept whole data p q (FixedEnds data width p q) (do
      let (n, pos) ← decodeFixedWidth bigEndian (exactBuffer data) width p
      .ok (value n, pos)) := by
  have before := cut.before
  have small := cut.small
  obtain ⟨checked, fits, same⟩ := ends
  have start : uint (p + 1) = p + 1 := cut.place (y := 1) (by omega)
  rw [start] at fits
  have last : uint (p + width) = p + width := cut.place (by omega)
  have stop : uint (p + (width + 1)) = p + (width + 1) := cut.place (y := width + 1) (by omega)
  rw [stop] at same
  constructor
  · omega
  · omega
  · intro kept
    unfold FixedEnds
    rw [start, last, stop]
    exact ⟨by omega, by omega, same⟩
  · intro short
    unfold decodeFixedWidth
    rw [last]
    apply TooShort.bind
    apply TooShort.bind
    exact checkPos_short (by omega)

theorem char_kept (cut : Cut whole data) {q : Nat} (inside : p < data.length)
    (ends : uint (p + 1) < whole.length ∧ q = uint (p + 2)) :
    Kept whole data p q (uint (p + 1) < data.length ∧ q = uint (p + 2))
      (decodeChar (exactBuffer data) p) := by
  have before := cut.before
  have small := cut.small
  obtain ⟨checked, same⟩ := ends
  have start : uint (p + 1) = p + 1 := cut.place (y := 1) (by omega)
  rw [start] at checked
  have stop : uint (p + 2) = p + 2 := cut.place (y := 2) (by omega)
  rw [stop] at same
  constructor
  · omega
  · omega
  · intro kept
    rw [start, stop]
    exact ⟨by omega, same⟩
  · intro short
    unfold decodeChar
    rw [start]
    apply TooShort.bind
    exact checkPos_short (by omega)

theorem single_kept (cut : Cut whole data) {q : Nat} {r : Except Exn (PyVal × Nat)}
    (inside : p < data.length) (ends : q = uint (p + 1)) :
    Kept whole data p q (q = uint (p + 1)) r := by
  have before := cut.before
  have start : uint (p + 1) = p + 1 := cut.place (y := 1) (by omega)
  constructor
  · omega
  · omega
  · exact fun _ => ends
  · intro short
    omega

theorem number_kept (cut : Cut whole data) {q : Nat} (inside : p < data.length)
    (ends : NumberEnds whole (uint (p + 1)) q) :
    Kept whole data p q (NumberEnds data (uint (p + 1)) q) (decodeBigNumber (exactBuffer data) p) := by
  have before := cut.before
  have start : uint (p + 1) = p + 1 := cut.place (y := 1) (by omega)
  rw [start] at ends ⊢
  obtain ⟨x, ⟨found, few⟩, fits, ⟨n, isNumber⟩, same⟩ := ends
  have last : uint ((p + 1 : Nat) + x) = p + 1 + x := cut.place fits
  have checked := found.inside x found.since (Nat.le_refl x)
  rw [last] at checked
  have stop : uint ((p + 1 : Nat) + (x + 1)) = p + 1 + (x + 1) := cut.place (y := x + 1) (by omega)
  rw [stop] at same
  constructor
  · omega
  · omega
  · intro kept
    refine ⟨x, ⟨found.kept cut (by omega), few⟩, by omega, ⟨n, ?_⟩, ?_⟩
    · rw [text_same cut (by omega)]
      exact isNumber
    · rw [stop]
      exact same
  · intro short
    unfold decodeBigNumber
    dsimp only
    rw [start]
    apply TooShort.bind
    unfold MAX_INT_LENGTH at few ⊢
    exact loop_short cut (fun rounds y => rfl) found fits (by omega) _ 18 (Nat.le_refl 18)
      found.since (by decide) (by omega)

theorem fixedStr_kept (cut : Cut whole data) {typecode q : Nat} (inside : p < data.length)
    (ends : FixedStrEnds whole (typecode - STR_FIXED_START + 1) p q) :
    Kept whole data p q (FixedStrEnds data (typecode - STR_FIXED_START + 1) p q)
      (decodeFixedStr (exactBuffer data) typecode p) := by
  unfold decodeFixedStr
  dsimp only
  generalize typecode - STR_FIXED_START = rest at ends ⊢
  have before := cut.before
  have small := cut.small
  obtain ⟨checked, fits, isText, same⟩ := ends
  have start : uint (p + 1) = p + 1 := cut.place (y := 1) (by omega)
  rw [start, Nat.add_sub_cancel] at fits isText
  have bound : p + (rest + 1) ≤ whole.length := by
    by_cases filled : 0 < rest
    · have fits := fits filled
      omega
    · omega
  have last : uint (p + (rest + 1 : Nat) - 1) = p + rest := by
    unfold uint
    omega
  have stop : uint (p + (rest + 1 : Nat)) = p + (rest + 1) := cut.place bound
  rw [stop] at same
  constructor
  · omega
  · omega
  · intro kept
    unfold FixedStrEnds
    rw [last, stop, start, Nat.add_sub_cancel]
    refine ⟨by omega, fun _ => by omega, ?_, same⟩
    rw [text_same cut (by omega)]
    exact isText
  · intro short
    rw [last]
    apply TooShort.bind
    exact checkPos_short (by omega)

/-- Blanks are taken from the end only. -/
theorem strip_digit {b : UInt8} (bs : Bytes) (digit : 48 ≤ b.toNat ∧ b.toNat ≤ 57) :
    ∃ cs, strip (b :: bs) = b :: cs := by
  have solid : isSpace b = false := by
    unfold isSpace
    have some : ¬ b = 32 := by
      rintro rfl
      exact absurd digit.1 (by decide)
    have above : ¬ b ≤ 13 := by
      intro below
      have below := UInt8.le_iff_toNat_le.mp below
      have thirteen : (13 : UInt8).toNat = 13 := by decide
      omega
    rw [decide_eq_false some, decide_eq_false above, Bool.and_false, Bool.or_false]
  unfold strip
  rw [List.dropWhile_cons_of_neg (by simp [solid]), List.reverse_cons]
  refine ⟨(bs.reverse.dropWhile isSpace).reverse, ?_⟩
  rw [List.dropWhile_append]
  split
  next empty =>
    have none := List.isEmpty_iff.mp empty
    rw [none, List.dropWhile_cons_of_neg (by simp [solid])]
    rfl
  · rw [List.reverse_append]
    rfl

theorem size_nonneg {b : UInt8} {bs : Bytes} {size : Int} (digit : 48 ≤ b.toNat ∧ b.toNat ≤ 57)
    (isSize : IsSize (b :: bs) size) : 0 ≤ size := by
  unfold IsSize at isSize
  obtain ⟨n, number, isInt⟩ := ok_of_bind isSize
  have same : n = size := by
    unfold asInt at isInt
    split at isInt
    · cases isInt
      rfl
    · cases isInt
  subst same
  obtain ⟨cs, stripped⟩ := strip_digit bs digit
  unfold pyInt at number
  rw [stripped] at number
  have plus : b ≠ 43 := by
    rintro rfl
    exact absurd digit.1 (by decide)
  have minus : b ≠ 45 := by
    rintro rfl
    exact absurd digit.1 (by decide)
  unfold signedDigits at number
  split at number
  next found =>
    cases number
    split at found
    next same => exact absurd (List.cons.inj same).1 plus
    next same => exact absurd (List.cons.inj same).1 minus
    · obtain ⟨m, -, rfl⟩ := Option.map_eq_some_iff.mp found
      exact Int.natCast_nonneg m
  · cases number

theorem kindOf_str : ∀ typecode < 256, kindOf typecode = .str → 48 ≤ typecode ∧ typecode ≤ 57 := by
  decide +kernel

theorem str_kept (cut : Cut whole data) {q : Nat} (inside : p < data.length)
    (kind : kindAt whole p = .str) (ends : StrEnds whole p q) :
    Kept whole data p q (StrEnds data p q) (decodeStr (exactBuffer data) p) := by
  have before := cut.before
  have small := cut.small
  obtain ⟨x, size, found, fits, isSize, checked, body, isText, same⟩ := ends
  have positive : 1 ≤ x := found.since
  have last : uint (p + x) = p + x := cut.place fits
  have separator := found.inside x found.since (Nat.le_refl x)
  rw [last] at separator
  have start : uint (p + (x + 1)) = p + (x + 1) := cut.place (y := x + 1) (by omega)
  rw [start] at checked body isText same
  rw [last] at isText
  have nonneg : 0 ≤ size := by
    obtain ⟨rest, rfl⟩ : ∃ rest, x = rest + 1 := ⟨x - 1, by omega⟩
    rw [text_cons (by omega)] at isSize
    exact size_nonneg (kindOf_str _ (byte whole p).toNat_lt kind) isSize
  obtain ⟨n, rfl⟩ := Int.eq_ofNat_of_zero_le nonneg
  rw [Int.toNat_natCast] at body isText
  have bound : p + (x + 1) + n ≤ whole.length := by
    by_cases filled : 0 < n
    · have body := body filled
      omega
    · omega
  have final : uint ((p + (x + 1) : Nat) + (n : Int) - 1) = p + x + n := by
    unfold uint
    omega
  have stop : uint ((p + (x + 1) : Nat) + (n : Int)) = p + (x + 1) + n := cut.place bound
  rw [stop] at same
  constructor
  · omega
  · omega
  · intro kept
    refine ⟨x, n, found.kept cut (by omega), by omega, ?_, ?_, ?_, ?_, ?_⟩
    · rw [text_same cut (by omega)]
      exact isSize
    · rw [start, final]
      omega
    · rw [start, Int.toNat_natCast]
      intro _
      omega
    · rw [start, last, Int.toNat_natCast, text_same cut (by omega), cut.same _ (by omega)]
      exact isText
    · rw [start, stop]
      exact same
  · intro short
    unfold decodeStr
    by_cases there : p + x < data.length
    · have here := found.kept cut there
      have scan := scanSize_comes data p inside
      obtain ⟨x', ok, same⟩ := (scan.ok x).mpr here
      obtain rfl : x' = x := same
      change TooShort (scanSize (exactBuffer data) p (data.length + 1) 1 >>= _)
      rw [ok]
      change TooShort (sizeBefore (exactBuffer data) p x' >>= _)
      have sized : sizeBefore (exactBuffer data) p x' = .ok (n : Int) := by
        unfold sizeBefore
        rw [slice_inside (by omega), text_same cut (by omega)]
        exact isSize
      rw [sized]
      change TooShort ((exactBuffer data).peek (uint (p + x')) >>= _)
      rw [last, peek_inside there]
      change TooShort (checkPos (exactBuffer data) (uint (uint (p + (x' + 1)) + (n : Int) - 1)) >>= _)
      rw [start, final]
      apply TooShort.bind
      exact checkPos_short (by omega)
    · have length : (exactBuffer data).length = data.length := rfl
      apply TooShort.bind
      exact loop_short cut (fun rounds y => rfl) found fits (by omega) _ 1 (Nat.le_refl 1)
        found.since (Nat.succ_pos _) (by omega)

theorem leaf_kept (bigEndian : Bool) (cut : Cut whole data) {q : Nat} {kind : Kind}
    (inside : p < data.length) (is : kindAt whole p = kind) (ends : LeafEnds whole p q kind) :
    Kept whole data p q (LeafEnds data p q kind)
      (decodeLeaf bigEndian (exactBuffer data) (byte data p).toNat p kind) := by
  cases kind with
  | char => exact char_kept cut inside ends
  | short => exact fixed_kept bigEndian cut inside (fun n => .int (BitVec.ofNat 16 n).toInt) ends
  | int => exact fixed_kept bigEndian cut inside (fun n => .int (BitVec.ofNat 32 n).toInt) ends
  | longLong => exact fixed_kept bigEndian cut inside (fun n => .int (BitVec.ofNat 64 n).toInt) ends
  | float32 => exact fixed_kept bigEndian cut inside (fun n => .float (widenFloat n)) ends
  | float64 => exact fixed_kept bigEndian cut inside (fun n => .float (BitVec.ofNat 64 n)) ends
  | fixedPosInt | fixedNegInt | none | true | false => exact single_kept cut inside ends
  | bigNumber => exact number_kept cut inside ends
  | fixedStr =>
      have same := cut.same p inside
      unfold LeafEnds at ends ⊢
      unfold decodeLeaf
      rw [same]
      exact fixedStr_kept cut inside ends
  | str => exact str_kept cut inside is ends
  | fixedList | list | fixedDict | dict | unsupported => exact ends.elim

/-! ### Values with members -/

def Task.position : Task → Nat
  | .item p | .fixedList _ p | .list p | .fixedDict _ p | .dict p => p

/-- What is left of the data once the task is done comes after this. -/
def Task.least : Task → Nat
  | .item p | .list p | .dict p => p + 1
  | .fixedList _ p | .fixedDict _ p => p

theorem cut_refl (small : whole.length < 2 ^ 32) : Cut whole whole :=
  ⟨Nat.le_refl _, fun _ _ => rfl, small⟩

theorem ends_least (small : whole.length < 2 ^ 32) {t : Task} {key : Bool} {q : Nat}
    (ends : Ends whole t key q) (inside : t.position ≤ whole.length) :
    t.least ≤ q ∧ q ≤ whole.length := by
  have cut := cut_refl small
  have next : ∀ p, p < whole.length → uint (p + 1) = p + 1 := fun p inside =>
    cut.place (y := 1) (by omega)
  induction ends with
  | leaf there ends =>
      have kept := leaf_kept false cut there rfl ends
      exact ⟨kept.later, kept.inside⟩
  | @fixedList p q key there kind members ih =>
      rw [next p there] at ih
      exact ih there
  | @list p q key there kind members ih =>
      rw [next p there] at ih
      have inner := ih there
      exact ⟨Nat.le_of_succ_le inner.1, inner.2⟩
  | @fixedDict p q there kind entries ih =>
      rw [next p there] at ih
      exact ih there
  | @dict p q there kind some entries ih =>
      rw [next p there] at ih
      have inner := ih there
      exact ⟨Nat.le_of_succ_le inner.1, inner.2⟩
  | noMember => exact ⟨Nat.le_refl _, inside⟩
  | member head rest ihHead ihRest =>
      have first := ihHead inside
      have later := ihRest first.2
      exact ⟨Nat.le_trans (Nat.le_of_succ_le first.1) later.1, later.2⟩
  | @listEnd p here =>
      rw [next p here.1]
      exact ⟨Nat.le_refl _, here.1⟩
  | listMember head rest ihHead ihRest =>
      have first := ihHead inside
      have later := ihRest first.2
      exact ⟨Nat.le_trans first.1 (Nat.le_of_succ_le later.1), later.2⟩
  | noEntry => exact ⟨Nat.le_refl _, inside⟩
  | entry key value rest ihKey ihValue ihRest =>
      have first := ihKey inside
      have second := ihValue first.2
      have later := ihRest second.2
      refine ⟨?_, later.2⟩
      exact Nat.le_trans (Nat.le_of_succ_le first.1)
        (Nat.le_trans (Nat.le_of_succ_le second.1) later.1)
  | @dictEnd p here =>
      rw [next p here.1]
      exact ⟨Nat.le_refl _, here.1⟩
  | dictEntry key value rest ihKey ihValue ihRest =>
      have first := ihKey inside
      have second := ihValue first.2
      have later := ihRest second.2
      refine ⟨?_, later.2⟩
      exact Nat.le_trans first.1
        (Nat.le_trans (Nat.le_of_succ_le second.1) (Nat.le_of_succ_le later.1))

/-- The two ways in which cut data ends a run. -/
def RunsOut (e : Exn) : Prop := e = outOfBounds ∨ ∃ text, e = .indexError text

structure CutTask (bigEndian : Bool) (data : Bytes) (t : Task) (key : Bool) (q : Nat) : Prop where
  kept : q ≤ data.length → Ends data t key q
  short : data.length < q → Failing bigEndian data RunsOut t

theorem item_outside {bigEndian : Bool} (outside : data.length ≤ p) :
    Failing bigEndian data RunsOut (.item p) := by
  apply Eventually.always
  intro fuel
  obtain ⟨text, refused⟩ := decode_outside bigEndian fuel outside
  exact ⟨_, refused, .inr ⟨text, rfl⟩⟩

theorem begins_same (cut : Cut whole data) (inside : p < data.length) (begins : Begins whole p) :
    Begins data p := by
  refine ⟨inside, ?_⟩
  rw [cut.same p inside]
  exact begins.2

theorem item_cut_outside {bigEndian key : Bool} {q : Nat} (outside : data.length ≤ p) (later : p < q) :
    CutTask bigEndian data (.item p) key q :=
  ⟨fun enough => by omega, fun _ => item_outside outside⟩

theorem listSize_same (cut : Cut whole data) (inside : p < data.length) :
    listSize data p = listSize whole p := by
  unfold listSize
  rw [cut.same p inside]

theorem dictSize_same (cut : Cut whole data) (inside : p < data.length) :
    dictSize data p = dictSize whole p := by
  unfold dictSize
  rw [cut.same p inside]

theorem terminated_same (cut : Cut whole data) (inside : p < data.length) (here : Terminated whole p) :
    Terminated data p := by
  refine ⟨inside, ?_⟩
  rw [cut.same p inside]
  exact here.2

theorem cut_task (bigEndian : Bool) (cut : Cut whole data) {t : Task} {key : Bool} {q : Nat}
    (ends : Ends whole t key q) (inside : t.position ≤ data.length) :
    CutTask bigEndian data t key q := by
  have before := cut.before
  have wide := Nat.le_trans inside before
  have next : ∀ p, p < whole.length → uint (p + 1) = p + 1 := fun p inside =>
    cut.place (y := 1) (by omega)
  have least := ends_least cut.small ends wide
  induction ends with
  | @leaf p q there ends =>
      by_cases left : p < data.length
      · have kept := leaf_kept bigEndian cut left rfl ends
        have same := kindAt_same cut left
        constructor
        · intro enough
          exact .leaf left (same ▸ kept.kept enough)
        · intro short
          obtain ⟨text, refused⟩ := kept.short short
          apply Eventually.always
          intro fuel
          refine ⟨_, ?_, .inr ⟨text, rfl⟩⟩
          rw [decode_inside bigEndian fuel left, same,
            decodeKind_leaf _ _ _ _ _ (leafEnds_leaf ends), refused]
      · exact item_cut_outside (Nat.not_lt.mp left) least.1
  | @fixedList p q key there kind members ih =>
      by_cases left : p < data.length
      · rw [next p there] at ih members
        have inner := ih left there (ends_least cut.small members there)
        have same := kindAt_same cut left
        rw [← listSize_same cut left, ← next p there] at inner
        exact ⟨fun enough => .fixedList left (same ▸ kind) (inner.kept enough),
          fun short => .fixedList left (same ▸ kind) (inner.short short)⟩
      · exact item_cut_outside (Nat.not_lt.mp left) least.1
  | @list p q key there kind members ih =>
      by_cases left : p < data.length
      · rw [next p there] at ih members
        have inner := ih left there (ends_least cut.small members there)
        have same := kindAt_same cut left
        rw [← next p there] at inner
        exact ⟨fun enough => .list left (same ▸ kind) (inner.kept enough),
          fun short => .list left (same ▸ kind) (inner.short short)⟩
      · exact item_cut_outside (Nat.not_lt.mp left) least.1
  | @fixedDict p q there kind entries ih =>
      by_cases left : p < data.length
      · rw [next p there] at ih entries
        have inner := ih left there (ends_least cut.small entries there)
        have same := kindAt_same cut left
        rw [← dictSize_same cut left, ← next p there] at inner
        exact ⟨fun enough => .fixedDict left (same ▸ kind) (inner.kept enough),
          fun short => .fixedDict left (same ▸ kind) (inner.short short)⟩
      · exact item_cut_outside (Nat.not_lt.mp left) least.1
  | @dict p q there kind some entries ih =>
      by_cases left : p < data.length
      · have further := next p there
        rw [further] at ih entries some
        have room := ends_least cut.small entries there
        have inner := ih left there room
        have same := kindAt_same cut left
        by_cases more : p + 1 < data.length
        · rw [← further] at inner more
          exact ⟨fun enough => .dict left (same ▸ kind) more (inner.kept enough),
            fun short => .dict left (same ▸ kind) more (inner.short short)⟩
        · -- the check before the loop
          constructor
          · intro enough
            have later : p + 1 + 1 ≤ q := room.1
            omega
          · intro _
            obtain ⟨text, refused⟩ := checkPos_outside (Nat.not_lt.mp more)
            apply Eventually.always
            intro fuel
            refine ⟨_, ?_, .inr ⟨text, rfl⟩⟩
            rw [decode_inside bigEndian fuel left, same, kind, decodeKind, further, refused]
            rfl
      · exact item_cut_outside (Nat.not_lt.mp left) least.1
  | noMember => exact ⟨fun _ => .noMember, fun short => absurd inside (Nat.not_le.mpr short)⟩
  | @member size p q r key keys head rest ihHead ihRest =>
      have room := ends_least cut.small head wide
      have room' := ends_least cut.small rest room.2
      have first := ihHead inside wide room
      by_cases enough : q ≤ data.length
      · have later := ihRest enough room.2 room'
        exact ⟨fun enough' => .member (first.kept enough) (later.kept enough'),
          fun short => .members (first.kept enough) (later.short short)⟩
      · refine ⟨fun enough' => absurd (Nat.le_trans room'.1 enough') enough, fun _ => ?_⟩
        exact .member (first.short (Nat.not_le.mp enough))
  | @listEnd p here =>
      rw [next p here.1]
      by_cases left : p < data.length
      · refine ⟨fun _ => ?_, fun short => absurd left (Nat.not_lt.mpr (Nat.le_of_lt_succ short))⟩
        rw [← next p here.1]
        exact .listEnd (terminated_same cut left here)
      · exact ⟨fun enough => absurd enough left,
          fun _ => .listTest (Nat.not_lt.mp left) (.inl rfl)⟩
  | @listMember p q r key keys head rest ihHead ihRest =>
      have room := ends_least cut.small head wide
      have room' := ends_least cut.small rest room.2
      by_cases left : p < data.length
      · have first := ihHead inside wide room
        by_cases enough : q ≤ data.length
        · have later := ihRest enough room.2 room'
          exact ⟨fun enough' => .listMember (first.kept enough) (later.kept enough'),
            fun short => .listMembers (first.kept enough) (later.short short)⟩
        · refine ⟨fun enough' => ?_, fun _ => ?_⟩
          · exact absurd (Nat.le_trans (Nat.le_of_succ_le room'.1) enough') enough
          · exact .listMember (begins_same cut left (ends_begins head))
              (first.short (Nat.not_le.mp enough))
      · exact ⟨fun enough => absurd (Nat.lt_of_lt_of_le least.1 enough) left,
          fun _ => .listTest (Nat.not_lt.mp left) (.inl rfl)⟩
  | noEntry => exact ⟨fun _ => .noEntry, fun short => absurd inside (Nat.not_le.mpr short)⟩
  | @entry size p q r s other key value rest ihKey ihValue ihRest =>
      have room := ends_least cut.small key wide
      have room' := ends_least cut.small value room.2
      have room'' := ends_least cut.small rest room'.2
      have first := ihKey inside wide room
      by_cases enough : q ≤ data.length
      · have second := ihValue enough room.2 room'
        by_cases enough' : r ≤ data.length
        · have later := ihRest enough' room'.2 room''
          exact ⟨fun enough'' =>
              .entry (first.kept enough) (second.kept enough') (later.kept enough''),
            fun short => .entries (first.kept enough) (second.kept enough') (later.short short)⟩
        · refine ⟨fun enough'' => absurd (Nat.le_trans room''.1 enough'') enough', fun _ => ?_⟩
          exact .value (first.kept enough) (second.short (Nat.not_le.mp enough'))
      · refine ⟨fun enough'' => ?_, fun _ => .key (first.short (Nat.not_le.mp enough))⟩
        exact absurd (Nat.le_trans (Nat.le_of_succ_le room'.1) (Nat.le_trans room''.1 enough'')) enough
  | @dictEnd p here =>
      rw [next p here.1]
      by_cases left : p < data.length
      · refine ⟨fun _ => ?_, fun short => absurd left (Nat.not_lt.mpr (Nat.le_of_lt_succ short))⟩
        rw [← next p here.1]
        exact .dictEnd (terminated_same cut left here)
      · exact ⟨fun enough => absurd enough left,
          fun _ => .dictTest (Nat.not_lt.mp left) (.inl rfl)⟩
  | @dictEntry p q r s other key value rest ihKey ihValue ihRest =>
      have room := ends_least cut.small key wide
      have room' := ends_least cut.small value room.2
      have room'' := ends_least cut.small rest room'.2
      by_cases left : p < data.length
      · have first := ihKey inside wide room
        by_cases enough : q ≤ data.length
        · have second := ihValue enough room.2 room'
          by_cases enough' : r ≤ data.length
          · have later := ihRest enough' room'.2 room''
            exact ⟨fun enough'' =>
                .dictEntry (first.kept enough) (second.kept enough') (later.kept enough''),
              fun short =>
                .dictEntries (first.kept enough) (second.kept enough') (later.short short)⟩
          · refine ⟨fun enough'' => ?_, fun _ => ?_⟩
            · exact absurd (Nat.le_trans (Nat.le_of_succ_le room''.1) enough'') enough'
            · exact .dictValue (first.kept enough) (second.short (Nat.not_le.mp enough'))
        · refine ⟨fun enough'' => ?_, fun _ => ?_⟩
          · exact absurd (Nat.le_trans (Nat.le_of_succ_le room'.1)
              (Nat.le_trans (Nat.le_of_succ_le room''.1) enough'')) enough
          · exact .dictKey (begins_same cut left (ends_begins key))
              (first.short (Nat.not_le.mp enough))
      · exact ⟨fun enough => absurd (Nat.lt_of_lt_of_le least.1 enough) left,
          fun _ => .dictTest (Nat.not_lt.mp left) (.inl rfl)⟩

/-! ### The bounds of the decoder -/

theorem uint_lt (n : Int) : uint n < 2 ^ 32 := by
  unfold uint
  omega

theorem leafEnds_lt {q : Nat} {kind : Kind} (ends : LeafEnds data p q kind) : q < 2 ^ 32 := by
  cases kind with
  | char =>
      rw [ends.2]
      exact uint_lt _
  | short | int | longLong | float32 | float64 =>
      rw [ends.2.2]
      exact uint_lt _
  | fixedPosInt | fixedNegInt | none | true | false =>
      have same : q = uint (p + 1) := ends
      rw [same]
      exact uint_lt _
  | bigNumber =>
      obtain ⟨x, -, -, -, rfl⟩ := ends
      exact uint_lt _
  | fixedStr =>
      have ends : FixedStrEnds data ((byte data p).toNat - STR_FIXED_START + 1) p q := ends
      rw [ends.2.2.2]
      exact uint_lt _
  | str =>
      obtain ⟨x, size, -, -, -, -, -, -, rfl⟩ := ends
      exact uint_lt _
  | fixedList | list | fixedDict | dict | unsupported => exact ends.elim

theorem ends_lt {t : Task} {key : Bool} {q : Nat} (ends : Ends data t key q)
    (start : t.position < 2 ^ 32) : q < 2 ^ 32 := by
  induction ends with
  | leaf inside ends => exact leafEnds_lt ends
  | fixedList inside kind members ih => exact ih (uint_lt _)
  | list inside kind members ih => exact ih (uint_lt _)
  | fixedDict inside kind entries ih => exact ih (uint_lt _)
  | dict inside kind some entries ih => exact ih (uint_lt _)
  | noMember => exact start
  | member head rest ihHead ihRest => exact ihRest (ihHead start)
  | listEnd here => exact uint_lt _
  | listMember head rest ihHead ihRest => exact ihRest (ihHead start)
  | noEntry => exact start
  | entry key value rest ihKey ihValue ihRest => exact ihRest (ihValue (ihKey start))
  | dictEnd here => exact uint_lt _
  | dictEntry key value rest ihKey ihValue ihRest => exact ihRest (ihValue (ihKey start))

/-- What is left of some data that decodes as a whole. -/
def Truncated (bigEndian : Bool) (data : Bytes) : Prop :=
  ∃ rest fuel v, rest ≠ [] ∧ decode bigEndian (exactBuffer (data ++ rest)) fuel 0 =
    .ok (v, (data ++ rest).length)

/-- No read behind the end, and an `IndexError` or a `ValueError` when something is missing. -/
def Bounded (bigEndian : Bool) (data : Bytes) : Prop :=
  InBounds bigEndian data ∧ (Truncated bigEndian data → Eventually fun fuel => ∃ text,
    decode bigEndian (exactBuffer data) fuel 0 = .error (.indexError text) ∨
      decode bigEndian (exactBuffer data) fuel 0 = .error (.valueError text))

theorem truncated_runs_out {bigEndian : Bool} (truncated : Truncated bigEndian data) :
    Failing bigEndian data RunsOut (.item 0) := by
  obtain ⟨rest, fuel, v, some, decodes⟩ := truncated
  have ends := ((rules bigEndian (data ++ rest) fuel).item 0).1 _ _ decodes
  have small := ends_lt ends (by decide)
  have cut := cut_task bigEndian (cut_append small) ends (Nat.zero_le _)
  apply cut.short
  have filled := List.length_pos_iff.mpr some
  rw [List.length_append]
  omega

theorem decoder_bounded_iff (bigEndian : Bool) (data : Bytes) :
    Bounded bigEndian data ↔ ¬ Strays data (.item 0) := by
  rw [← inBounds_iff bigEndian data]
  constructor
  · exact And.left
  · intro within
    refine ⟨within, ?_⟩
    intro truncated
    obtain ⟨n, fails⟩ := truncated_runs_out truncated
    refine ⟨n, ?_⟩
    intro fuel enough
    obtain ⟨e, found, rfl | ⟨text, rfl⟩⟩ := fails fuel enough
    · exact absurd found (within fuel)
    · exact ⟨text, .inl found⟩

/-- The type code of a list alone. -/
theorem not_decoder_bounded : ¬ Bounded false [59] := by
  rw [decoder_bounded_iff]
  intro safe
  have kind : kindAt [59] 0 = .list := by decide +kernel
  have outside : uint (0 + 1) = 1 := by decide
  apply safe
  apply Strays.list (by decide) kind
  apply Strays.listTest
  exact Nat.le_of_eq outside.symm

end Catlink.Rencodeplus
