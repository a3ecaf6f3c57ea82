import Catlink.Rencodeplus.Decode
import Mathlib.Tactic

/-! The values without members, by the bytes that the decoder reads for them. -/

namespace Catlink.Rencodeplus

def outOfBounds : Exn := .other "read out of bounds"

/-- The bytes and nothing behind them. -/
def exactBuffer (data : Bytes) : CharBuffer where
  length := data.length
  peek i := if h : i < data.length then .ok data[i] else .error outOfBounds

variable {data : Bytes}

def byte (data : Bytes) (i : Nat) : UInt8 := data.getD i 0

/-- `data[start:start + size]` -/
def text (data : Bytes) (start size : Nat) : Bytes := (data.drop start).take size

theorem peek_inside {i : Nat} (inside : i < data.length) :
    (exactBuffer data).peek i = .ok (byte data i) := by
  unfold exactBuffer byte
  dsimp only
  rw [dif_pos inside, List.getD_eq_getElem data 0 inside]

theorem peek_outside {i : Nat} (outside : data.length ≤ i) :
    (exactBuffer data).peek i = .error outOfBounds :=
  dif_neg (by omega)

theorem text_cons {start size : Nat} (inside : start < data.length) :
    text data start (size + 1) = byte data start :: text data (start + 1) size := by
  unfold text byte
  rw [List.drop_eq_getElem_cons inside, List.take_succ_cons, List.getD_eq_getElem data 0 inside]

theorem slice_inside {start size : Nat} (inside : start + size ≤ data.length) :
    slice (exactBuffer data) start size = .ok (text data start size) := by
  induction size generalizing start with
  | zero => simp [slice, text]
  | succ size ih =>
      rw [slice, peek_inside (by omega), text_cons (by omega)]
      change (slice (exactBuffer data) (start + 1) size >>= _) = _
      rw [ih (by omega)]
      rfl

theorem slice_outside {start size : Nat} (filled : 0 < size) (outside : data.length < start + size) :
    slice (exactBuffer data) start size = .error outOfBounds := by
  induction size generalizing start with
  | zero => omega
  | succ size ih =>
      rw [slice]
      by_cases inside : start < data.length
      · rw [peek_inside inside]
        change (slice (exactBuffer data) (start + 1) size >>= _) = _
        rw [ih (by omega) (by omega)]
        rfl
      · rw [peek_outside (by omega)]
        rfl

/-! ### What a computation comes to -/

/-- What there is to see of the results, and when there is a read outside of the data. -/
structure Comes {α γ : Type} (view : α → γ) (r : Except Exn α) (post : γ → Prop) (stray : Prop) :
    Prop where
  ok : ∀ c, (∃ a, r = .ok a ∧ view a = c) ↔ post c
  out : r = .error outOfBounds ↔ stray

namespace Comes

variable {α β γ : Type} {view : α → γ} {r : Except Exn α} {post : γ → Prop} {stray : Prop}

theorem post_of_ok (comes : Comes view r post stray) {a : α} (found : r = .ok a) :
    post (view a) :=
  (comes.ok (view a)).mp ⟨a, found, rfl⟩

theorem result {a : α} (same : ∀ c, post c ↔ c = view a) (inside : ¬ stray) :
    Comes view (.ok a) post stray := by
  constructor
  · intro c
    rw [same]
    constructor
    · rintro ⟨a', found, rfl⟩
      cases found
      rfl
    · rintro rfl
      exact ⟨a, rfl, rfl⟩
  · simp [inside]

theorem fails {e : Exn} (other : e ≠ outOfBounds) (none : ∀ c, ¬ post c) (inside : ¬ stray) :
    Comes view (.error e) post stray := by
  constructor
  · intro c
    simp [none c]
  · simp [other, inside]

theorem goesOut (none : ∀ c, ¬ post c) (outside : stray) :
    Comes view (.error outOfBounds) post stray := by
  constructor
  · intro c
    simp [none c]
  · simp [outside]

theorem check {i : Nat} {f : Unit → Except Exn α}
    (after : i < data.length → Comes view (f ()) post stray)
    (refused : data.length ≤ i → (∀ c, ¬ post c) ∧ ¬ stray) :
    Comes view (checkPos (exactBuffer data) i >>= f) post stray := by
  have length : (exactBuffer data).length = data.length := rfl
  unfold checkPos
  rw [length]
  by_cases inside : i < data.length
  · rw [if_neg (by omega)]
    exact after inside
  · obtain ⟨none, within⟩ := refused (by omega)
    rw [if_pos (by omega)]
    exact fails (by simp [outOfBounds]) none within

theorem read {i : Nat} {f : UInt8 → Except Exn α} (inside : i < data.length)
    (after : Comes view (f (byte data i)) post stray) :
    Comes view ((exactBuffer data).peek i >>= f) post stray := by
  rw [peek_inside inside]
  exact after

theorem part {start size : Nat} {f : Bytes → Except Exn α}
    (after : (0 < size → start + size ≤ data.length) →
      Comes view (f (text data start size)) post stray)
    (outside : 0 < size → data.length < start + size → (∀ c, ¬ post c) ∧ stray) :
    Comes view (slice (exactBuffer data) start size >>= f) post stray := by
  by_cases leaves : 0 < size ∧ data.length < start + size
  · obtain ⟨none, strays⟩ := outside leaves.1 leaves.2
    rw [slice_outside leaves.1 leaves.2]
    exact goesOut none strays
  · by_cases empty : size = 0
    · subst empty
      have after := after (by omega)
      change Comes view (f []) post stray
      simpa [text] using after
    · rw [slice_inside (by omega)]
      exact after (by omega)

/-- A computation without reads outside. -/
theorem calm {x : Except Exn β} {f : β → Except Exn α} (inside : x ≠ .error outOfBounds)
    (after : ∀ b, x = .ok b → Comes view (f b) post stray)
    (refused : (∀ b, x ≠ .ok b) → (∀ c, ¬ post c) ∧ ¬ stray) :
    Comes view (x >>= f) post stray := by
  cases found : x with
  | error e =>
      have none : ∀ b, x ≠ .ok b := by
        intro b ok
        rw [found] at ok
        cases ok
      have other : e ≠ outOfBounds := by
        rintro rfl
        exact inside found
      exact fails other (refused none).1 (refused none).2
  | ok b => exact after b found

end Comes

/-! ### Where a loop over bytes ends -/

/-- The first byte for which a loop from `first` does not go on. -/
structure FoundAt (data : Bytes) (goes : UInt8 → Prop) (pos first x : Nat) : Prop where
  since : first ≤ x
  inside : ∀ y, first ≤ y → y ≤ x → uint (pos + y) < data.length
  before : ∀ y, first ≤ y → y < x → goes (byte data (uint (pos + y)))
  here : ¬ goes (byte data (uint (pos + x)))

variable {goes : UInt8 → Prop} {pos first x : Nat}

theorem FoundAt.unique {y : Nat} (found : FoundAt data goes pos first x)
    (found' : FoundAt data goes pos first y) : x = y := by
  rcases Nat.lt_trichotomy x y with less | same | more
  · exact absurd (found'.before x found.since less) found.here
  · exact same
  · exact absurd (found.before y found'.since more) found'.here

theorem FoundAt.first_inside (found : FoundAt data goes pos first x) :
    uint (pos + first) < data.length :=
  found.inside first (Nat.le_refl _) found.since

theorem FoundAt.stop (inside : uint (pos + first) < data.length)
    (stops : ¬ goes (byte data (uint (pos + first)))) : FoundAt data goes pos first first := by
  refine ⟨Nat.le_refl _, ?_, ?_, stops⟩
  · intro y since upto
    rw [Nat.le_antisymm upto since]
    exact inside
  · intro y since earlier
    omega

theorem FoundAt.later (inside : uint (pos + first) < data.length)
    (goesOn : goes (byte data (uint (pos + first)))) (found : FoundAt data goes pos (first + 1) x) :
    FoundAt data goes pos first x := by
  have since := found.since
  refine ⟨by omega, ?_, ?_, found.here⟩
  · intro y since upto
    rcases Nat.lt_or_eq_of_le since with later | here
    · exact found.inside y later upto
    · rw [← here]
      exact inside
  · intro y since earlier
    rcases Nat.lt_or_eq_of_le since with later | here
    · exact found.before y later earlier
    · rw [← here]
      exact goesOn

theorem FoundAt.cases (found : FoundAt data goes pos first x) :
    ¬ goes (byte data (uint (pos + first))) ∧ x = first ∨
      goes (byte data (uint (pos + first))) ∧ FoundAt data goes pos (first + 1) x := by
  rcases Nat.lt_or_eq_of_le found.since with later | here
  · refine .inr ⟨found.before first (Nat.le_refl _) later, later, ?_, ?_, found.here⟩
    · intro y since upto
      exact found.inside y (by omega) upto
    · intro y since earlier
      exact found.before y (by omega) earlier
  · refine .inl ⟨?_, here.symm⟩
    rw [here]
    exact found.here

/-- One round of a loop that looks at a byte and goes on or ends. -/
theorem round_comes [DecidablePred goes] {rounds : Nat} {next : Except Exn Nat}
    (rest : Comes id next (fun y => FoundAt data goes pos (x + 1) y ∧ y < x + 1 + rounds) False) :
    Comes id (do
        checkPos (exactBuffer data) (uint (pos + x))
        let c ← (exactBuffer data).peek (uint (pos + x))
        if goes c then next else .ok x)
      (fun y => FoundAt data goes pos x y ∧ y < x + (rounds + 1)) False := by
  apply Comes.check
  · intro inside
    apply Comes.read inside
    split
    next goesOn =>
      constructor
      · intro y
        rw [rest.ok]
        constructor
        · rintro ⟨found, few⟩
          exact ⟨.later inside goesOn found, by omega⟩
        · rintro ⟨found, few⟩
          rcases found.cases with ⟨stops, -⟩ | ⟨-, later⟩
          · exact absurd goesOn stops
          · exact ⟨later, by omega⟩
      · exact rest.out
    next stops =>
      apply Comes.result
      · intro y
        constructor
        · rintro ⟨found, -⟩
          rcases found.cases with ⟨-, same⟩ | ⟨goesOn, -⟩
          · exact same
          · exact absurd goesOn stops
        · rintro rfl
          exact ⟨.stop inside stops, by omega⟩
      · exact id
  · intro outside
    refine ⟨?_, id⟩
    rintro y ⟨found, -⟩
    have inside := found.first_inside
    omega

/-- No rounds are left. -/
theorem out_of_rounds {e : Exn} (other : e ≠ outOfBounds) :
    Comes id (.error e) (fun y => FoundAt data goes pos x y ∧ y < x + 0) False := by
  apply Comes.fails other
  · rintro y ⟨found, few⟩
    have since := found.since
    omega
  · exact id

theorem scanNumber_comes (data : Bytes) (pos rounds x : Nat) :
    Comes id (scanNumber (exactBuffer data) pos rounds x)
      (fun y => FoundAt data (fun c => c.toNat ≠ CHR_TERM) pos x y ∧ y < x + rounds) False := by
  induction rounds generalizing x with
  | zero => exact out_of_rounds (by simp [outOfBounds])
  | succ rounds ih => exact round_comes (ih (x + 1))

theorem scanSize_rounds (data : Bytes) (pos rounds x : Nat) :
    Comes id (scanSize (exactBuffer data) pos rounds x)
      (fun y => FoundAt data (fun c => c ≠ 58 ∧ c ≠ 47) pos x y ∧ y < x + rounds) False := by
  induction rounds generalizing x with
  | zero => exact out_of_rounds (by simp [outOfBounds])
  | succ rounds ih => exact round_comes (ih (x + 1))

/-- As many rounds as there are bytes are enough. -/
theorem FoundAt.near (found : FoundAt data goes pos 1 x) (inside : pos < data.length) :
    x < 1 + (data.length + 1) := by
  by_contra far
  by_cases small : data.length < 2 ^ 32
  · -- the loop would have come to the end of the data
    have last := found.inside (data.length - pos) (by omega) (by omega)
    have place : uint (pos + (data.length - pos : Nat)) = data.length := by
      unfold uint
      omega
    omega
  · -- the position comes around
    have again := found.before (x - 2 ^ 32) (by omega) (by omega)
    have place : uint (pos + (x - 2 ^ 32 : Nat)) = uint (pos + x) := by
      unfold uint
      omega
    rw [place] at again
    exact found.here again

theorem scanSize_comes (data : Bytes) (pos : Nat) (inside : pos < data.length) :
    Comes id (scanSize (exactBuffer data) pos (data.length + 1) 1)
      (fun y => FoundAt data (fun c => c ≠ 58 ∧ c ≠ 47) pos 1 y) False := by
  have rounds := scanSize_rounds data pos (data.length + 1) 1
  constructor
  · intro y
    rw [rounds.ok]
    exact ⟨And.left, fun found => ⟨found, found.near inside⟩⟩
  · exact rounds.out

/-! ### Values without members -/

/-- `width` bytes are behind the type code. -/
def FixedEnds (data : Bytes) (width p q : Nat) : Prop :=
  uint (p + width) < data.length ∧ uint (p + 1) + width ≤ data.length ∧ q = uint (p + (width + 1))

/-- The check is of a position that came around, and the bytes are not. -/
def FixedStrays (data : Bytes) (width p : Nat) : Prop :=
  uint (p + width) < data.length ∧ data.length < uint (p + 1) + width

def IsText (bs : Bytes) : Prop := ∃ s, decodeUtf8 bs = .ok s

/-- The terminator of a decimal number. -/
def NumberAt (data : Bytes) (p x : Nat) : Prop :=
  FoundAt data (fun c => c.toNat ≠ CHR_TERM) p 18 x ∧ x < MAX_INT_LENGTH

def NumberEnds (data : Bytes) (p q : Nat) : Prop :=
  ∃ x, NumberAt data p x ∧ p + x ≤ data.length ∧ (∃ n, pyInt (text data p x) = .ok n) ∧
    q = uint (p + (x + 1))

def NumberStrays (data : Bytes) (p : Nat) : Prop :=
  ∃ x, NumberAt data p x ∧ data.length < p + x

def FixedStrEnds (data : Bytes) (size p q : Nat) : Prop :=
  uint (p + size - 1) < data.length ∧ (0 < size - 1 → uint (p + 1) + (size - 1) ≤ data.length) ∧
    IsText (text data (uint (p + 1)) (size - 1)) ∧ q = uint (p + size)

def FixedStrStrays (data : Bytes) (size p : Nat) : Prop :=
  uint (p + size - 1) < data.length ∧ 0 < size - 1 ∧ data.length < uint (p + 1) + (size - 1)

/-- The separator after the size of a string, and the size. -/
def SizeAt (data : Bytes) (p x : Nat) : Prop :=
  FoundAt data (fun c => c ≠ 58 ∧ c ≠ 47) p 1 x

def IsSize (bs : Bytes) (size : Int) : Prop := (pyInt bs >>= asInt) = .ok size

/-- The body of a string, `size` bytes from `p`. -/
def BodyEnds (data : Bytes) (size : Int) (p q : Nat) (binary : Prop) : Prop :=
  uint (p + size - 1) < data.length ∧ (0 < size.toNat → p + size.toNat ≤ data.length) ∧
    (binary ∨ IsText (text data p size.toNat)) ∧ q = uint (p + size)

def BodyStrays (data : Bytes) (size : Int) (p : Nat) : Prop :=
  uint (p + size - 1) < data.length ∧ 0 < size.toNat ∧ data.length < p + size.toNat

def StrEnds (data : Bytes) (p q : Nat) : Prop :=
  ∃ x size, SizeAt data p x ∧ p + x ≤ data.length ∧ IsSize (text data p x) size ∧
    BodyEnds data size (uint (p + (x + 1))) q (byte data (uint (p + x)) = 47)

def StrStrays (data : Bytes) (p : Nat) : Prop :=
  ∃ x, SizeAt data p x ∧ (data.length < p + x ∨
    ∃ size, p + x ≤ data.length ∧ IsSize (text data p x) size ∧
      BodyStrays data size (uint (p + (x + 1))))

/-- The value at `p` ends before `q`. -/
def LeafEnds (data : Bytes) (p q : Nat) : Kind → Prop
  | .char => uint (p + 1) < data.length ∧ q = uint (p + 2)
  | .short => FixedEnds data 2 p q
  | .int | .float32 => FixedEnds data 4 p q
  | .longLong | .float64 => FixedEnds data 8 p q
  | .fixedPosInt | .fixedNegInt | .none | .true | .false => q = uint (p + 1)
  | .bigNumber => NumberEnds data (uint (p + 1)) q
  | .fixedStr => FixedStrEnds data ((byte data p).toNat - STR_FIXED_START + 1) p q
  | .str => StrEnds data p q
  | .fixedList | .list | .fixedDict | .dict | .unsupported => False

/-- Bytes of the value at `p` are read behind the end of the data. -/
def LeafStrays (data : Bytes) (p : Nat) : Kind → Prop
  | .short => FixedStrays data 2 p
  | .int | .float32 => FixedStrays data 4 p
  | .longLong | .float64 => FixedStrays data 8 p
  | .bigNumber => NumberStrays data (uint (p + 1))
  | .fixedStr => FixedStrStrays data ((byte data p).toNat - STR_FIXED_START + 1) p
  | .str => StrStrays data p
  | .char | .fixedPosInt | .fixedNegInt | .none | .true | .false | .fixedList | .list | .fixedDict
  | .dict | .unsupported => False

/-- The branches of `decode` that do not call it. -/
def decodeLeaf (bigEndian : Bool) (data : CharBuffer) (typecode pos : Nat) :
    Kind → Except Exn (PyVal × Nat)
  | .char => decodeChar data pos
  | .short => decodeShort bigEndian data pos
  | .int => decodeInt bigEndian data pos
  | .longLong => decodeLongLong bigEndian data pos
  | .fixedPosInt => .ok (decodeFixedPosInt typecode pos)
  | .fixedNegInt => .ok (decodeFixedNegInt typecode pos)
  | .bigNumber => decodeBigNumber data pos
  | .float32 => decodeFloat32 bigEndian data pos
  | .float64 => decodeFloat64 bigEndian data pos
  | .fixedStr => decodeFixedStr data typecode pos
  | .str => decodeStr data pos
  | .none => .ok (.none, uint (pos + 1))
  | .true => .ok (.bool true, uint (pos + 1))
  | .false => .ok (.bool false, uint (pos + 1))
  | .fixedList | .list | .fixedDict | .dict | .unsupported =>
      .error (.valueError s!"unsupported typecode {typecode}")

/-- Where a value ends, and whether it can be a key. -/
def extent (result : PyVal × Nat) : Bool × Nat := (hashable result.1, result.2)

abbrev LeafComes (r : Except Exn (PyVal × Nat)) (ends : Nat → Prop) (stray : Prop) : Prop :=
  Comes extent r (fun c => c.1 = true ∧ ends c.2) stray

theorem leaf_result (ends : Nat → Prop) {stray : Prop} {v : PyVal} {q : Nat}
    (plain : hashable v = true) (same : ∀ q', ends q' ↔ q' = q) (inside : ¬ stray) :
    LeafComes (.ok (v, q)) ends stray := by
  apply Comes.result
  · rintro ⟨h, q'⟩
    dsimp only [extent]
    rw [same, plain, Prod.mk.injEq]
  · exact inside

theorem char_comes (data : Bytes) (p : Nat) :
    LeafComes (decodeChar (exactBuffer data) p)
      (fun q => uint (p + 1) < data.length ∧ q = uint (p + 2)) False := by
  apply Comes.check
  · intro inside
    apply Comes.read inside
    apply leaf_result (fun q => uint (p + 1) < data.length ∧ q = uint (p + 2)) rfl
    · intro q
      exact ⟨And.right, fun same => ⟨inside, same⟩⟩
    · exact id
  · intro outside
    exact ⟨fun c ends => by omega, id⟩

/-- Any of the machine numbers. -/
theorem fixed_comes (bigEndian : Bool) (data : Bytes) (width p : Nat) (wide : 0 < width)
    (value : Nat → PyVal) (plain : ∀ n, hashable (value n) = true) :
    LeafComes (do
        let (n, pos) ← decodeFixedWidth bigEndian (exactBuffer data) width p
        .ok (value n, pos))
      (FixedEnds data width p) (FixedStrays data width p) := by
  unfold decodeFixedWidth
  rw [bind_assoc]
  apply Comes.check
  · intro inside
    rw [bind_assoc]
    apply Comes.part
    · intro fits
      have fits := fits wide
      apply leaf_result _ (plain _)
      · intro q
        exact ⟨fun ends => ends.2.2, fun same => ⟨inside, fits, same⟩⟩
      · rintro ⟨-, outside⟩
        omega
    · intro _ outside
      refine ⟨?_, inside, outside⟩
      rintro c ⟨-, -, fits, -⟩
      omega
  · intro outside
    constructor
    · rintro c ⟨-, inside, -⟩
      omega
    · rintro ⟨inside, -⟩
      omega

theorem pyInt_calm (bs : Bytes) : pyInt bs ≠ .error outOfBounds := by
  unfold pyInt
  split
  · simp
  · simp [outOfBounds]

theorem asInt_calm (n : Int) : asInt n ≠ .error outOfBounds := by
  unfold asInt
  split
  · simp
  · simp [outOfBounds]

theorem decodeUtf8_calm (bs : Bytes) : decodeUtf8 bs ≠ .error outOfBounds := by
  unfold decodeUtf8
  split
  · simp
  · simp [outOfBounds]

theorem size_calm (bs : Bytes) : (pyInt bs >>= asInt) ≠ .error outOfBounds := by
  cases found : pyInt bs with
  | error e =>
      intro out
      exact pyInt_calm bs (found.trans out)
  | ok n => exact asInt_calm n

theorem number_comes (data : Bytes) (p : Nat) :
    LeafComes (decodeBigNumber (exactBuffer data) p) (NumberEnds data (uint (p + 1)))
      (NumberStrays data (uint (p + 1))) := by
  unfold decodeBigNumber
  dsimp only
  generalize uint (p + 1) = p
  have scan := scanNumber_comes data p (MAX_INT_LENGTH - 18) 18
  apply Comes.calm (fun out => scan.out.mp out)
  · intro x found
    have here : NumberAt data p x := scan.post_of_ok found
    have only : ∀ y, NumberAt data p y → y = x := fun y other => other.1.unique here.1
    apply Comes.part
    · intro fits
      have fits := fits (by have since := here.1.since; omega)
      apply Comes.calm (pyInt_calm _)
      · intro n isNumber
        apply leaf_result _ rfl
        · intro q
          constructor
          · rintro ⟨y, other, -, -, same⟩
            rw [only y other] at same
            exact same
          · intro same
            exact ⟨x, here, fits, ⟨n, isNumber⟩, same⟩
        · rintro ⟨y, other, outside⟩
          rw [only y other] at outside
          omega
      · intro noNumber
        constructor
        · rintro c ⟨-, y, other, -, ⟨n, isNumber⟩, -⟩
          rw [only y other] at isNumber
          exact noNumber n isNumber
        · rintro ⟨y, other, outside⟩
          rw [only y other] at outside
          omega
    · intro _ outside
      refine ⟨?_, x, here, outside⟩
      rintro c ⟨-, y, other, fits, -⟩
      rw [only y other] at fits
      omega
  · intro nowhere
    have none : ∀ y, ¬ NumberAt data p y := by
      intro y here
      obtain ⟨x, found, -⟩ := (scan.ok y).mpr here
      exact nowhere x found
    constructor
    · rintro c ⟨-, y, here, -⟩
      exact none y here
    · rintro ⟨y, here, -⟩
      exact none y here

theorem fixedStr_comes (data : Bytes) (typecode p : Nat) :
    LeafComes (decodeFixedStr (exactBuffer data) typecode p)
      (FixedStrEnds data (typecode - STR_FIXED_START + 1) p)
      (FixedStrStrays data (typecode - STR_FIXED_START + 1) p) := by
  unfold decodeFixedStr
  dsimp only
  generalize typecode - STR_FIXED_START + 1 = size
  apply Comes.check
  · intro inside
    apply Comes.part
    · intro fits
      apply Comes.calm (decodeUtf8_calm _)
      · intro s isText
        apply leaf_result _ rfl
        · intro q
          exact ⟨fun ends => ends.2.2.2, fun same => ⟨inside, fits, ⟨s, isText⟩, same⟩⟩
        · rintro ⟨-, filled, outside⟩
          have fits := fits filled
          omega
      · intro noText
        constructor
        · rintro c ⟨-, -, -, ⟨s, isText⟩, -⟩
          exact noText s isText
        · rintro ⟨-, filled, outside⟩
          have fits := fits filled
          omega
    · intro filled outside
      refine ⟨?_, inside, filled, outside⟩
      rintro c ⟨-, -, fits, -⟩
      have fits := fits filled
      omega
  · intro outside
    constructor
    · rintro c ⟨-, inside, -⟩
      omega
    · rintro ⟨inside, -⟩
      omega

/-- The body of a string, when its size is known. -/
theorem body_comes (data : Bytes) (size : Int) (p : Nat) (separator : UInt8) :
    LeafComes (do
        checkPos (exactBuffer data) (uint (p + size - 1))
        let s ← slice (exactBuffer data) p size.toNat
        let pos := uint (p + size)
        if separator = 47 then .ok (.bytes s, pos)
        else do
          let text ← decodeUtf8 s
          .ok (.str text, pos))
      (fun q => BodyEnds data size p q (separator = 47)) (BodyStrays data size p) := by
  apply Comes.check
  · intro inside
    apply Comes.part
    · intro fits
      have within : ¬ BodyStrays data size p := by
        rintro ⟨-, filled, outside⟩
        have fits := fits filled
        omega
      dsimp only
      split
      next binary =>
        apply leaf_result (fun q => BodyEnds data size p q (separator = 47)) rfl
        · intro q
          exact ⟨fun ends => ends.2.2.2, fun same => ⟨inside, fits, .inl binary, same⟩⟩
        · exact within
      next unicode =>
        apply Comes.calm (decodeUtf8_calm _)
        · intro s isText
          apply leaf_result (fun q => BodyEnds data size p q (separator = 47)) rfl
          · intro q
            exact ⟨fun ends => ends.2.2.2, fun same => ⟨inside, fits, .inr ⟨s, isText⟩, same⟩⟩
          · exact within
        · intro noText
          refine ⟨?_, within⟩
          rintro c ⟨-, -, -, binary | ⟨s, isText⟩, -⟩
          · exact unicode binary
          · exact noText s isText
    · intro filled outside
      refine ⟨?_, inside, filled, outside⟩
      rintro c ⟨-, -, fits, -⟩
      have fits := fits filled
      omega
  · intro outside
    constructor
    · rintro c ⟨-, inside, -⟩
      omega
    · rintro ⟨inside, -⟩
      omega

theorem str_comes (data : Bytes) (p : Nat) (before : p < data.length) :
    LeafComes (decodeStr (exactBuffer data) p) (StrEnds data p) (StrStrays data p) := by
  unfold decodeStr
  have scan := scanSize_comes data p before
  apply Comes.calm (fun out => scan.out.mp out)
  · intro x found
    have here : SizeAt data p x := scan.post_of_ok found
    have only : ∀ y, SizeAt data p y → y = x := fun y other => other.unique here
    have positive := here.since
    unfold sizeBefore
    rw [bind_assoc]
    apply Comes.part
    · intro fits
      have fits := fits positive
      dsimp only
      apply Comes.calm (size_calm _)
      · intro size isSize
        apply Comes.read (here.inside x positive (Nat.le_refl x))
        have body := body_comes data size (uint (p + (x + 1))) (byte data (uint (p + x)))
        have onlySize : ∀ size', IsSize (text data p x) size' → size' = size :=
          fun size' other => Except.ok.inj (other.symm.trans isSize)
        constructor
        · intro c
          refine (body.ok c).trans ⟨?_, ?_⟩
          · rintro ⟨plain, ends⟩
            exact ⟨plain, x, size, here, fits, isSize, ends⟩
          · rintro ⟨plain, y, size', other, -, otherSize, ends⟩
            rw [only y other] at otherSize ends
            rw [onlySize size' otherSize] at ends
            exact ⟨plain, ends⟩
        · refine body.out.trans ⟨?_, ?_⟩
          · intro strays
            exact ⟨x, here, .inr ⟨size, fits, isSize, strays⟩⟩
          · rintro ⟨y, other, outside | ⟨size', -, otherSize, strays⟩⟩
            · rw [only y other] at outside
              omega
            · rw [only y other] at otherSize strays
              rw [onlySize size' otherSize] at strays
              exact strays
      · intro noSize
        constructor
        · rintro c ⟨-, y, size, other, -, isSize, -⟩
          rw [only y other] at isSize
          exact noSize size isSize
        · rintro ⟨y, other, outside | ⟨size, -, isSize, -⟩⟩
          · rw [only y other] at outside
            omega
          · rw [only y other] at isSize
            exact noSize size isSize
    · intro _ outside
      refine ⟨?_, x, here, .inl outside⟩
      rintro c ⟨-, y, size, other, fits, -⟩
      rw [only y other] at fits
      omega
  · intro nowhere
    have none : ∀ y, ¬ SizeAt data p y := by
      intro y here
      obtain ⟨x, found, -⟩ := (scan.ok y).mpr here
      exact nowhere x found
    constructor
    · rintro c ⟨-, y, size, here, -⟩
      exact none y here
    · rintro ⟨y, here, -⟩
      exact none y here

theorem leaf_comes (bigEndian : Bool) (data : Bytes) (p : Nat) (before : p < data.length) (kind : Kind) :
    LeafComes (decodeLeaf bigEndian (exactBuffer data) (byte data p).toNat p kind)
      (fun q => LeafEnds data p q kind) (LeafStrays data p kind) := by
  have single : ∀ v, hashable v = true →
      LeafComes (.ok (v, uint (p + 1))) (fun q => q = uint (p + 1)) False := fun v plain =>
    leaf_result _ plain (fun q => Iff.rfl) id
  have refused : ∀ e, e ≠ outOfBounds → LeafComes (.error e) (fun _ => False) False :=
    fun e other => Comes.fails other (fun c impossible => impossible.2) id
  cases kind with
  | char => exact char_comes data p
  | short =>
      exact fixed_comes bigEndian data 2 p (by decide) (fun n => .int (BitVec.ofNat 16 n).toInt) fun n => rfl
  | int =>
      exact fixed_comes bigEndian data 4 p (by decide) (fun n => .int (BitVec.ofNat 32 n).toInt) fun n => rfl
  | longLong =>
      exact fixed_comes bigEndian data 8 p (by decide) (fun n => .int (BitVec.ofNat 64 n).toInt) fun n => rfl
  | fixedPosInt => exact single _ rfl
  | fixedNegInt => exact single _ rfl
  | bigNumber => exact number_comes data p
  | float32 =>
      exact fixed_comes bigEndian data 4 p (by decide) (fun n => .float (widenFloat n)) fun n => rfl
  | float64 =>
      exact fixed_comes bigEndian data 8 p (by decide) (fun n => .float (BitVec.ofNat 64 n)) fun n => rfl
  | fixedStr => exact fixedStr_comes data _ p
  | str => exact str_comes data p before
  | none => exact single _ rfl
  | true => exact single _ rfl
  | false => exact single _ rfl
  | fixedList => exact refused _ (by simp [outOfBounds])
  | list => exact refused _ (by simp [outOfBounds])
  | fixedDict => exact refused _ (by simp [outOfBounds])
  | dict => exact refused _ (by simp [outOfBounds])
  | unsupported => exact refused _ (by simp [outOfBounds])

end Catlink.Rencodeplus
