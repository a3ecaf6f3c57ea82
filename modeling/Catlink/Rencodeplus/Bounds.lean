import Catlink.Rencodeplus.Leaves

/-! Where the decoder leaves the data: what it comes to at each position, by rules over the bytes. -/

namespace Catlink.Rencodeplus

variable {data : Bytes}

def kindAt (data : Bytes) (p : Nat) : Kind := kindOf (byte data p).toNat

/-- What the decoder is about to do: a value, or the rest of a container's loop. -/
inductive Task
  | item (p : Nat)
  | fixedList (size p : Nat)
  | list (p : Nat)
  | fixedDict (size p : Nat)
  | dict (p : Nat)

def listSize (data : Bytes) (p : Nat) : Nat := (byte data p).toNat - LIST_FIXED_START

def dictSize (data : Bytes) (p : Nat) : Nat := (byte data p).toNat - DICT_FIXED_START

def Terminated (data : Bytes) (p : Nat) : Prop := p < data.length ∧ (byte data p).toNat = CHR_TERM

/-- The task is done before a position; the values there may be keys or not. -/
inductive Ends (data : Bytes) : Task → Bool → Nat → Prop
  | leaf {p q : Nat} (inside : p < data.length) (ends : LeafEnds data p q (kindAt data p)) :
      Ends data (.item p) true q
  | fixedList {p q : Nat} {key : Bool} (inside : p < data.length) (kind : kindAt data p = .fixedList)
      (members : Ends data (.fixedList (listSize data p) (uint (p + 1))) key q) :
      Ends data (.item p) key q
  | list {p q : Nat} {key : Bool} (inside : p < data.length) (kind : kindAt data p = .list)
      (members : Ends data (.list (uint (p + 1))) key q) : Ends data (.item p) key q
  | fixedDict {p q : Nat} (inside : p < data.length) (kind : kindAt data p = .fixedDict)
      (entries : Ends data (.fixedDict (dictSize data p) (uint (p + 1))) false q) :
      Ends data (.item p) false q
  | dict {p q : Nat} (inside : p < data.length) (kind : kindAt data p = .dict)
      (some : uint (p + 1) < data.length) (entries : Ends data (.dict (uint (p + 1))) false q) :
      Ends data (.item p) false q
  | noMember {p : Nat} : Ends data (.fixedList 0 p) true p
  | member {size p q r : Nat} {key keys : Bool} (head : Ends data (.item p) key q)
      (rest : Ends data (.fixedList size q) keys r) :
      Ends data (.fixedList (size + 1) p) (key && keys) r
  | listEnd {p : Nat} (here : Terminated data p) : Ends data (.list p) true (uint (p + 1))
  | listMember {p q r : Nat} {key keys : Bool} (head : Ends data (.item p) key q)
      (rest : Ends data (.list q) keys r) : Ends data (.list p) (key && keys) r
  | noEntry {p : Nat} : Ends data (.fixedDict 0 p) false p
  | entry {size p q r s : Nat} {other : Bool} (key : Ends data (.item p) true q)
      (value : Ends data (.item q) other r) (rest : Ends data (.fixedDict size r) false s) :
      Ends data (.fixedDict (size + 1) p) false s
  | dictEnd {p : Nat} (here : Terminated data p) : Ends data (.dict p) false (uint (p + 1))
  | dictEntry {p q r s : Nat} {other : Bool} (key : Ends data (.item p) true q)
      (value : Ends data (.item q) other r) (rest : Ends data (.dict r) false s) :
      Ends data (.dict p) false s

/-- The task comes to a read behind the end: the test of a list's loop, or that of a dictionary's
after an entry, at the end of the data, or bytes whose check was of a position that came around. -/
inductive Strays (data : Bytes) : Task → Prop
  | leaf {p : Nat} (inside : p < data.length) (strays : LeafStrays data p (kindAt data p)) :
      Strays data (.item p)
  | fixedList {p : Nat} (inside : p < data.length) (kind : kindAt data p = .fixedList)
      (members : Strays data (.fixedList (listSize data p) (uint (p + 1)))) : Strays data (.item p)
  | list {p : Nat} (inside : p < data.length) (kind : kindAt data p = .list)
      (members : Strays data (.list (uint (p + 1)))) : Strays data (.item p)
  | fixedDict {p : Nat} (inside : p < data.length) (kind : kindAt data p = .fixedDict)
      (entries : Strays data (.fixedDict (dictSize data p) (uint (p + 1)))) : Strays data (.item p)
  | dict {p : Nat} (inside : p < data.length) (kind : kindAt data p = .dict)
      (some : uint (p + 1) < data.length) (entries : Strays data (.dict (uint (p + 1)))) :
      Strays data (.item p)
  | member {size p : Nat} (head : Strays data (.item p)) : Strays data (.fixedList (size + 1) p)
  | members {size p q : Nat} {key : Bool} (head : Ends data (.item p) key q)
      (rest : Strays data (.fixedList size q)) : Strays data (.fixedList (size + 1) p)
  | listTest {p : Nat} (outside : data.length ≤ p) : Strays data (.list p)
  | listMember {p : Nat} (head : Strays data (.item p)) : Strays data (.list p)
  | listMembers {p q : Nat} {key : Bool} (head : Ends data (.item p) key q)
      (rest : Strays data (.list q)) : Strays data (.list p)
  | key {size p : Nat} (key : Strays data (.item p)) : Strays data (.fixedDict (size + 1) p)
  | value {size p q : Nat} {hash : Bool} (key : Ends data (.item p) hash q)
      (value : Strays data (.item q)) : Strays data (.fixedDict (size + 1) p)
  | entries {size p q r : Nat} {other : Bool} (key : Ends data (.item p) true q)
      (value : Ends data (.item q) other r) (rest : Strays data (.fixedDict size r)) :
      Strays data (.fixedDict (size + 1) p)
  | dictTest {p : Nat} (outside : data.length ≤ p) : Strays data (.dict p)
  | dictKey {p : Nat} (key : Strays data (.item p)) : Strays data (.dict p)
  | dictValue {p q : Nat} {hash : Bool} (key : Ends data (.item p) hash q)
      (value : Strays data (.item q)) : Strays data (.dict p)
  | dictEntries {p q r : Nat} {other : Bool} (key : Ends data (.item p) true q)
      (value : Ends data (.item q) other r) (rest : Strays data (.dict r)) : Strays data (.dict p)

/-! ### One call -/

/-- The branches of `decode`. -/
def decodeKind (bigEndian : Bool) (data : CharBuffer) (fuel typecode pos : Nat) :
    Kind → Except Exn (PyVal × Nat)
  | .fixedList => do
      let (items, pos) ←
        decodeFixedList bigEndian data fuel (typecode - LIST_FIXED_START) (uint (pos + 1))
      .ok (.tuple items, pos)
  | .list => do
      let (items, pos) ← decodeList bigEndian data fuel (uint (pos + 1))
      .ok (.tuple items, pos)
  | .fixedDict => do
      let (d, pos) ←
        decodeFixedDict bigEndian data fuel (typecode - DICT_FIXED_START) [] (uint (pos + 1))
      .ok (.dict d, pos)
  | .dict => do
      checkPos data (uint (pos + 1))
      let (d, pos) ← decodeDict bigEndian data fuel [] (uint (pos + 1))
      .ok (.dict d, pos)
  | kind => decodeLeaf bigEndian data typecode pos kind

theorem checkPos_inside {p : Nat} (inside : p < data.length) :
    checkPos (exactBuffer data) p = .ok () :=
  if_neg (Nat.not_le.mpr inside)

theorem checkPos_outside {p : Nat} (outside : data.length ≤ p) :
    ∃ text, checkPos (exactBuffer data) p = .error (.indexError text) :=
  ⟨_, if_pos outside⟩

theorem decode_inside (bigEndian : Bool) (fuel : Nat) {p : Nat} (inside : p < data.length) :
    decode bigEndian (exactBuffer data) (fuel + 1) p =
      decodeKind bigEndian (exactBuffer data) fuel (byte data p).toNat p (kindAt data p) := by
  rw [decode, checkPos_inside inside, peek_inside inside]
  dsimp only [bind, Except.bind]
  unfold kindAt
  generalize (byte data p).toNat = typecode
  generalize kindOf typecode = kind
  cases kind with
  | _ => simp only [decodeKind, decodeLeaf, bind, Except.bind]

theorem decode_outside (bigEndian : Bool) (fuel : Nat) {p : Nat} (outside : data.length ≤ p) :
    ∃ text, decode bigEndian (exactBuffer data) (fuel + 1) p = .error (.indexError text) := by
  obtain ⟨text, refused⟩ := checkPos_outside outside
  rw [decode, refused]
  exact ⟨text, rfl⟩

/-! ### What the rules say of the decoder -/

def Finishes (bigEndian : Bool) (data : Bytes) (fuel : Nat) : Task → Bool → Nat → Prop
  | .item p, key, q => ∃ v, decode bigEndian (exactBuffer data) fuel p = .ok (v, q) ∧ hashable v = key
  | .fixedList size p, key, q => ∃ vs,
      decodeFixedList bigEndian (exactBuffer data) fuel size p = .ok (vs, q) ∧ hashableAll vs = key
  | .list p, key, q => ∃ vs,
      decodeList bigEndian (exactBuffer data) fuel p = .ok (vs, q) ∧ hashableAll vs = key
  | .fixedDict size p, _, q => ∀ d, ∃ d',
      decodeFixedDict bigEndian (exactBuffer data) fuel size d p = .ok (d', q)
  | .dict p, _, q => ∀ d, ∃ d', decodeDict bigEndian (exactBuffer data) fuel d p = .ok (d', q)

def Fails (bigEndian : Bool) (data : Bytes) (fuel : Nat) (e : Exn → Prop) : Task → Prop
  | .item p => ∃ x, decode bigEndian (exactBuffer data) fuel p = .error x ∧ e x
  | .fixedList size p => ∃ x, decodeFixedList bigEndian (exactBuffer data) fuel size p = .error x ∧ e x
  | .list p => ∃ x, decodeList bigEndian (exactBuffer data) fuel p = .error x ∧ e x
  | .fixedDict size p => ∀ d, ∃ x,
      decodeFixedDict bigEndian (exactBuffer data) fuel size d p = .error x ∧ e x
  | .dict p => ∀ d, ∃ x, decodeDict bigEndian (exactBuffer data) fuel d p = .error x ∧ e x

/-- From some fuel on. -/
def Eventually (p : Nat → Prop) : Prop := ∃ n, ∀ fuel, n ≤ fuel → p fuel

theorem Eventually.next {p q : Nat → Prop} (holds : Eventually p) (step : ∀ fuel, p fuel → q (fuel + 1)) :
    Eventually q := by
  obtain ⟨n, all⟩ := holds
  refine ⟨n + 1, ?_⟩
  intro fuel enough
  have below : fuel - 1 + 1 = fuel := by omega
  rw [← below]
  exact step _ (all _ (by omega))

theorem Eventually.and {p q : Nat → Prop} (left : Eventually p) (right : Eventually q) :
    Eventually fun fuel => p fuel ∧ q fuel := by
  obtain ⟨n, all⟩ := left
  obtain ⟨m, all'⟩ := right
  refine ⟨max n m, ?_⟩
  intro fuel enough
  exact ⟨all fuel (by omega), all' fuel (by omega)⟩

theorem Eventually.always {p : Nat → Prop} (holds : ∀ fuel, p (fuel + 1)) : Eventually p := by
  refine ⟨1, ?_⟩
  intro fuel enough
  have below : fuel - 1 + 1 = fuel := by omega
  rw [← below]
  exact holds _

theorem decodeKind_leaf (bigEndian : Bool) (data : CharBuffer) (fuel typecode pos : Nat) {kind : Kind}
    (leaf : kind ≠ .fixedList ∧ kind ≠ .list ∧ kind ≠ .fixedDict ∧ kind ≠ .dict) :
    decodeKind bigEndian data fuel typecode pos kind =
      decodeLeaf bigEndian data typecode pos kind := by
  obtain ⟨fixedList, list, fixedDict, dict⟩ := leaf
  cases kind with
  | fixedList => exact absurd rfl fixedList
  | list => exact absurd rfl list
  | fixedDict => exact absurd rfl fixedDict
  | dict => exact absurd rfl dict
  | _ => rfl

theorem leafEnds_leaf {p q : Nat} {kind : Kind} (ends : LeafEnds data p q kind) :
    kind ≠ .fixedList ∧ kind ≠ .list ∧ kind ≠ .fixedDict ∧ kind ≠ .dict := by
  refine ⟨?_, ?_, ?_, ?_⟩ <;> rintro rfl <;> exact ends

theorem leafStrays_leaf {p : Nat} {kind : Kind} (strays : LeafStrays data p kind) :
    kind ≠ .fixedList ∧ kind ≠ .list ∧ kind ≠ .fixedDict ∧ kind ≠ .dict := by
  refine ⟨?_, ?_, ?_, ?_⟩ <;> rintro rfl <;> exact strays

theorem bind_found {α β : Type} {r : Except Exn (α × Nat)} {a : α} {q : Nat} {f : α → β}
    (found : r = .ok (a, q)) :
    (r >>= fun x => match x with | (a, q) => Except.ok (f a, q)) = .ok (f a, q) := by
  rw [found]
  rfl

theorem bind_failed {α β : Type} {r : Except Exn α} {e : Exn} {f : α → Except Exn β}
    (found : r = .error e) : (r >>= f) = .error e := by
  rw [found]
  rfl

/-- A value begins here, or something that is none. -/
def Begins (data : Bytes) (p : Nat) : Prop :=
  p < data.length ∧ (byte data p).toNat ≠ CHR_TERM

theorem decode_terminator (bigEndian : Bool) (fuel : Nat) {p : Nat} (here : Terminated data p) :
    (∃ text, decode bigEndian (exactBuffer data) fuel p = .error (.valueError text)) ∨
      decode bigEndian (exactBuffer data) fuel p = .error (.other "out of fuel") := by
  cases fuel with
  | zero => exact .inr rfl
  | succ fuel =>
      rw [decode_inside bigEndian fuel here.1]
      unfold kindAt
      rw [here.2]
      exact .inl ⟨_, rfl⟩

/-- Nothing but an error of another kind comes of a position where no value begins. -/
theorem decode_begins {bigEndian : Bool} {fuel p : Nat} {r : Except Exn (PyVal × Nat)}
    (found : decode bigEndian (exactBuffer data) fuel p = r)
    (means : (∃ result, r = .ok result) ∨ r = .error outOfBounds) : Begins data p := by
  have refused : ∀ e, e ≠ outOfBounds → r ≠ .error e := by
    rintro e other rfl
    rcases means with ⟨result, ok⟩ | out
    · cases ok
    · exact other (Except.error.inj out)
  constructor
  · by_contra outside
    cases fuel with
    | zero => exact refused _ (by simp [outOfBounds]) found.symm
    | succ fuel =>
        obtain ⟨text, e⟩ := decode_outside bigEndian fuel (Nat.not_lt.mp outside)
        exact refused _ (by simp [outOfBounds]) (found.symm.trans e)
  · intro terminator
    have inside : p < data.length := by
      by_contra outside
      cases fuel with
      | zero => exact refused _ (by simp [outOfBounds]) found.symm
      | succ fuel =>
          obtain ⟨text, e⟩ := decode_outside bigEndian fuel (Nat.not_lt.mp outside)
          exact refused _ (by simp [outOfBounds]) (found.symm.trans e)
    rcases decode_terminator bigEndian fuel ⟨inside, terminator⟩ with ⟨text, e⟩ | e
    · exact refused _ (by simp [outOfBounds]) (found.symm.trans e)
    · exact refused _ (by simp [outOfBounds]) (found.symm.trans e)

theorem decodeList_goes {bigEndian : Bool} {fuel p : Nat} (begins : Begins data p) :
    decodeList bigEndian (exactBuffer data) (fuel + 1) p = (do
      let (item, pos) ← decode bigEndian (exactBuffer data) fuel p
      let (items, pos) ← decodeList bigEndian (exactBuffer data) fuel pos
      .ok (item :: items, pos)) := by
  rw [decodeList, peek_inside begins.1]
  exact if_pos begins.2

theorem decodeDict_goes {bigEndian : Bool} {fuel p : Nat} {d : List (PyVal × PyVal)}
    (begins : Begins data p) :
    decodeDict bigEndian (exactBuffer data) (fuel + 1) d p = (do
      let (k, pos) ← decode bigEndian (exactBuffer data) fuel p
      let (v, pos) ← decode bigEndian (exactBuffer data) fuel pos
      let d ← setItem d k v
      decodeDict bigEndian (exactBuffer data) fuel d pos) := by
  rw [decodeDict, peek_inside begins.1]
  exact if_pos begins.2

theorem ends_finishes (bigEndian : Bool) {t : Task} {key : Bool} {q : Nat} (ends : Ends data t key q) :
    Eventually fun fuel => Finishes bigEndian data fuel t key q := by
  induction ends with
  | @leaf p q inside ends =>
      apply Eventually.always
      intro fuel
      have leaf := leaf_comes bigEndian data p inside (kindAt data p)
      obtain ⟨⟨v, q'⟩, found, same⟩ := (leaf.ok (true, _)).mpr ⟨rfl, ends⟩
      have extents := Prod.mk.inj same
      refine ⟨v, ?_, extents.1⟩
      rw [decode_inside bigEndian fuel inside, decodeKind_leaf _ _ _ _ _ (leafEnds_leaf ends), found,
        ← extents.2]
  | fixedList inside kind members ih =>
      apply ih.next
      rintro fuel ⟨vs, found, keys⟩
      refine ⟨.tuple vs, ?_, by rw [hashable, keys]⟩
      rw [decode_inside bigEndian fuel inside, kind]
      exact bind_found found
  | list inside kind members ih =>
      apply ih.next
      rintro fuel ⟨vs, found, keys⟩
      refine ⟨.tuple vs, ?_, by rw [hashable, keys]⟩
      rw [decode_inside bigEndian fuel inside, kind]
      exact bind_found found
  | fixedDict inside kind entries ih =>
      apply ih.next
      intro fuel finishes
      obtain ⟨d, found⟩ := finishes []
      refine ⟨.dict d, ?_, rfl⟩
      rw [decode_inside bigEndian fuel inside, kind]
      exact bind_found found
  | dict inside kind some entries ih =>
      apply ih.next
      intro fuel finishes
      obtain ⟨d, found⟩ := finishes []
      refine ⟨.dict d, ?_, rfl⟩
      rw [decode_inside bigEndian fuel inside, kind, decodeKind, checkPos_inside some]
      exact bind_found found
  | noMember =>
      apply Eventually.always
      intro fuel
      exact ⟨[], rfl, rfl⟩
  | member head rest ihHead ihRest =>
      apply (ihHead.and ihRest).next
      rintro fuel ⟨⟨v, first, key⟩, vs, later, keys⟩
      refine ⟨v :: vs, ?_, by rw [hashableAll, key, keys]⟩
      rw [decodeFixedList, first]
      exact bind_found later
  | listEnd here =>
      apply Eventually.always
      intro fuel
      refine ⟨[], ?_, rfl⟩
      rw [decodeList, peek_inside here.1]
      exact if_neg (not_not.mpr here.2)
  | listMember head rest ihHead ihRest =>
      apply (ihHead.and ihRest).next
      rintro fuel ⟨⟨v, first, key⟩, vs, later, keys⟩
      refine ⟨v :: vs, ?_, by rw [hashableAll, key, keys]⟩
      rw [decodeList_goes (decode_begins first (.inl ⟨_, rfl⟩)), first]
      exact bind_found later
  | noEntry =>
      apply Eventually.always
      intro fuel d
      exact ⟨d, rfl⟩
  | entry key value rest ihKey ihValue ihRest =>
      apply ((ihKey.and ihValue).and ihRest).next
      rintro fuel ⟨⟨⟨k, first, hash⟩, v, second, -⟩, later⟩ d
      obtain ⟨d', later⟩ := later (setEntry k v d)
      refine ⟨d', ?_⟩
      rw [decodeFixedDict, first]
      change (decode bigEndian (exactBuffer data) fuel _ >>= _) = _
      rw [second]
      change (setItem d k v >>= _) = _
      rw [setItem, if_pos hash]
      exact later
  | dictEnd here =>
      apply Eventually.always
      intro fuel d
      refine ⟨d, ?_⟩
      rw [decodeDict, peek_inside here.1]
      exact if_neg (not_not.mpr here.2)
  | dictEntry key value rest ihKey ihValue ihRest =>
      apply ((ihKey.and ihValue).and ihRest).next
      rintro fuel ⟨⟨⟨k, first, hash⟩, v, second, -⟩, later⟩ d
      obtain ⟨d', later⟩ := later (setEntry k v d)
      refine ⟨d', ?_⟩
      rw [decodeDict_goes (decode_begins first (.inl ⟨_, rfl⟩)), first]
      change (decode bigEndian (exactBuffer data) fuel _ >>= _) = _
      rw [second]
      change (setItem d k v >>= _) = _
      rw [setItem, if_pos hash]
      exact later

theorem ends_begins {p q : Nat} {key : Bool} (ends : Ends data (.item p) key q) : Begins data p := by
  obtain ⟨fuel, finishes⟩ := ends_finishes false ends
  obtain ⟨v, found, -⟩ := finishes fuel (Nat.le_refl fuel)
  exact decode_begins found (.inl ⟨_, rfl⟩)

/-! ### How an error spreads -/

/-- With enough fuel there is an error. -/
def Failing (bigEndian : Bool) (data : Bytes) (e : Exn → Prop) (t : Task) : Prop :=
  Eventually fun fuel => Fails bigEndian data fuel e t

namespace Failing

variable {bigEndian : Bool} {e : Exn → Prop} {p q r size : Nat} {hash other : Bool}

theorem fixedList (inside : p < data.length) (kind : kindAt data p = .fixedList)
    (members : Failing bigEndian data e (.fixedList (listSize data p) (uint (p + 1)))) :
    Failing bigEndian data e (.item p) := by
  apply Eventually.next members
  rintro fuel ⟨x, found, is⟩
  refine ⟨x, ?_, is⟩
  rw [decode_inside bigEndian fuel inside, kind]
  exact bind_failed found

theorem list (inside : p < data.length) (kind : kindAt data p = .list)
    (members : Failing bigEndian data e (.list (uint (p + 1)))) :
    Failing bigEndian data e (.item p) := by
  apply Eventually.next members
  rintro fuel ⟨x, found, is⟩
  refine ⟨x, ?_, is⟩
  rw [decode_inside bigEndian fuel inside, kind]
  exact bind_failed found

theorem fixedDict (inside : p < data.length) (kind : kindAt data p = .fixedDict)
    (entries : Failing bigEndian data e (.fixedDict (dictSize data p) (uint (p + 1)))) :
    Failing bigEndian data e (.item p) := by
  apply Eventually.next entries
  intro fuel fails
  obtain ⟨x, found, is⟩ := fails []
  refine ⟨x, ?_, is⟩
  rw [decode_inside bigEndian fuel inside, kind]
  exact bind_failed found

theorem dict (inside : p < data.length) (kind : kindAt data p = .dict)
    (some : uint (p + 1) < data.length)
    (entries : Failing bigEndian data e (.dict (uint (p + 1)))) :
    Failing bigEndian data e (.item p) := by
  apply Eventually.next entries
  intro fuel fails
  obtain ⟨x, found, is⟩ := fails []
  refine ⟨x, ?_, is⟩
  rw [decode_inside bigEndian fuel inside, kind, decodeKind, checkPos_inside some]
  change (decodeDict bigEndian (exactBuffer data) fuel _ _ >>= _) = _
  exact bind_failed found

theorem member (head : Failing bigEndian data e (.item p)) :
    Failing bigEndian data e (.fixedList (size + 1) p) := by
  apply Eventually.next head
  rintro fuel ⟨x, found, is⟩
  refine ⟨x, ?_, is⟩
  rw [decodeFixedList]
  exact bind_failed found

theorem members (head : Ends data (.item p) hash q)
    (rest : Failing bigEndian data e (.fixedList size q)) :
    Failing bigEndian data e (.fixedList (size + 1) p) := by
  apply ((ends_finishes bigEndian head).and rest).next
  rintro fuel ⟨⟨v, first, -⟩, x, found, is⟩
  refine ⟨x, ?_, is⟩
  rw [decodeFixedList, first]
  change (decodeFixedList bigEndian (exactBuffer data) fuel _ _ >>= _) = _
  exact bind_failed found

theorem listTest (outside : data.length ≤ p) (is : e outOfBounds) :
    Failing bigEndian data e (.list p) := by
  apply Eventually.always
  intro fuel
  refine ⟨_, ?_, is⟩
  rw [decodeList, peek_outside outside]
  rfl

theorem listMember (begins : Begins data p) (head : Failing bigEndian data e (.item p)) :
    Failing bigEndian data e (.list p) := by
  apply Eventually.next head
  rintro fuel ⟨x, found, is⟩
  refine ⟨x, ?_, is⟩
  rw [decodeList_goes begins]
  exact bind_failed found

theorem listMembers (head : Ends data (.item p) hash q) (rest : Failing bigEndian data e (.list q)) :
    Failing bigEndian data e (.list p) := by
  apply ((ends_finishes bigEndian head).and rest).next
  rintro fuel ⟨⟨v, first, -⟩, x, found, is⟩
  refine ⟨x, ?_, is⟩
  rw [decodeList_goes (ends_begins head), first]
  change (decodeList bigEndian (exactBuffer data) fuel _ >>= _) = _
  exact bind_failed found

theorem key (key : Failing bigEndian data e (.item p)) :
    Failing bigEndian data e (.fixedDict (size + 1) p) := by
  apply Eventually.next key
  rintro fuel ⟨x, found, is⟩ d
  refine ⟨x, ?_, is⟩
  rw [decodeFixedDict]
  exact bind_failed found

theorem value (key : Ends data (.item p) hash q)
    (value : Failing bigEndian data e (.item q)) :
    Failing bigEndian data e (.fixedDict (size + 1) p) := by
  apply ((ends_finishes bigEndian key).and value).next
  rintro fuel ⟨⟨k, first, -⟩, x, found, is⟩ d
  refine ⟨x, ?_, is⟩
  rw [decodeFixedDict, first]
  change (decode bigEndian (exactBuffer data) fuel _ >>= _) = _
  exact bind_failed found

theorem entries (key : Ends data (.item p) true q) (value : Ends data (.item q) other r)
    (rest : Failing bigEndian data e (.fixedDict size r)) :
    Failing bigEndian data e (.fixedDict (size + 1) p) := by
  apply (((ends_finishes bigEndian key).and (ends_finishes bigEndian value)).and rest).next
  rintro fuel ⟨⟨⟨k, first, hash⟩, v, second, -⟩, fails⟩ d
  obtain ⟨x, found, is⟩ := fails (setEntry k v d)
  refine ⟨x, ?_, is⟩
  rw [decodeFixedDict, first]
  change (decode bigEndian (exactBuffer data) fuel _ >>= _) = _
  rw [second]
  change (setItem d k v >>= _) = _
  rw [setItem, if_pos hash]
  exact found

theorem dictTest (outside : data.length ≤ p) (is : e outOfBounds) :
    Failing bigEndian data e (.dict p) := by
  apply Eventually.always
  intro fuel d
  refine ⟨_, ?_, is⟩
  rw [decodeDict, peek_outside outside]
  rfl

theorem dictKey (begins : Begins data p) (key : Failing bigEndian data e (.item p)) :
    Failing bigEndian data e (.dict p) := by
  apply Eventually.next key
  rintro fuel ⟨x, found, is⟩ d
  refine ⟨x, ?_, is⟩
  rw [decodeDict_goes begins]
  exact bind_failed found

theorem dictValue (key : Ends data (.item p) hash q)
    (value : Failing bigEndian data e (.item q)) : Failing bigEndian data e (.dict p) := by
  apply ((ends_finishes bigEndian key).and value).next
  rintro fuel ⟨⟨k, first, -⟩, x, found, is⟩ d
  refine ⟨x, ?_, is⟩
  rw [decodeDict_goes (ends_begins key), first]
  change (decode bigEndian (exactBuffer data) fuel _ >>= _) = _
  exact bind_failed found

theorem dictEntries (key : Ends data (.item p) true q) (value : Ends data (.item q) other r)
    (rest : Failing bigEndian data e (.dict r)) : Failing bigEndian data e (.dict p) := by
  apply (((ends_finishes bigEndian key).and (ends_finishes bigEndian value)).and rest).next
  rintro fuel ⟨⟨⟨k, first, hash⟩, v, second, -⟩, fails⟩ d
  obtain ⟨x, found, is⟩ := fails (setEntry k v d)
  refine ⟨x, ?_, is⟩
  rw [decodeDict_goes (ends_begins key), first]
  change (decode bigEndian (exactBuffer data) fuel _ >>= _) = _
  rw [second]
  change (setItem d k v >>= _) = _
  rw [setItem, if_pos hash]
  exact found

end Failing

theorem strays_begins {bigEndian : Bool} {p : Nat}
    (strays : Failing bigEndian data (fun e => e = outOfBounds) (.item p)) : Begins data p := by
  obtain ⟨fuel, fails⟩ := strays
  obtain ⟨e, found, rfl⟩ := fails fuel (Nat.le_refl fuel)
  exact decode_begins found (.inr rfl)

theorem strays_fails (bigEndian : Bool) {t : Task} (strays : Strays data t) :
    Failing bigEndian data (fun e => e = outOfBounds) t := by
  induction strays with
  | @leaf p inside strays =>
      apply Eventually.always
      intro fuel
      have leaf := leaf_comes bigEndian data p inside (kindAt data p)
      refine ⟨_, ?_, rfl⟩
      rw [decode_inside bigEndian fuel inside, decodeKind_leaf _ _ _ _ _ (leafStrays_leaf strays)]
      exact leaf.out.mpr strays
  | fixedList inside kind members ih => exact .fixedList inside kind ih
  | list inside kind members ih => exact .list inside kind ih
  | fixedDict inside kind entries ih => exact .fixedDict inside kind ih
  | dict inside kind some entries ih => exact .dict inside kind some ih
  | member head ih => exact .member ih
  | members head rest ih => exact .members head ih
  | listTest outside => exact .listTest outside rfl
  | listMember head ih => exact .listMember (strays_begins ih) ih
  | listMembers head rest ih => exact .listMembers head ih
  | key key ih => exact .key ih
  | value key value ih => exact .value key ih
  | entries key value rest ih => exact .entries key value ih
  | dictTest outside => exact .dictTest outside rfl
  | dictKey key ih => exact .dictKey (strays_begins ih) ih
  | dictValue key value ih => exact .dictValue key ih
  | dictEntries key value rest ih => exact .dictEntries key value ih

/-! ### And nothing else -/

/-- A result and a read outside are what the rules give. -/
def Ruled (data : Bytes) (t : Task) {α : Type} (key : α → Bool) (r : Except Exn (α × Nat)) : Prop :=
  (∀ a q, r = .ok (a, q) → Ends data t (key a) q) ∧ (r = .error outOfBounds → Strays data t)

theorem Ruled.failed {t : Task} {α : Type} {key : α → Bool} {e : Exn} (other : e ≠ outOfBounds) :
    Ruled data t key (.error e) := by
  constructor
  · intro a q found
    cases found
  · intro out
    exact absurd (Except.error.inj out) other

theorem Ruled.strayed {t : Task} {α : Type} {key : α → Bool} (strays : Strays data t) :
    Ruled data t key (.error outOfBounds) := by
  constructor
  · intro a q found
    cases found
  · exact fun _ => strays

/-- What is done first, then the rest. -/
theorem Ruled.bind {t t' : Task} {α β : Type} {key : α → Bool} {key' : β → Bool}
    {r : Except Exn (α × Nat)} {f : α × Nat → Except Exn (β × Nat)} (first : Ruled data t key r)
    (rest : ∀ a q, Ends data t (key a) q → Ruled data t' key' (f (a, q)))
    (strays : Strays data t → Strays data t') : Ruled data t' key' (r >>= f) := by
  cases found : r with
  | error e =>
      constructor
      · intro a q later
        cases later
      · intro out
        apply strays
        apply first.2
        rw [found]
        exact congrArg Except.error (Except.error.inj out)
  | ok result => exact rest result.1 result.2 (first.1 _ _ found)

theorem Ruled.result {t : Task} {α : Type} {key : α → Bool} {a : α} {q : Nat}
    (ends : Ends data t (key a) q) : Ruled data t key (.ok (a, q)) := by
  constructor
  · intro a' q' found
    cases found
    exact ends
  · intro out
    cases out

/-- All five functions at once. -/
structure Rules (bigEndian : Bool) (data : Bytes) (fuel : Nat) : Prop where
  item : ∀ p, Ruled data (.item p) hashable (decode bigEndian (exactBuffer data) fuel p)
  fixedList : ∀ size p, Ruled data (.fixedList size p) hashableAll
    (decodeFixedList bigEndian (exactBuffer data) fuel size p)
  list : ∀ p, Ruled data (.list p) hashableAll (decodeList bigEndian (exactBuffer data) fuel p)
  fixedDict : ∀ size p d, Ruled data (.fixedDict size p) (fun _ => false)
    (decodeFixedDict bigEndian (exactBuffer data) fuel size d p)
  dict : ∀ p d, Ruled data (.dict p) (fun _ => false)
    (decodeDict bigEndian (exactBuffer data) fuel d p)

theorem out_of_fuel_ruled {t : Task} {α : Type} {key : α → Bool} :
    Ruled data t key (.error (.other "out of fuel")) :=
  .failed (by simp [outOfBounds])

theorem setItem_ruled {t : Task} {k v : PyVal} {d : List (PyVal × PyVal)}
    {f : List (PyVal × PyVal) → Except Exn (List (PyVal × PyVal) × Nat)}
    (rest : ∀ d, hashable k = true → Ruled data t (fun _ => false) (f d)) :
    Ruled data t (fun _ => false) (setItem d k v >>= f) := by
  unfold setItem
  split
  next hash => exact rest _ hash
  · exact .failed (by simp [outOfBounds])

theorem item_ruled {bigEndian : Bool} {fuel : Nat} (rules : Rules bigEndian data fuel) (p : Nat) :
    Ruled data (.item p) hashable (decode bigEndian (exactBuffer data) (fuel + 1) p) := by
  by_cases inside : p < data.length
  · rw [decode_inside bigEndian fuel inside]
    have leaf := leaf_comes bigEndian data p inside (kindAt data p)
    cases kind : kindAt data p with
    | fixedList =>
        refine (rules.fixedList _ _).bind (fun vs q members => .result ?_) (.fixedList inside kind)
        exact .fixedList inside kind members
    | list =>
        refine (rules.list _).bind (fun vs q members => .result ?_) (.list inside kind)
        exact .list inside kind members
    | fixedDict =>
        refine (rules.fixedDict _ _ _).bind (fun d q entries => .result ?_) (.fixedDict inside kind)
        exact .fixedDict inside kind entries
    | dict =>
        rw [decodeKind]
        by_cases some : uint (p + 1) < data.length
        · rw [checkPos_inside some]
          refine (rules.dict _ _).bind (fun d q entries => .result ?_) (.dict inside kind some)
          exact .dict inside kind some entries
        · obtain ⟨text, refused⟩ := checkPos_outside (Nat.not_lt.mp some)
          rw [refused]
          exact .failed (by simp [outOfBounds])
    | _ =>
        rw [decodeKind_leaf _ _ _ _ _ (by decide)]
        rw [kind] at leaf
        constructor
        · intro v q found
          obtain ⟨plain, ends⟩ := leaf.post_of_ok found
          dsimp only [extent] at plain ends
          rw [plain]
          exact .leaf inside (kind ▸ ends)
        · intro out
          exact .leaf inside (kind ▸ leaf.out.mp out)
  · obtain ⟨text, refused⟩ := decode_outside bigEndian fuel (Nat.not_lt.mp inside)
    rw [refused]
    exact .failed (by simp [outOfBounds])

theorem list_ruled {bigEndian : Bool} {fuel : Nat} (rules : Rules bigEndian data fuel) (p : Nat) :
    Ruled data (.list p) hashableAll (decodeList bigEndian (exactBuffer data) (fuel + 1) p) := by
  by_cases inside : p < data.length
  · by_cases terminator : (byte data p).toNat = CHR_TERM
    · rw [decodeList, peek_inside inside]
      change Ruled data _ _ (if _ then _ else _)
      rw [if_neg (not_not.mpr terminator)]
      exact .result (.listEnd ⟨inside, terminator⟩)
    · rw [decodeList_goes ⟨inside, terminator⟩]
      refine (rules.item p).bind (fun v q head => ?_) .listMember
      refine (rules.list q).bind (fun vs r rest => .result ?_) (.listMembers head)
      exact .listMember head rest
  · rw [decodeList, peek_outside (Nat.not_lt.mp inside)]
    exact .strayed (.listTest (Nat.not_lt.mp inside))

theorem dict_ruled {bigEndian : Bool} {fuel : Nat} (rules : Rules bigEndian data fuel) (p : Nat)
    (d : List (PyVal × PyVal)) :
    Ruled data (.dict p) (fun _ => false) (decodeDict bigEndian (exactBuffer data) (fuel + 1) d p) := by
  by_cases inside : p < data.length
  · by_cases terminator : (byte data p).toNat = CHR_TERM
    · rw [decodeDict, peek_inside inside]
      change Ruled data _ _ (if _ then _ else _)
      rw [if_neg (not_not.mpr terminator)]
      exact .result (.dictEnd ⟨inside, terminator⟩)
    · rw [decodeDict_goes ⟨inside, terminator⟩]
      refine (rules.item p).bind (fun k q key => ?_) .dictKey
      refine (rules.item q).bind (fun v r value => setItem_ruled fun d hash => ?_) (.dictValue key)
      rw [hash] at key
      exact ⟨fun d' s found => .dictEntry key value ((rules.dict r d).1 d' s found),
        fun out => .dictEntries key value ((rules.dict r d).2 out)⟩
  · rw [decodeDict, peek_outside (Nat.not_lt.mp inside)]
    exact .strayed (.dictTest (Nat.not_lt.mp inside))

theorem rules (bigEndian : Bool) (data : Bytes) (fuel : Nat) : Rules bigEndian data fuel := by
  induction fuel with
  | zero =>
      constructor
      · exact fun p => out_of_fuel_ruled
      · intro size p
        cases size with
        | zero => exact .result .noMember
        | succ size => exact out_of_fuel_ruled
      · exact fun p => out_of_fuel_ruled
      · intro size p d
        cases size with
        | zero => exact .result .noEntry
        | succ size => exact out_of_fuel_ruled
      · exact fun p d => out_of_fuel_ruled
  | succ fuel ih =>
      constructor
      · exact item_ruled ih
      · intro size p
        cases size with
        | zero => exact .result .noMember
        | succ size =>
            refine (ih.item p).bind (fun v q head => ?_) .member
            refine (ih.fixedList size q).bind (fun vs r rest => .result ?_) (.members head)
            exact .member head rest
      · exact list_ruled ih
      · intro size p d
        cases size with
        | zero => exact .result .noEntry
        | succ size =>
            refine (ih.item p).bind (fun k q key => ?_) .key
            refine (ih.item q).bind (fun v r value => setItem_ruled fun d hash => ?_) (.value key)
            rw [hash] at key
            exact ⟨fun d' s found => .entry key value ((ih.fixedDict size r d).1 d' s found),
              fun out => .entries key value ((ih.fixedDict size r d).2 out)⟩
      · exact dict_ruled ih

/-- No byte behind the data is read, however long the decoder runs. -/
def InBounds (bigEndian : Bool) (data : Bytes) : Prop :=
  ∀ fuel, decode bigEndian (exactBuffer data) fuel 0 ≠ .error outOfBounds

theorem inBounds_iff (bigEndian : Bool) (data : Bytes) :
    InBounds bigEndian data ↔ ¬ Strays data (.item 0) := by
  constructor
  · intro within strays
    obtain ⟨fuel, fails⟩ := strays_fails bigEndian strays
    obtain ⟨e, found, rfl⟩ := fails fuel (Nat.le_refl fuel)
    exact within fuel found
  · intro safe fuel out
    exact safe (((rules bigEndian data fuel).item 0).2 out)

/-! ### Positions that do not come around -/

end Catlink.Rencodeplus
