import Catlink.Rfb.Authentication
import Catlink.Rfb.Messages

/-! How much of the buffer each RFB parser consumes, and when the loop over the buffer ends. -/

namespace Catlink.Rfb

open Auth

variable {o : Outside} {p q : RFBProtocol} {mayRaise : Prop}

/-! ### Progress -/

def Event.message? : Event → Option Packet
  | .packet (.message packetType values extra) => some (.message packetType values extra)
  | _ => none

/-- The messages that a call has given to the packet callback. -/
def delivered (p q : RFBProtocol) : List Packet :=
  (q.events.drop p.events.length).filterMap Event.message?

/-- A call consumes part of the buffer; a message that it delivers is what it consumes. -/
structure Consumes (p q : RFBProtocol) (consumed : Int) : Prop where
  least : 0 ≤ consumed
  most : consumed ≤ p.buffer.length
  own : delivered p q = [] ∨
    ∃ m : Message, delivered p q = [m.packet] ∧ p.buffer.take consumed.toNat = m.bytes

/-- The loop over the buffer ends, and every call on the way has consumed what it should. An
exception ends the thread. -/
inductive Progresses (o : Outside) (mayRaise : Prop) : RFBProtocol → Prop
  | emptied {p : RFBProtocol} (empty : p.buffer = []) : Progresses o mayRaise p
  | raises {p q : RFBProtocol} {e : Exn} (filled : p.buffer ≠ []) (parse : p.parse o = (q, .error e))
      (may : mayRaise) : Progresses o mayRaise p
  | waits {p q : RFBProtocol} (filled : p.buffer ≠ []) (parse : p.parse o = (q, .ok 0))
      (consumes : Consumes p q 0) : Progresses o mayRaise p
  | takes {p q : RFBProtocol} {consumed : Int} (filled : p.buffer ≠ [])
      (parse : p.parse o = (q, .ok consumed)) (some : consumed ≠ 0) (consumes : Consumes p q consumed)
      (rest : Progresses o mayRaise (q.holding (sliceFrom q.buffer consumed))) : Progresses o mayRaise p

theorem progresses_raises (filled : p.buffer ≠ []) {e : Exn} (parse : p.parse o = (q, .error e)) :
    Progresses o mayRaise p ↔ mayRaise := by
  constructor
  · intro progresses
    cases progresses with
    | emptied empty => exact absurd empty filled
    | raises _ _ may => exact may
    | waits _ other _ =>
        rw [parse] at other
        cases other
    | takes _ other _ _ _ =>
        rw [parse] at other
        cases other
  · exact .raises filled parse

theorem progresses_waits (filled : p.buffer ≠ []) (parse : p.parse o = (q, .ok 0)) :
    Progresses o mayRaise p ↔ Consumes p q 0 := by
  constructor
  · intro progresses
    cases progresses with
    | emptied empty => exact absurd empty filled
    | raises _ other _ =>
        rw [parse] at other
        cases other
    | waits _ other consumes =>
        rw [parse] at other
        cases other
        exact consumes
    | takes _ other some _ _ =>
        rw [parse] at other
        cases other
        exact absurd rfl some
  · exact .waits filled parse

theorem progresses_takes (filled : p.buffer ≠ []) {consumed : Int}
    (parse : p.parse o = (q, .ok consumed)) (some : consumed ≠ 0) :
    Progresses o mayRaise p ↔
      Consumes p q consumed ∧ Progresses o mayRaise (q.holding (sliceFrom q.buffer consumed)) := by
  constructor
  · intro progresses
    cases progresses with
    | emptied empty => exact absurd empty filled
    | raises _ other _ =>
        rw [parse] at other
        cases other
    | waits _ other _ =>
        rw [parse] at other
        cases other
        exact absurd rfl some
    | takes _ other _ consumes rest =>
        rw [parse] at other
        cases other
        exact ⟨consumes, rest⟩
  · rintro ⟨consumes, rest⟩
    exact .takes filled parse some consumes rest

/-! ### Calls that deliver nothing -/

/-- Only other events are added, and the buffer is as it was. -/
structure Quiet (p q : RFBProtocol) : Prop where
  buffer : q.buffer = p.buffer
  events : ∃ added, q.events = p.events ++ added ∧ added.filterMap Event.message? = []

theorem Quiet.same (buffer : q.buffer = p.buffer) (events : q.events = p.events) : Quiet p q :=
  ⟨buffer, [], by rw [events, List.append_nil], rfl⟩

theorem Quiet.trans {r : RFBProtocol} (first : Quiet p q) (second : Quiet q r) : Quiet p r := by
  obtain ⟨added, events, none⟩ := first.events
  obtain ⟨added', events', none'⟩ := second.events
  refine ⟨second.buffer.trans first.buffer, added ++ added', ?_, ?_⟩
  · rw [events', events, List.append_assoc]
  · rw [List.filterMap_append, none, none']
    rfl

/-- The other fields do not matter. -/
theorem Quiet.alike {r : RFBProtocol} (quiet : Quiet p q) (buffer : r.buffer = q.buffer)
    (events : r.events = q.events) : Quiet p r :=
  quiet.trans (.same buffer events)

theorem Quiet.delivered (quiet : Quiet p q) : delivered p q = [] := by
  obtain ⟨added, events, none⟩ := quiet.events
  rw [Rfb.delivered, events, List.drop_left, none]

theorem Quiet.consumes (quiet : Quiet p q) {consumed : Nat} (most : consumed ≤ p.buffer.length) :
    Consumes p q consumed :=
  ⟨Int.natCast_nonneg _, Int.ofNat_le.mpr most, .inl quiet.delivered⟩

theorem quiet_send (p : RFBProtocol) (reply : Reply) : Quiet p (p.send reply) := by
  unfold RFBProtocol.send
  split
  · exact .same rfl rfl
  · exact ⟨rfl, [.sent reply], rfl, rfl⟩

theorem quiet_invalid (p : RFBProtocol) (msg : String) (data : Bytes) : Quiet p (p.invalid msg data) :=
  .same rfl rfl

theorem quiet_internalError (p : RFBProtocol) : Quiet p p.internalError := by
  unfold RFBProtocol.internalError
  split
  · exact .same rfl rfl
  · exact .same rfl rfl

/-- A parser that waits, or that goes on with what is left. -/
theorem Quiet.waits (quiet : Quiet p q) (filled : p.buffer ≠ []) (parse : p.parse o = (q, .ok 0)) :
    Progresses o mayRaise p :=
  .waits filled parse (quiet.consumes (Nat.zero_le _))

theorem Quiet.takes (quiet : Quiet p q) (filled : p.buffer ≠ []) {consumed : Nat}
    (parse : p.parse o = (q, .ok consumed)) (some : 0 < consumed) (most : consumed ≤ p.buffer.length) :
    Progresses o mayRaise p ↔ Progresses o mayRaise (q.holding (p.buffer.drop consumed)) := by
  have left : sliceFrom q.buffer consumed = p.buffer.drop consumed := by
    rw [sliceFrom, if_neg (by omega), Int.toNat_natCast, quiet.buffer]
  rw [progresses_takes filled parse (by omega), left]
  exact and_iff_right (quiet.consumes most)

/-- All of the buffer is consumed. -/
theorem Quiet.drains (quiet : Quiet p q) (filled : p.buffer ≠ [])
    (parse : p.parse o = (q, .ok p.buffer.length)) : Progresses o mayRaise p := by
  rw [quiet.takes filled parse (List.length_pos_iff.mpr filled) (Nat.le_refl _), List.drop_length]
  exact .emptied rfl

/-! ### The messages at the front of the buffer -/

/-- A `ClientCutText` whose size is negative is at the front. -/
def NegativeText (data : Bytes) : Prop :=
  8 ≤ data.length ∧ data.headD 0 = 6 ∧ 128 ≤ (data.getD 4 0).toNat

instance (data : Bytes) : Decidable (NegativeText data) := inferInstanceAs (Decidable (_ ∧ _ ∧ _))

/-- No size is negative, after as many messages as there are. -/
def WellSized (data : Bytes) : Prop :=
  ∀ (messages : List Message) (rest : Bytes), data = messages.flatMap Message.bytes ++ rest →
    ¬ NegativeText rest

theorem not_negativeText_nil : ¬ NegativeText [] := fun negative => by cases negative.1

theorem wellSized_nil : WellSized [] := by
  intro messages rest whole
  rw [(List.append_eq_nil_iff.mp whole.symm).2]
  exact not_negativeText_nil

/-- The sign of a size is the first bit of its bytes. -/
theorem signed_negative (a b c d : UInt8) : Field.value .i [a, b, c, d] < 0 ↔ 128 ≤ a.toNat := by
  have value : BigEndian.decodeBE [a, b, c, d] =
      a.toNat * 16777216 + b.toNat * 65536 + c.toNat * 256 + d.toNat := by
    simp only [BigEndian.decodeBE, List.length_cons, List.length_nil]
    omega
  have bounds := And.intro a.toNat_lt (And.intro b.toNat_lt (And.intro c.toNat_lt d.toNat_lt))
  simp only [Field.value, value]
  by_cases high : a.toNat * 16777216 + b.toNat * 65536 + c.toNat * 256 + d.toNat < 2 ^ 31
  · rw [if_pos high]
    omega
  · rw [if_neg high]
    omega

theorem eight_bytes {data : Bytes} (enough : 8 ≤ data.length) :
    ∃ a b c d e f g h rest, data = a :: b :: c :: d :: e :: f :: g :: h :: rest := by
  match data, enough with
  | a :: b :: c :: d :: e :: f :: g :: h :: rest, _ => exact ⟨a, b, c, d, e, f, g, h, rest, rfl⟩

theorem text_format {ptype : Nat} {s : List Field} (text : ptype = 6)
    (supported : packetStruct.lookup ptype = some s) : s = [.B, .B, .B, .B, .i] := by
  subst text
  exact (Option.some.inj supported).symm

theorem announced_negative {data : Bytes} (enough : 8 ≤ data.length) :
    announcedSize 6 (unpack [.B, .B, .B, .B, .i] (data.take 8)) < 0 ↔ 128 ≤ (data.getD 4 0).toNat := by
  obtain ⟨a, b, c, d, e, f, g, h, rest, rfl⟩ := eight_bytes enough
  have size : announcedSize 6 (unpack [.B, .B, .B, .B, .i]
      ((a :: b :: c :: d :: e :: f :: g :: h :: rest).take 8)) = Field.value .i [e, f, g, h] := by
    simp only [announcedSize, unpack, Field.size, List.take_succ_cons, List.take_zero,
      List.drop_succ_cons, List.drop_zero, List.getD_cons_succ, List.getD_cons_zero, if_true,
      Nat.reduceEqDiff, if_false]
  rw [size, signed_negative]
  rfl

/-- Only the size of a text has a sign. -/
theorem announced_text {ptype : Nat} {s : List Field} (supported : packetStruct.lookup ptype = some s)
    {data : Bytes} (negative : announcedSize ptype (unpack s data) < 0) : ptype = 6 := by
  unfold announcedSize at negative
  split at negative
  · next encodings =>
      subst encodings
      have format : s = [.B, .B, .H] := (Option.some.inj supported).symm
      have count : 0 ≤ (unpack s data).getD 2 0 := by
        rw [format]
        exact Int.natCast_nonneg _
      omega
  · split at negative
    · next text => exact text
    · cases negative

namespace Message

theorem headD_bytes (m : Message) (rest : Bytes) : (m.bytes ++ rest).headD 0 = m.header.headD 0 := by
  obtain ⟨first, tail, header⟩ := m.header_cons
  rw [Message.bytes, header]
  rfl

theorem take_bytes (m : Message) (rest : Bytes) :
    (m.bytes ++ rest).take (structSize m.format) = m.header := by
  rw [Message.bytes, List.append_assoc, ← m.sized, List.take_left]

/-- The bytes of a message say where it ends. -/
theorem unique {m other : Message} {rest rest' : Bytes}
    (same : m.bytes ++ rest = other.bytes ++ rest') : m.bytes = other.bytes ∧ rest = rest' := by
  have ptype : m.header.headD 0 = other.header.headD 0 := by
    rw [← m.headD_bytes rest, same, other.headD_bytes]
  have format : m.format = other.format := by
    have supported := m.supported
    rw [ptype, other.supported] at supported
    exact (Option.some.inj supported).symm
  have header : m.header = other.header := by
    rw [← m.take_bytes rest, same, format, other.take_bytes]
  have payload : m.payload.length = other.payload.length := by
    have announced := m.announced
    rw [header, format, ← other.announced] at announced
    exact Int.ofNat.inj announced
  apply List.append_inj same
  rw [m.bytes_length, other.bytes_length, format, payload]

theorem not_negativeText (m : Message) (rest : Bytes) : ¬ NegativeText (m.bytes ++ rest) := by
  rintro ⟨enough, text, negative⟩
  have format : m.format = [.B, .B, .B, .B, .i] := by
    apply text_format _ m.supported
    rw [← m.headD_bytes rest, text]
    rfl
  have header : (m.bytes ++ rest).take 8 = m.header := by
    rw [← m.take_bytes rest, format]
    rfl
  have announced := m.announced
  rw [← announced_negative enough, header] at negative
  rw [← m.headD_bytes rest, text, format] at announced
  change (m.payload.length : Int) = announcedSize 6 _ at announced
  omega

end Message

theorem wellSized_message (m : Message) (rest : Bytes) :
    WellSized (m.bytes ++ rest) ↔ WellSized rest := by
  constructor
  · intro sized messages rest' whole
    apply sized (m :: messages) rest'
    rw [List.flatMap_cons, List.append_assoc, whole]
  · intro sized messages rest' whole
    cases messages with
    | nil =>
        rw [List.flatMap_nil, List.nil_append] at whole
        rw [← whole]
        exact m.not_negativeText rest
    | cons first messages =>
        rw [List.flatMap_cons, List.append_assoc] at whole
        exact sized messages rest' (Message.unique whole).2

theorem wellSized_none {data : Bytes} (none : ∀ (m : Message) (rest : Bytes), data ≠ m.bytes ++ rest)
    (fine : ¬ NegativeText data) : WellSized data := by
  intro messages rest whole
  cases messages with
  | nil =>
      rw [List.flatMap_nil, List.nil_append] at whole
      rwa [← whole]
  | cons first messages =>
      rw [List.flatMap_cons, List.append_assoc] at whole
      exact absurd whole (none first _)

/-- What `_parse_rfb` finds in the buffer. -/
inductive Front (data : Bytes) : Prop
  | message (m : Message) (rest : Bytes) (begins : data = m.bytes ++ rest)
  | negative (negative : NegativeText data)
  | waits (none : ∀ (m : Message) (rest : Bytes), data ≠ m.bytes ++ rest) (fine : ¬ NegativeText data)
      (parse : ∀ p : RFBProtocol, ∃ q, parseRfb p data = (q, .ok 0) ∧ Quiet p q)

theorem parseExtra_waits {ptype : Nat} {s : List Field} {data rfbdata : Bytes}
    (least : 0 ≤ announcedSize ptype (unpack s data)) (enough : structSize s ≤ rfbdata.length)
    (short : (rfbdata.length : Int) < structSize s + announcedSize ptype (unpack s data)) :
    parseExtra ptype (structSize s) (unpack s data) rfbdata = none := by
  unfold announcedSize at least short
  unfold parseExtra
  split
  · next encodings =>
      rw [if_pos encodings] at least short
      dsimp only
      rw [structSize_ints, if_pos (by omega)]
  · next other =>
      rw [if_neg other] at short
      split
      · next text =>
          rw [if_pos text] at short
          dsimp only
          rw [if_pos short]
      · next plain =>
          rw [if_neg plain] at short
          omega

theorem front {data : Bytes} (filled : data ≠ []) : Front data := by
  obtain ⟨first, tail, rfl⟩ := List.exists_cons_of_ne_nil filled
  have head : ∀ (m : Message) (rest : Bytes), first :: tail = m.bytes ++ rest →
      m.header.headD 0 = first := by
    intro m rest begins
    rw [← m.headD_bytes rest, ← begins]
    rfl
  cases known : clientPacketTypeStr.lookup first.toNat with
  | none =>
      refine .waits ?_ ?_ ?_
      · intro m rest begins
        have type := m.known
        rw [head m rest begins, known] at type
        cases type
      · rintro ⟨_, text, _⟩
        have six : first = 6 := text
        subst six
        cases known
      · intro p
        have parse : ∃ msg, parseRfb p (first :: tail) = (p.invalid msg (first :: tail), .ok 0) := by
          rw [parseRfb]
          simp only [known]
          exact ⟨_, rfl⟩
        obtain ⟨msg, parse⟩ := parse
        exact ⟨_, parse, quiet_invalid p _ _⟩
  | some packetType =>
      cases supported : packetStruct.lookup first.toNat with
      | none =>
          refine .waits ?_ ?_ ?_
          · intro m rest begins
            have format := m.supported
            rw [head m rest begins, supported] at format
            cases format
          · rintro ⟨_, text, _⟩
            have six : first = 6 := text
            subst six
            cases supported
          · intro p
            have parse : ∃ msg, parseRfb p (first :: tail) = (p.invalid msg (first :: tail), .ok 0) := by
              rw [parseRfb]
              simp only [known, supported]
              exact ⟨_, rfl⟩
            obtain ⟨msg, parse⟩ := parse
            exact ⟨_, parse, quiet_invalid p _ _⟩
      | some s =>
          have format : ∀ (m : Message) (rest : Bytes), first :: tail = m.bytes ++ rest →
              m.format = s := by
            intro m rest begins
            have other := m.supported
            rw [head m rest begins, supported] at other
            exact (Option.some.inj other).symm
          have text : NegativeText (first :: tail) → s = [.B, .B, .B, .B, .i] := by
            rintro ⟨_, text, _⟩
            have six : first = 6 := text
            exact text_format (by rw [six]; rfl) supported
          by_cases enough : structSize s ≤ (first :: tail).length
          · have start : ((first :: tail).take (structSize s)).headD 0 = first := by
              obtain ⟨size, more⟩ := Nat.exists_eq_succ_of_ne_zero (structSize_pos supported).ne'
              rw [more, List.take_succ_cons]
              rfl
            have sized : ((first :: tail).take (structSize s)).length = structSize s :=
              List.length_take_of_le enough
            rcases Int.lt_or_le
              (announcedSize first.toNat (unpack s ((first :: tail).take (structSize s)))) 0
              with negative | least
            · have six := announced_text supported negative
              have format := text_format six supported
              subst format
              rw [six] at negative
              refine .negative ⟨enough, UInt8.toNat_inj.mp six, ?_⟩
              exact (announced_negative enough).mp negative
            · by_cases whole : (structSize s : Int) +
                  announcedSize first.toNat (unpack s ((first :: tail).take (structSize s))) ≤
                    (first :: tail).length
              · obtain ⟨size, announced⟩ := Int.eq_ofNat_of_zero_le least
                rw [announced] at whole
                refine .message ⟨packetType, s, (first :: tail).take (structSize s),
                  ((first :: tail).drop (structSize s)).take size, by rwa [start], by rwa [start], sized,
                  ?_⟩ ((first :: tail).drop (structSize s + size)) ?_
                · rw [start, announced, List.length_take, List.length_drop, Nat.min_eq_left (by omega)]
                · rw [Message.bytes, List.append_assoc, ← List.drop_drop, List.take_append_drop,
                    List.take_append_drop]
              · refine .waits ?_ ?_ ?_
                · intro m rest begins
                  have header := m.take_bytes rest
                  have announced := m.announced
                  have size := m.bytes_length
                  have length := congrArg List.length begins
                  rw [← begins, format m rest begins] at header
                  rw [format m rest begins] at announced size
                  rw [head m rest begins, ← header] at announced
                  rw [List.length_append] at length
                  omega
                · intro negative
                  have format := text negative
                  subst format
                  have six : first = 6 := negative.2.1
                  subst six
                  have other := (announced_negative enough).mpr negative.2.2
                  exact absurd least (Int.not_le_of_gt other)
                · intro p
                  refine ⟨p, ?_, .same rfl rfl⟩
                  rw [parseRfb]
                  simp only [known, supported]
                  rw [if_neg (by omega), parseExtra_waits least enough (by omega)]
          · refine .waits ?_ ?_ ?_
            · intro m rest begins
              have size := m.bytes_length
              rw [format m rest begins] at size
              rw [begins, List.length_append] at enough
              omega
            · intro negative
              rw [text negative] at enough
              exact enough negative.1
            · intro p
              refine ⟨p, ?_, .same rfl rfl⟩
              rw [parseRfb]
              simp only [known, supported]
              rw [if_pos (Nat.lt_of_not_le enough)]

theorem negative_parse (here : p.packetParser = .rfb) (negative : NegativeText p.buffer) :
    ∃ values extra consumed, p.parse o =
      (p.processPacket (.message "ClientCutText" values extra), .ok consumed) := by
  obtain ⟨enough, six, sign⟩ := negative
  have size : announcedSize 6 (unpack [.B, .B, .B, .B, .i] (p.buffer.take 8)) < 0 :=
    (announced_negative enough).mpr sign
  rw [announcedSize, if_neg (by decide), if_pos rfl] at size
  rw [RFBProtocol.parse]
  simp only [here]
  generalize p.buffer = data at enough six size
  obtain ⟨first, tail, rfl⟩ := List.exists_cons_of_length_pos (Nat.lt_of_lt_of_le (by decide) enough)
  have text : first.toNat = 6 := by
    have same : first = 6 := six
    rw [same]
    rfl
  have known : clientPacketTypeStr.lookup 6 = some "ClientCutText" := rfl
  have supported : packetStruct.lookup 6 = some [.B, .B, .B, .B, .i] := rfl
  have struct : structSize [.B, .B, .B, .B, .i] = 8 := rfl
  rw [parseRfb]
  simp only [text, known, supported, struct]
  rw [if_neg (Nat.not_lt.mpr enough), parseExtra, if_neg (by decide), if_pos rfl]
  dsimp only
  rw [if_neg (by omega)]
  exact ⟨_, _, _, rfl⟩

/-- A text of negative size is delivered, but its bytes are not removed. -/
theorem negative_stuck (here : p.packetParser = .rfb) (negative : NegativeText p.buffer) :
    ¬ Progresses o mayRaise p := by
  have filled : p.buffer ≠ [] := fun empty => not_negativeText_nil (empty ▸ negative)
  have none : ∀ consumed, ¬ ∃ m : Message, p.buffer.take consumed = m.bytes := by
    rintro consumed ⟨m, same⟩
    have whole : m.bytes ++ p.buffer.drop consumed = p.buffer := by rw [← same, List.take_append_drop]
    have fine := m.not_negativeText (p.buffer.drop consumed)
    rw [whole] at fine
    exact fine negative
  obtain ⟨values, extra, consumed, parse⟩ := negative_parse here negative (o := o)
  have never : ∀ taken, ¬ Consumes p (p.processPacket (.message "ClientCutText" values extra)) taken := by
    intro taken consumes
    have message : delivered p (p.processPacket (.message "ClientCutText" values extra)) =
        [.message "ClientCutText" values extra] := by
      rw [delivered, RFBProtocol.processPacket, RFBProtocol.note, List.drop_left]
      rfl
    rcases consumes.own with quiet | ⟨m, -, taken⟩
    · rw [message] at quiet
      cases quiet
    · exact none _ ⟨m, taken⟩
  by_cases zero : consumed = 0
  · subst zero
    rw [progresses_waits filled parse]
    exact never 0
  · rw [progresses_takes filled parse zero]
    exact fun both => never consumed both.1

theorem rfb_progresses (here : p.packetParser = .rfb) :
    Progresses o mayRaise p ↔ WellSized p.buffer := by
  induction size : p.buffer.length using Nat.strong_induction_on generalizing p with
  | _ n ih =>
      by_cases empty : p.buffer = []
      · rw [empty]
        exact ⟨fun _ => wellSized_nil, fun _ => .emptied empty⟩
      have parser : p.parse o = parseRfb p p.buffer := by
        rw [RFBProtocol.parse]
        simp only [here]
      cases front empty with
      | message m rest begins =>
          have parse : p.parse o = (p.processPacket m.packet, .ok (m.bytes.length : Int)) := by
            rw [parser, begins, parseRfb_whole]
          have some : 0 < m.bytes.length := by
            have size := structSize_pos m.supported
            rw [m.bytes_length]
            omega
          have length : p.buffer.length = m.bytes.length + rest.length := by
            rw [begins, List.length_append]
          have left : sliceFrom (p.processPacket m.packet).buffer m.bytes.length = rest := by
            change sliceFrom p.buffer m.bytes.length = rest
            rw [sliceFrom, if_neg (by omega), Int.toNat_natCast, begins, List.drop_left]
          have consumes : Consumes p (p.processPacket m.packet) m.bytes.length := by
            refine ⟨Int.natCast_nonneg _, by omega, .inr ⟨m, ?_, ?_⟩⟩
            · rw [delivered, RFBProtocol.processPacket, RFBProtocol.note, List.drop_left]
              rfl
            · rw [Int.toNat_natCast, begins, List.take_left]
          rw [progresses_takes empty parse (by omega), left, and_iff_right consumes,
            ih rest.length (by omega) (p := (p.processPacket m.packet).holding rest) here rfl,
            holding_buffer, begins, wellSized_message]
      | negative negative =>
          exact ⟨fun progresses => absurd progresses (negative_stuck here negative),
            fun sized => absurd negative (sized [] p.buffer rfl)⟩
      | waits none fine parse =>
          obtain ⟨q, waits, quiet⟩ := parse p
          exact ⟨fun _ => wellSized_none none fine, fun _ => quiet.waits empty (parser.trans waits)⟩

/-! ### The parsers of the handshake -/

theorem result_progresses (here : p.packetParser = .securityResult) :
    Progresses o mayRaise p ↔ WellSized p.buffer.tail := by
  by_cases empty : p.buffer = []
  · rw [empty]
    exact ⟨fun _ => wellSized_nil, fun _ => .emptied empty⟩
  have parse : p.parse o = parseSecurityResult o p p.buffer := by
    rw [RFBProtocol.parse]
    simp only [here]
  unfold parseSecurityResult at parse
  dsimp only at parse
  generalize Reply.serverInit o.getRfbPixelformat p.sessionName = reply at parse
  have quiet := quiet_send { p with share := decide (p.buffer ≠ [0]), packetParser := .rfb } reply
  have same := send_same { p with share := decide (p.buffer ≠ [0]), packetParser := .rfb } reply
  generalize RFBProtocol.send { p with share := decide (p.buffer ≠ [0]), packetParser := .rfb } reply = q
    at parse quiet same
  have before : Quiet p { p with share := decide (p.buffer ≠ [0]), packetParser := .rfb } :=
    .same rfl rfl
  have after : Quiet q (q.processPacket .authenticated) := ⟨rfl, [.packet .authenticated], rfl, rfl⟩
  rw [((before.trans quiet).trans after).takes empty parse Nat.one_pos (List.length_pos_iff.mpr empty),
    rfb_progresses (p := (q.processPacket .authenticated).holding (p.buffer.drop 1)) same.1,
    holding_buffer, List.drop_one]

theorem quiet_evaluated (p : RFBProtocol) (a : Authenticator) (guesses : List (Option Bytes))
    (accepted : Bool) :
    Quiet p ({ p with authenticator := some a }.note
      (guesses.map Event.guess ++ [Event.evaluated accepted])) := by
  refine ⟨rfl, _, rfl, ?_⟩
  rw [List.filterMap_append, List.filterMap_map]
  have none : Event.message? ∘ Event.guess = fun _ => none := rfl
  rw [none, List.filterMap_none]
  rfl

theorem challenge_progresses (here : p.packetParser = .challenge) :
    Progresses o mayRaise p ↔ (16 ≤ p.buffer.length ∧ p.authenticator = none → mayRaise) := by
  by_cases empty : p.buffer = []
  · rw [empty]
    exact ⟨fun _ both => absurd both.1 (by decide), fun _ => .emptied empty⟩
  have parse : p.parse o = parseChallenge o p p.buffer := by
    rw [RFBProtocol.parse]
    simp only [here]
  unfold parseChallenge at parse
  by_cases short : p.buffer.length < 16
  · rw [if_pos short] at parse
    have quiet : Quiet p p := .same rfl rfl
    exact ⟨fun _ both => absurd both.1 (Nat.not_le_of_lt short), fun _ => quiet.waits empty parse⟩
  rw [if_neg short] at parse
  cases known : p.authenticator with
  | none =>
      rw [known] at parse
      rw [progresses_raises empty parse]
      exact ⟨fun may _ => may, fun may => may ⟨Nat.le_of_not_lt short, rfl⟩⟩
  | some a =>
      rw [known] at parse
      dsimp only at parse
      refine ⟨fun _ both => (Option.some_ne_none a both.2).elim, fun _ => ?_⟩
      split at parse
      · have quiet : Quiet p (p.schedule .sendFailChallenge) := .same rfl rfl
        exact quiet.drains empty parse
      · next whole =>
          generalize a.authenticate o p.buffer = r at parse
          have evaluated := quiet_evaluated p (a.1, r.state) r.guesses (accepts r)
          split at parse
          · have sixteen : p.buffer.length = 16 := not_not.mp whole
            rw [show (16 : Int) = p.buffer.length by rw [sixteen]; rfl] at parse
            have quiet := evaluated.trans (quiet_send _ (.securityResult 0))
            refine Quiet.drains ?_ empty parse
            exact quiet.alike rfl rfl
          · refine Quiet.drains ?_ empty parse
            exact evaluated.alike rfl rfl

theorem security_progresses (here : p.packetParser = .securityHandshake) :
    Progresses o mayRaise p ↔
      (p.buffer = [authVnc] ∧ select o p.authenticator authVnc = .fails → mayRaise) := by
  by_cases empty : p.buffer = []
  · rw [empty]
    exact ⟨fun _ both => (List.cons_ne_nil _ _ both.1.symm).elim, fun _ => .emptied empty⟩
  have parse : p.parse o = parseSecurityHandshake o p p.buffer := by
    rw [RFBProtocol.parse]
    simp only [here]
  obtain ⟨auth, rest, buffer⟩ := List.exists_cons_of_ne_nil empty
  cases rest with
  | cons second rest =>
      have waits : parseSecurityHandshake o p p.buffer = (p.internalError, .ok 0) := by
        rw [buffer]
        rfl
      refine ⟨fun _ both => ?_, fun _ => (quiet_internalError p).waits empty (parse.trans waits)⟩
      rw [buffer] at both
      cases both.1
  | nil =>
      rw [buffer] at parse
      unfold parseSecurityHandshake at parse
      dsimp only at parse
      split at parse
      · next vnc =>
          subst vnc
          cases known : p.authenticator with
          | none =>
              rw [known] at parse
              have fails : select o none authVnc = .fails := rfl
              rw [progresses_raises empty parse]
              exact ⟨fun may _ => may, fun may => may ⟨buffer, fails⟩⟩
          | some a =>
              obtain ⟨m, state⟩ := a
              rw [known] at parse
              dsimp only at parse
              rw [select, if_pos rfl]
              generalize m.getChallenge o.answers.getSalt state ["des"] = given at parse
              rcases given with ⟨after, e | ⟨challenge, digest⟩⟩
              · rw [progresses_raises empty parse]
                exact ⟨fun may _ => may, fun may => may ⟨buffer, rfl⟩⟩
              · dsimp only at parse
                by_cases des : digest = "des"
                · subst des
                  rw [if_neg (not_not.mpr rfl)] at parse
                  refine ⟨fun _ both => (by cases both.2), fun _ => ?_⟩
                  generalize challenge.take 16 = sent at parse
                  have quiet := quiet_send { p with
                    packetParser := .challenge, authenticator := some (m, after), challenge := some sent }
                    (.challenge sent)
                  have one : ((1 : Int)) = p.buffer.length := by rw [buffer]; rfl
                  rw [one] at parse
                  refine Quiet.drains ?_ empty parse
                  exact ⟨quiet.buffer, quiet.events⟩
                · rw [if_pos des] at parse
                  rw [progresses_raises empty parse]
                  refine ⟨fun may _ => may, fun may => may ⟨buffer, ?_⟩⟩
                  split
                  · next both =>
                      cases both
                      exact absurd rfl des
                  · rfl
      · next other =>
          refine ⟨fun _ both => ?_, fun _ => ?_⟩
          · rw [buffer] at both
            exact absurd (List.cons.inj both.1).1 other
          · split at parse
            · exact (quiet_invalid p _ _).waits empty parse
            · have quiet := quiet_send { p with packetParser := .securityResult } (.securityResult 0)
              have one : ((1 : Int)) = p.buffer.length := by rw [buffer]; rfl
              rw [one] at parse
              refine Quiet.drains ?_ empty parse
              exact ⟨quiet.buffer, quiet.events⟩

/-- `RFB ` and a version that is no number, or the right version and a security type that fails. -/
def VersionRaises (o : Outside) (p : RFBProtocol) : Prop :=
  12 ≤ p.buffer.length ∧ [82, 70, 66, 32].isPrefixOf p.buffer = true ∧
    match (splitPoints ((p.buffer.take 11).drop 4)).mapM Rencodeplus.pyInt with
    | .error _ => True
    | .ok protocolVersion => protocolVersion = [3, 8] ∧
        p.buffer.drop 12 = [authVnc] ∧ select o p.authenticator authVnc = .fails

theorem handshake_progresses (here : p.packetParser = .protocolHandshake) :
    Progresses o mayRaise p ↔ (VersionRaises o p → mayRaise) := by
  by_cases empty : p.buffer = []
  · refine ⟨fun _ raises => ?_, fun _ => .emptied empty⟩
    have enough := raises.1
    rw [empty] at enough
    exact absurd enough (by decide)
  have parse : p.parse o = parseProtocolHandshake p p.buffer := by
    rw [RFBProtocol.parse]
    simp only [here]
  unfold parseProtocolHandshake at parse
  unfold VersionRaises
  by_cases short : p.buffer.length < 12
  · rw [if_pos short] at parse
    have quiet : Quiet p p := .same rfl rfl
    exact ⟨fun _ raises => absurd raises.1 (Nat.not_le_of_lt short), fun _ => quiet.waits empty parse⟩
  rw [if_neg short] at parse
  by_cases other : [82, 70, 66, 32].isPrefixOf p.buffer = false
  · rw [if_pos other] at parse
    refine ⟨fun _ raises => ?_, fun _ => (quiet_invalid p _ _).waits empty parse⟩
    rw [other] at raises
    cases raises.2.1
  rw [if_neg other] at parse
  have begins : [82, 70, 66, 32].isPrefixOf p.buffer = true := by simpa using other
  rw [begins, eq_self, true_and, and_iff_right (Nat.le_of_not_lt short)]
  generalize (splitPoints ((p.buffer.take 11).drop 4)).mapM Rencodeplus.pyInt = version at parse ⊢
  rcases version with e | protocolVersion
  · rw [progresses_raises empty parse]
    exact ⟨fun may _ => may, fun may => may trivial⟩
  dsimp only at parse ⊢
  split at parse
  · next unsupported =>
      refine ⟨fun _ raises => absurd raises.1 unsupported, fun _ => ?_⟩
      exact ((quiet_send p _).trans (quiet_invalid _ _ _)).waits empty parse
  · next supported =>
      have same : protocolVersion = [3, 8] := not_not.mp supported
      have quiet : Quiet p (handshakeComplete p) := by
        have sent := quiet_send { p with packetParser := .securityHandshake }
          (.securityTypes (if p.requiresChallenge then [authVnc] else [authNone]))
        exact ⟨sent.buffer, sent.events⟩
      have parser : (handshakeComplete p).packetParser = .securityHandshake :=
        (send_same { p with packetParser := .securityHandshake } _).1
      have authenticator : (handshakeComplete p).authenticator = p.authenticator := by
        unfold handshakeComplete RFBProtocol.send
        dsimp only
        split
        · rfl
        · rfl
      have parse : p.parse o = (handshakeComplete p, .ok ((12 : Nat) : Int)) := parse
      rw [quiet.takes empty parse (by decide) (by omega),
        security_progresses (p := (handshakeComplete p).holding (p.buffer.drop 12)) parser]
      change (p.buffer.drop 12 = [authVnc] ∧ select o (handshakeComplete p).authenticator authVnc = .fails →
        mayRaise) ↔ _
      rw [authenticator, and_iff_right same]

/-! ### Every state -/

/-- What the buffer must not hold, by what parses it. -/
def RFBProtocol.WellSized (p : RFBProtocol) : Prop :=
  match p.packetParser with
  | .securityResult => Rfb.WellSized p.buffer.tail
  | .rfb => Rfb.WellSized p.buffer
  | _ => True

/-- A parser that the loop calls raises an exception. -/
def RFBProtocol.Raises (o : Outside) (p : RFBProtocol) : Prop :=
  match p.packetParser with
  | .protocolHandshake => VersionRaises o p
  | .securityHandshake => p.buffer = [authVnc] ∧ select o p.authenticator authVnc = .fails
  | .challenge => 16 ≤ p.buffer.length ∧ p.authenticator = none
  | _ => False

/-- However the bytes come, the loop progresses unless a text of negative size comes to the front. -/
theorem read_progresses_iff (o : Outside) (mayRaise : Prop) (p : RFBProtocol) (buf : Bytes) :
    Progresses o mayRaise (p.receive buf) ↔
      (p.receive buf).WellSized ∧ ((p.receive buf).Raises o → mayRaise) := by
  generalize p.receive buf = p
  unfold RFBProtocol.WellSized RFBProtocol.Raises
  cases here : p.packetParser with
  | protocolHandshake => simpa using handshake_progresses here
  | securityHandshake => simpa using security_progresses here
  | challenge => simpa using challenge_progresses here
  | securityResult => simpa using result_progresses here
  | rfb => simpa using rfb_progresses here
  | invalid =>
      by_cases empty : p.buffer = []
      · simpa using Progresses.emptied empty
      have parse : p.parse o = (p, .ok (p.buffer.length : Int)) := by
        rw [RFBProtocol.parse]
        simp only [here]
      have quiet : Quiet p p := .same rfl rfl
      simpa using quiet.drains empty parse

/-- A `ClientCutText` of -16 bytes: the last 8 bytes of the buffer are parsed for ever. -/
theorem not_read_progresses :
    ¬ ∀ (o : Outside) (p : RFBProtocol) (buf : Bytes), Progresses o True (p.receive buf) := by
  intro all
  have progresses := all bareOutside
    { sessionName := [], authenticator := none, buffer := [], packetParser := .rfb }
    [6, 0, 0, 0, 255, 255, 255, 240]
  exact negative_stuck rfl (by decide) progresses

end Catlink.Rfb
