import Catlink.Net.SocketProtocol
import Catlink.Lib.Incremental
import Catlink.Rencodeplus.Decode

/-! The parse loop as an incremental parser: the cut of the stream into buffers does not matter. -/

namespace Catlink.Segmentation

open Header Crypto SocketProtocol Incremental

variable {σ : Type}

/-! ### The parser of the uncut stream -/

/-- What the parser needs of a header once it is read. -/
structure Pending where
  payloadSize : Nat
  padding : Nat
  packetIndex : Nat
  protocolFlags : Nat
  compressionLevel : Nat

inductive Stage
  | payload (p : Pending)
  | header
  | searching

structure StreamState (σ : Type) where
  stage : Stage
  decryptor : Option σ
  rawPackets : List (Nat × Bytes)

/-- The buffer `invalid_header` is given depends on the cut; everything else of an ending does not. -/
def withoutBuffer : Ending → Ending
  | .invalidHeader _ msg => .invalidHeader [] msg
  | e => e

def judgeHeader (r : Receiver σ) (s : StreamState σ) (xs : Bytes) :
    Verdict (StreamState σ) Event Ending :=
  match xs with
  | [] => .more
  | b :: _ =>
      if b ≠ PACKET_HEADER_CHAR then
        .stop (.invalidHeader [] s!"invalid packet header byte {hexByte b}")
      -- the header is only looked at when a byte follows it
      else if xs.length ≤ HEADER_SIZE then .more
      else
        match parseHeader r (xs.take HEADER_SIZE) with
        | .error e => .stop (withoutBuffer e)
        | .ok (h, payloadSize, padding, events) =>
            let p : Pending :=
              ⟨payloadSize, padding, h.packetIndex, h.protocolFlags, h.compressionLevel⟩
            .take HEADER_SIZE { s with stage := .payload p } events

def judgePayload (r : Receiver σ) (s : StreamState σ) (p : Pending) (xs : Bytes) :
    Verdict (StreamState σ) Event Ending :=
  if xs = [] ∨ xs.length < p.payloadSize then .more
  else
    match openPayload r s.decryptor p.protocolFlags p.padding p.compressionLevel
        (xs.take p.payloadSize) with
    | .error e => .stop (withoutBuffer e)
    | .ok (data, decryptor) =>
        match processPayload r p.packetIndex p.protocolFlags s.rawPackets data with
        | .error e => .stop (withoutBuffer e)
        | .ok (rawPackets, events) =>
            .take p.payloadSize ⟨.header, decryptor, rawPackets⟩ events

def judge (r : Receiver σ) (s : StreamState σ) (xs : Bytes) :
    Verdict (StreamState σ) Event Ending :=
  match s.stage with
  | .searching =>
      match findXpraHeader xs with
      | none => .more
      | some pos => .take pos { s with stage := .header } []
  | .header => judgeHeader r s xs
  | .payload p => judgePayload r s p xs

def rank (s : StreamState σ) : Nat :=
  match s.stage with
  | .header => 0
  | .payload _ => 1
  | .searching => 2

theorem judgeHeader_take {r : Receiver σ} {s next : StreamState σ} {xs : Bytes} {count : Nat}
    {events : List Event} (h : judgeHeader r s xs = .take count next events) :
    count = HEADER_SIZE ∧ HEADER_SIZE < xs.length := by
  unfold judgeHeader at h
  split at h
  · cases h
  · split at h
    · cases h
    · split at h
      · cases h
      · split at h
        · cases h
        · cases h
          exact ⟨rfl, by omega⟩

theorem judgeHeader_append {r : Receiver σ} {s : StreamState σ} {xs : Bytes} (ys : Bytes)
    (decided : judgeHeader r s xs ≠ .more) : judgeHeader r s (xs ++ ys) = judgeHeader r s xs := by
  cases xs with
  | nil => exact absurd rfl decided
  | cons b rest =>
      simp only [judgeHeader, List.cons_append] at decided ⊢
      by_cases first : b ≠ PACKET_HEADER_CHAR
      · rw [if_pos first, if_pos first]
      · rw [if_neg first] at decided
        rw [if_neg first, if_neg first]
        by_cases short : (b :: rest).length ≤ HEADER_SIZE
        · rw [if_pos short] at decided
          exact absurd rfl decided
        · have long : ¬ (b :: (rest ++ ys)).length ≤ HEADER_SIZE := by
            simp only [List.length_cons, List.length_append] at short ⊢
            omega
          have same : (b :: (rest ++ ys)).take HEADER_SIZE = (b :: rest).take HEADER_SIZE := by
            rw [← List.cons_append, List.take_append_of_le_length (by omega)]
          rw [if_neg short, if_neg long, same]

theorem judgePayload_take {r : Receiver σ} {s next : StreamState σ} {p : Pending} {xs : Bytes}
    {count : Nat} {events : List Event} (h : judgePayload r s p xs = .take count next events) :
    count = p.payloadSize ∧ count ≤ xs.length ∧ next.stage = .header := by
  unfold judgePayload at h
  split at h
  · cases h
  · split at h
    · cases h
    · split at h
      · cases h
      · cases h
        exact ⟨rfl, by omega, rfl⟩

theorem judgePayload_append {r : Receiver σ} {s : StreamState σ} {p : Pending} {xs : Bytes}
    (ys : Bytes) (decided : judgePayload r s p xs ≠ .more) :
    judgePayload r s p (xs ++ ys) = judgePayload r s p xs := by
  unfold judgePayload at decided ⊢
  by_cases short : xs = [] ∨ xs.length < p.payloadSize
  · rw [if_pos short] at decided
    exact absurd rfl decided
  · have long : ¬ (xs ++ ys = [] ∨ (xs ++ ys).length < p.payloadSize) := by
      simp only [List.append_eq_nil_iff, List.length_append]
      rintro (⟨nil, _⟩ | less)
      · exact short (.inl nil)
      · exact short (.inr (by omega))
    rw [if_neg short, if_neg long, List.take_append_of_le_length (by omega)]

/-- The parse loop without buffers: decisions on the bytes held, which more bytes never revise. -/
def streamParser (r : Receiver σ) : Parser UInt8 (StreamState σ) Event Ending where
  judge := judge r
  rank := rank
  idle s := by
    cases stage : s.stage <;> simp [judge, stage, judgeHeader, judgePayload, findXpraHeader, findFrom]
  bounded {s xs count next events} h := by
    unfold judge at h
    split at h
    · split at h
      · cases h
      · next pos found =>
          cases h
          have inside := (findFrom_spec found).2.1
          omega
    · obtain ⟨rfl, long⟩ := judgeHeader_take h
      omega
    · exact (judgePayload_take h).2.1
  progress {s xs count next events} h := by
    cases stage : s.stage with
    | searching =>
        simp only [judge, stage] at h
        split at h
        · cases h
        · cases h
          exact .inr (by simp [rank, stage])
    | header =>
        simp only [judge, stage] at h
        exact .inl (by rw [(judgeHeader_take h).1]; decide)
    | payload p =>
        simp only [judge, stage] at h
        exact .inr (by simp [rank, stage, (judgePayload_take h).2.2])
  final {s xs} ys decided := by
    cases stage : s.stage with
    | searching =>
        simp only [judge, stage] at decided ⊢
        cases found : findXpraHeader xs with
        | none =>
            rw [found] at decided
            exact absurd rfl decided
        | some pos =>
            have later : findXpraHeader (xs ++ ys) = some pos := findFrom_append ys found
            rw [later]
    | header =>
        simp only [judge, stage] at decided ⊢
        exact judgeHeader_append ys decided
    | payload p =>
        simp only [judge, stage] at decided ⊢
        exact judgePayload_append ys decided

/-! ### The loop refines the parser -/

def stageOf (st : ParseState σ) : Stage :=
  if st.waitForHeader then .searching
  else if st.payloadSize < 0 then .header
  else .payload
    ⟨st.payloadSize.toNat, st.padding, st.packetIndex, st.protocolFlags, st.compressionLevel⟩

def streamState (st : ParseState σ) : StreamState σ :=
  ⟨stageOf st, st.decryptor, st.rawPackets⟩

/-- The bytes that were received and are not yet part of a parsed header or payload. -/
def unread (st : ParseState σ) : Bytes :=
  (if st.payloadSize < 0 then st.header else []) ++ st.readBuffers.flatten

/-- What holds of the loop's variables whenever it looks at its buffers. -/
structure Coherent (st : ParseState σ) : Prop where
  size : st.payloadSize < 0 ∨ 0 < st.payloadSize
  short : st.header.length ≤ HEADER_SIZE
  first : st.payloadSize < 0 → st.header = [] ∨ st.header.head? = some PACKET_HEADER_CHAR
  searching : st.waitForHeader = true → st.payloadSize < 0 ∧ st.header = []
  filled : ∀ buf ∈ st.readBuffers, buf ≠ []

/-- The outcome of the parser that a stand of the loop is. -/
def Stand.outcome : Stand σ → Outcome UInt8 (StreamState σ) Ending
  | .waiting st => .waiting (streamState st) (unread st)
  | .ended e => .stopped (withoutBuffer e)

def StandCoherent : Stand σ → Prop
  | .waiting st => Coherent st
  | .ended _ => True

theorem sum_length (bufs : List Bytes) : (bufs.map List.length).sum = bufs.flatten.length := by
  rw [List.length_flatten]

@[simp] theorem weight_nil : weight [] = 0 := rfl

@[simp] theorem weight_cons (buf : Bytes) (bufs : List Bytes) :
    weight (buf :: bufs) = buf.length + 1 + weight bufs := by
  simp [weight]

theorem length_le_weight (bufs : List Bytes) : bufs.flatten.length ≤ weight bufs := by
  induction bufs with
  | nil => simp
  | cons buf bufs ih =>
      simp only [weight_cons, List.flatten_cons, List.length_append]
      omega

theorem drop_ne_nil {size : Nat} {buf : Bytes} (larger : size < buf.length) :
    buf.drop size ≠ [] := by
  intro empty
  have gone := congrArg List.length empty
  simp only [List.length_drop, List.length_nil] at gone
  omega

theorem slicePayload_none {size : Nat} {bufs : List Bytes} (h : slicePayload size bufs = none) :
    bufs.flatten.length < size := by
  unfold slicePayload at h
  split at h
  · rwa [← sum_length]
  · split at h
    · cases h
    · split at h
      · cases h
      · split at h
        · cases h
        · dsimp only at h
          split at h <;> cases h

/-- The three ways of slicing all take the first `size` bytes and keep the rest. -/
theorem slicePayload_some {size : Nat} {bufs rest : List Bytes} {rawData : Bytes}
    (h : slicePayload size bufs = some (rawData, rest)) (positive : 0 < size)
    (filled : ∀ buf ∈ bufs, buf ≠ []) :
    size ≤ bufs.flatten.length ∧ rawData = bufs.flatten.take size ∧
      rest.flatten = bufs.flatten.drop size ∧ (∀ buf ∈ rest, buf ≠ []) ∧ weight rest < weight bufs := by
  unfold slicePayload at h
  split at h
  case isTrue => cases h
  case isFalse enough =>
    rw [sum_length] at enough
    have total : size ≤ bufs.flatten.length := by omega
    cases bufs with
    | nil => simp at total; omega
    | cons buf others =>
        have othersFilled : ∀ b ∈ others, b ≠ [] := fun b member => filled b (List.mem_cons_of_mem _ member)
        simp only at h
        split at h
        case isTrue exactly =>
          cases h
          refine ⟨total, ?_, ?_, othersFilled, ?_⟩
          · simp [← exactly]
          · simp [← exactly]
          · simp
        case isFalse =>
          split at h
          case isTrue larger =>
            cases h
            refine ⟨total, ?_, ?_, ?_, ?_⟩
            · rw [List.flatten_cons, List.take_append_of_le_length (by omega)]
            · rw [List.flatten_cons, List.flatten_cons, List.drop_append_of_le_length (by omega)]
            · intro b member
              rcases List.mem_cons.mp member with rfl | member
              · exact drop_ne_nil larger
              · exact othersFilled b member
            · simp only [weight_cons, List.length_drop]
              omega
          case isFalse smaller =>
            have bound : (buf :: others).flatten.length < weight (buf :: others) := by
              have tail := length_le_weight others
              simp only [weight_cons, List.flatten_cons, List.length_append]
              omega
            split at h
            case isTrue all =>
              cases h
              refine ⟨total, ?_, ?_, by simp, ?_⟩
              · rw [← all, List.take_length]
              · rw [← all, List.drop_length, List.flatten_nil]
              · rw [weight_nil]
                omega
            case isFalse some =>
              cases h
              refine ⟨total, rfl, by simp, ?_, ?_⟩
              · intro b member
                rw [List.mem_singleton] at member
                subst member
                exact drop_ne_nil (by omega)
              · calc
                  weight [(buf :: others).flatten.drop size] =
                      (buf :: others).flatten.length - size + 1 := by simp
                  _ < weight (buf :: others) := by omega

theorem parseHeader_positive {r : Receiver σ} {header : Bytes} {h : PacketHeader}
    {payloadSize padding : Nat} {events : List Event}
    (parsed : parseHeader r header = .ok (h, payloadSize, padding, events)) : 0 < payloadSize := by
  unfold parseHeader at parsed
  split at parsed
  · cases parsed
  · split at parsed
    · cases parsed
    · split at parsed
      · cases parsed
      · split at parsed
        · cases parsed
        · split at parsed
          · cases parsed
          · cases parsed
            omega

/-- What a flow says about the parser on the bytes unread before it. -/
def Refines (r : Receiver σ) (st : ParseState σ) : Flow σ → Prop
  | .next after events =>
      Coherent after ∧ after.waitForHeader = false ∧ ¬ after.payloadSize < 0 ∧
      weight after.readBuffers ≤ weight st.readBuffers ∧
      (streamParser r).drain (streamState st) (unread st) =
        emit events ((streamParser r).drain (streamState after) (unread after))
  | .again after events =>
      Coherent after ∧ after.waitForHeader = false ∧
      weight after.readBuffers < weight st.readBuffers ∧
      (streamParser r).drain (streamState st) (unread st) =
        emit events ((streamParser r).drain (streamState after) (unread after))
  | .wait after events =>
      Coherent after ∧
      (streamParser r).drain (streamState st) (unread st) =
        (events, .waiting (streamState after) (unread after))
  | .ended e events =>
      (streamParser r).drain (streamState st) (unread st) = (events, .stopped (withoutBuffer e))

theorem readHeader_refines (r : Receiver σ) {st : ParseState σ} {buf : Bytes} {others : List Bytes}
    (coherent : Coherent st) (found : st.waitForHeader = false) (noHeader : st.payloadSize < 0)
    (buffers : st.readBuffers = buf :: others) : Refines r st (readHeader r st buf others) := by
  have bufFilled : buf ≠ [] := coherent.filled buf (by simp [buffers])
  have othersFilled : ∀ b ∈ others, b ≠ [] := fun b member =>
    coherent.filled b (by rw [buffers]; exact List.mem_cons_of_mem _ member)
  have stage : streamState st = ⟨.header, st.decryptor, st.rawPackets⟩ := by
    simp [streamState, stageOf, found, noHeader]
  have held : unread st = st.header ++ (buf ++ others.flatten) := by
    simp [unread, noHeader, buffers]
  have judged (xs : Bytes) : (streamParser r).judge (streamState st) xs =
      judgeHeader r (streamState st) xs := by
    simp [streamParser, judge, stage]
  unfold readHeader
  by_cases bad : st.header = [] ∧ buf.head? ≠ some PACKET_HEADER_CHAR
  · rw [if_pos bad]
    obtain ⟨b, rest, rfl⟩ := List.exists_cons_of_ne_nil bufFilled
    have other : b ≠ PACKET_HEADER_CHAR := fun same => bad.2 (by simp [same])
    apply Parser.drain_stop
    rw [judged, held, bad.1]
    simp [judgeHeader, other, withoutBuffer]
  · rw [if_neg bad]
    dsimp only
    -- the header bytes known after this buffer start with the header character
    have starts : ∃ rest, st.header ++ buf = PACKET_HEADER_CHAR :: rest := by
      rcases coherent.first noHeader with empty | starts
      · have head : buf.head? = some PACKET_HEADER_CHAR := by
          by_contra other
          exact bad ⟨empty, other⟩
        obtain ⟨b, rest, rfl⟩ := List.exists_cons_of_ne_nil bufFilled
        simp only [List.head?_cons, Option.some.injEq] at head
        exact ⟨rest, by simp [empty, head]⟩
      · cases header : st.header with
        | nil => simp [header] at starts
        | cons b rest =>
            simp only [header, List.head?_cons, Option.some.injEq] at starts
            exact ⟨rest ++ buf, by simp [starts]⟩
    have short := coherent.short
    by_cases whole : buf.length ≤ HEADER_SIZE - st.header.length
    · -- the buffer is used up, with or without completing the header
      have read : buf.take (min buf.length (HEADER_SIZE - st.header.length)) = buf := by
        rw [Nat.min_eq_left whole, List.take_length]
      have again : Refines r st
          (.again { st with header := st.header ++ buf, readBuffers := others } []) := by
        refine ⟨⟨.inl noHeader, ?_, ?_, ?_, othersFilled⟩, found, ?_, ?_⟩
        · simp only [List.length_append]
          omega
        · intro _
          obtain ⟨rest, shape⟩ := starts
          exact .inr (by simp [shape])
        · simp [found]
        · simp [buffers]
        · have same : unread { st with header := st.header ++ buf, readBuffers := others } =
              unread st := by
            rw [held]
            simp [unread, noHeader]
          rw [same]
          rfl
      rw [read, Nat.min_eq_left whole]
      by_cases incomplete : (st.header ++ buf).length < HEADER_SIZE
      · rw [if_pos incomplete]
        exact again
      · rw [if_neg incomplete, if_pos (Nat.le_refl _)]
        exact again
    · have read : min buf.length (HEADER_SIZE - st.header.length) =
          HEADER_SIZE - st.header.length := Nat.min_eq_right (by omega)
      rw [read]
      have complete : (st.header ++ buf.take (HEADER_SIZE - st.header.length)).length =
          HEADER_SIZE := by
        simp only [List.length_append, List.length_take]
        omega
      rw [if_neg (by omega), if_neg (by omega)]
      have split : unread st = (st.header ++ buf.take (HEADER_SIZE - st.header.length)) ++
          (buf.drop (HEADER_SIZE - st.header.length) ++ others.flatten) := by
        rw [held, List.append_assoc, ← List.append_assoc (buf.take _), List.take_append_drop]
      have long : HEADER_SIZE < (unread st).length := by
        rw [held]
        simp only [List.length_append]
        omega
      generalize header : st.header ++ buf.take (HEADER_SIZE - st.header.length) = h at split complete
      have taken : (unread st).take HEADER_SIZE = h := by
        rw [split, List.take_append_of_le_length (by omega), ← complete, List.take_length]
      have dropped : (unread st).drop HEADER_SIZE =
          buf.drop (HEADER_SIZE - st.header.length) ++ others.flatten := by
        rw [split, ← complete, List.drop_left]
      obtain ⟨rest, shape⟩ : ∃ rest, unread st = PACKET_HEADER_CHAR :: rest := by
        obtain ⟨rest, shape⟩ := starts
        exact ⟨rest ++ others.flatten, by rw [held, ← List.append_assoc, shape, List.cons_append]⟩
      have verdict : judgeHeader r (streamState st) (unread st) =
          match parseHeader r h with
          | .error e => .stop (withoutBuffer e)
          | .ok (h, payloadSize, padding, events) =>
              let p : Pending :=
                ⟨payloadSize, padding, h.packetIndex, h.protocolFlags, h.compressionLevel⟩
              .take HEADER_SIZE { streamState st with stage := .payload p } events := by
        rw [shape] at taken long ⊢
        simp only [judgeHeader, ne_eq, not_true_eq_false, if_false, taken]
        rw [if_neg (by omega)]
      cases parsed : parseHeader r h with
      | error e =>
          apply Parser.drain_stop
          rw [judged, verdict, parsed]
      | ok result =>
          obtain ⟨fields, payloadSize, padding, events⟩ := result
          have positive := parseHeader_positive parsed
          refine ⟨⟨.inr (by simpa using positive), Nat.le_of_eq complete, ?_, by simp [found], ?_⟩,
            found, ?_, ?_, ?_⟩
          · intro negative
            simp only at negative
            omega
          · intro b member
            rcases List.mem_cons.mp member with rfl | member
            · exact drop_ne_nil (by omega)
            · exact othersFilled b member
          · simp only
            omega
          · simp only [buffers, weight_cons, List.length_drop]
            omega
          · rw [Parser.drain_take (streamParser r) ((judged _).trans (verdict.trans (by rw [parsed]))),
              dropped]
            congr 2
            simp [streamState, stageOf, found]

theorem readPayload_refines (r : Receiver σ) {st : ParseState σ} (coherent : Coherent st)
    (found : st.waitForHeader = false) (sized : ¬ st.payloadSize < 0) :
    Refines r st (readPayload r st) := by
  have positive : 0 < st.payloadSize := coherent.size.resolve_left sized
  have stage : streamState st = ⟨.payload ⟨st.payloadSize.toNat, st.padding, st.packetIndex,
      st.protocolFlags, st.compressionLevel⟩, st.decryptor, st.rawPackets⟩ := by
    simp [streamState, stageOf, found, sized]
  have held : unread st = st.readBuffers.flatten := by
    simp [unread, sized]
  unfold readPayload
  cases sliced : slicePayload st.payloadSize.toNat st.readBuffers with
  | none =>
      have lacking := slicePayload_none sliced
      refine ⟨coherent, ?_⟩
      apply Parser.drain_more
      simp only [streamParser, judge, stage, judgePayload, held]
      rw [if_pos (.inr lacking)]
  | some result =>
      obtain ⟨rawData, rest⟩ := result
      obtain ⟨enough, raw, left, restFilled, lighter⟩ :=
        slicePayload_some sliced (by omega) coherent.filled
      have nonempty : ¬ (st.readBuffers.flatten = [] ∨
          st.readBuffers.flatten.length < st.payloadSize.toNat) := by
        rintro (empty | less)
        · rw [empty, List.length_nil] at enough
          omega
        · omega
      have judged : (streamParser r).judge (streamState st) (unread st) =
          match openPayload r st.decryptor st.protocolFlags st.padding st.compressionLevel rawData with
          | .error e => .stop (withoutBuffer e)
          | .ok (data, decryptor) =>
              match processPayload r st.packetIndex st.protocolFlags st.rawPackets data with
              | .error e => .stop (withoutBuffer e)
              | .ok (rawPackets, events) =>
                  .take st.payloadSize.toNat ⟨.header, decryptor, rawPackets⟩ events := by
        simp only [streamParser, judge, stage, judgePayload, held, ← raw]
        rw [if_neg nonempty]
      simp only
      cases opened : openPayload r st.decryptor st.protocolFlags st.padding st.compressionLevel rawData with
      | error e =>
          rw [opened] at judged
          exact Parser.drain_stop _ judged
      | ok pair =>
          obtain ⟨data, decryptor⟩ := pair
          rw [opened] at judged
          simp only at judged ⊢
          cases processed : processPayload r st.packetIndex st.protocolFlags st.rawPackets data with
          | error e =>
              rw [processed] at judged
              exact Parser.drain_stop _ judged
          | ok pair =>
              obtain ⟨rawPackets, events⟩ := pair
              rw [processed] at judged
              refine ⟨⟨.inl (by simp), by simp, fun _ => .inl rfl, by simp, restFilled⟩, found, lighter, ?_⟩
              rw [Parser.drain_take _ judged]
              congr 2
              · simp [streamState, stageOf, found]
              · rw [held, ← left]
                simp [unread]

theorem readPayload_ne_next (r : Receiver σ) (st after : ParseState σ) (events : List Event) :
    readPayload r st ≠ .next after events := by
  unfold readPayload
  split
  · simp
  · split
    · simp
    · split <;> simp

/-- A second stage refines the whole turn once the first one has refined its part. -/
theorem refines_after {r : Receiver σ} {st mid : ParseState σ} {events : List Event}
    {flow : Flow σ} (lighter : weight mid.readBuffers ≤ weight st.readBuffers)
    (drained : (streamParser r).drain (streamState st) (unread st) =
      emit events ((streamParser r).drain (streamState mid) (unread mid)))
    (rest : Refines r mid flow) : Refines r st (flow.after events) := by
  cases flow with
  | next after later =>
      obtain ⟨coherent, found, sized, less, same⟩ := rest
      refine ⟨coherent, found, sized, by omega, ?_⟩
      rw [drained, same, emit_emit]
  | again after later =>
      obtain ⟨coherent, found, less, same⟩ := rest
      refine ⟨coherent, found, by omega, ?_⟩
      rw [drained, same, emit_emit]
  | wait after later =>
      obtain ⟨coherent, same⟩ := rest
      refine ⟨coherent, ?_⟩
      rw [drained, same, emit]
  | ended e later =>
      simp only [Refines] at rest
      simp only [Flow.after, Refines]
      rw [drained, rest, emit]

theorem turn_refines (r : Receiver σ) {st : ParseState σ} {buf : Bytes} {others : List Bytes}
    (coherent : Coherent st) (found : st.waitForHeader = false)
    (buffers : st.readBuffers = buf :: others) : Refines r st (turn r st buf others) := by
  unfold turn
  by_cases noHeader : st.payloadSize < 0
  · rw [if_pos noHeader]
    have first := readHeader_refines r coherent found noHeader buffers
    cases flow : readHeader r st buf others with
    | next mid events =>
        rw [flow] at first
        obtain ⟨midCoherent, midFound, midSized, lighter, drained⟩ := first
        exact refines_after lighter drained (readPayload_refines r midCoherent midFound midSized)
    | again after events => rwa [flow] at first
    | wait after events => rwa [flow] at first
    | ended e events => rwa [flow] at first
  · rw [if_neg noHeader]
    exact readPayload_refines r coherent found noHeader

theorem turn_ne_next (r : Receiver σ) (st after : ParseState σ) (buf : Bytes)
    (others : List Bytes) (events : List Event) : turn r st buf others ≠ .next after events := by
  unfold turn
  split
  · split
    · next mid earlier flow =>
        have rest := readPayload_ne_next r mid
        cases later : readPayload r mid with
        | next last events => exact absurd later (rest last events)
        | again | wait | ended => simp [Flow.after]
    · next noNext =>
        intro same
        exact noNext _ _ same
  · exact readPayload_ne_next r st after events

/-- With nothing left in its buffers the loop waits, and so does the parser. -/
theorem drain_empty (r : Receiver σ) {st : ParseState σ} (coherent : Coherent st)
    (found : st.waitForHeader = false) (empty : st.readBuffers = []) :
    (streamParser r).drain (streamState st) (unread st) =
      ([], .waiting (streamState st) (unread st)) := by
  apply Parser.drain_more
  by_cases noHeader : st.payloadSize < 0
  · have stage : (streamState st).stage = .header := by simp [streamState, stageOf, found, noHeader]
    have held : unread st = st.header := by simp [unread, noHeader, empty]
    simp only [streamParser, judge, stage, held]
    rcases header : st.header with _ | ⟨b, rest⟩
    · rfl
    · have starts := coherent.first noHeader
      have short := coherent.short
      simp only [header, List.head?_cons, Option.some.injEq, reduceCtorEq, false_or] at starts
      rw [header] at short
      simp only [judgeHeader]
      rw [if_neg (by simp [starts]), if_pos short]
  · have stage : ∃ p, (streamState st).stage = .payload p :=
      ⟨_, by simp only [streamState, stageOf, found, noHeader]; rfl⟩
    obtain ⟨p, stage⟩ := stage
    have held : unread st = [] := by simp [unread, noHeader, empty]
    simp only [streamParser, judge, stage, held, judgePayload, true_or, if_true]

/-- Enough turns are available, and they drain the unread bytes. -/
theorem whileReadBuffers_refines (r : Receiver σ) (fuel : Nat) {st : ParseState σ}
    (coherent : Coherent st) (found : st.waitForHeader = false)
    (enough : weight st.readBuffers < fuel) :
    ∃ events stand, whileReadBuffers r fuel st = some (events, stand) ∧ StandCoherent stand ∧
      (streamParser r).drain (streamState st) (unread st) = (events, Stand.outcome stand) := by
  induction fuel generalizing st with
  | zero => omega
  | succ fuel ih =>
      unfold whileReadBuffers
      cases buffers : st.readBuffers with
      | nil => exact ⟨[], .waiting st, rfl, coherent, drain_empty r coherent found buffers⟩
      | cons buf others =>
          have step := turn_refines r coherent found buffers
          simp only
          cases flow : turn r st buf others with
          | next after events => exact absurd flow (turn_ne_next r st after buf others events)
          | wait after events =>
              rw [flow] at step
              exact ⟨events, .waiting after, rfl, step.1, step.2⟩
          | ended e events =>
              rw [flow] at step
              exact ⟨events, .ended e, rfl, trivial, step⟩
          | again after events =>
              rw [flow] at step
              obtain ⟨afterCoherent, afterFound, lighter, drained⟩ := step
              obtain ⟨later, stand, run, standCoherent, rest⟩ :=
                ih afterCoherent afterFound (by omega)
              refine ⟨events ++ later, stand, by simp [run], standCoherent, ?_⟩
              rw [drained, rest, emit]

/-- The state between two reads: coherent, and with nothing left to do. -/
structure Quiet (r : Receiver σ) (st : ParseState σ) : Prop extends Coherent st where
  drained : (streamParser r).drain (streamState st) (unread st) =
    ([], .waiting (streamState st) (unread st))

theorem readBuffer_refines (r : Receiver σ) {st : ParseState σ} (coherent : Coherent st)
    {buf : Bytes} (filled : buf ≠ []) :
    ∃ events stand, readBuffer r st buf = some (events, stand) ∧ StandCoherent stand ∧
      (streamParser r).drain (streamState st) (unread st ++ buf) = (events, Stand.outcome stand) := by
  have appended : ∀ b ∈ st.readBuffers ++ [buf], b ≠ [] := by
    intro b member
    rcases List.mem_append.mp member with old | new
    · exact coherent.filled b old
    · rw [List.mem_singleton] at new
      exact new ▸ filled
  unfold readBuffer
  simp only [if_neg filled]
  cases searching : st.waitForHeader with
  | false =>
      rw [if_neg (by simp)]
      have held : unread { st with readBuffers := st.readBuffers ++ [buf] } = unread st ++ buf := by
        simp [unread]
      have after : Coherent { st with readBuffers := st.readBuffers ++ [buf] } :=
        ⟨coherent.size, coherent.short, coherent.first, coherent.searching, appended⟩
      obtain ⟨events, stand, run, standCoherent, drained⟩ :=
        whileReadBuffers_refines r _ after searching (Nat.lt_succ_self _)
      rw [held] at drained
      rw [searching] at run
      exact ⟨events, stand, run, standCoherent, drained⟩
  | true =>
      rw [if_pos rfl]
      obtain ⟨noHeader, empty⟩ := coherent.searching searching
      have held : unread st ++ buf = (st.readBuffers ++ [buf]).flatten := by
        simp [unread, noHeader, empty]
      have stage : streamState st = ⟨.searching, st.decryptor, st.rawPackets⟩ := by
        simp [streamState, stageOf, searching]
      rw [held]
      cases position : findXpraHeader (st.readBuffers ++ [buf]).flatten with
      | none =>
          refine ⟨[], _, rfl, ⟨.inl noHeader, by simp [empty], fun _ => .inl empty,
            fun _ => ⟨noHeader, empty⟩, ?_⟩, ?_⟩
          · intro b member
            rw [List.mem_singleton] at member
            rw [member, ← held]
            simp [filled]
          · rw [Parser.drain_more (streamParser r)
              (show judge r (streamState st) _ = _ by simp only [judge, stage, position])]
            simp [Stand.outcome, streamState, stageOf, searching, unread, noHeader, empty]
      | some pos =>
          obtain ⟨_, _, tail, atFound⟩ := findFrom_spec position
          rw [Nat.sub_zero] at atFound
          let after : ParseState σ := { st with
            readBuffers := [(st.readBuffers ++ [buf]).flatten.drop pos]
            waitForHeader := false }
          have afterCoherent : Coherent after := by
            refine ⟨.inl noHeader, by simp [after, empty], fun _ => .inl empty, by simp [after], ?_⟩
            intro b member
            have same : b = (st.readBuffers ++ [buf]).flatten.drop pos := List.mem_singleton.mp member
            rw [same, atFound]
            simp
          obtain ⟨events, stand, run, standCoherent, drained⟩ :=
            whileReadBuffers_refines r _ afterCoherent rfl (Nat.lt_succ_self _)
          refine ⟨events, stand, run, standCoherent, ?_⟩
          have judged : (streamParser r).judge (streamState st) (st.readBuffers ++ [buf]).flatten =
              .take pos ⟨.header, st.decryptor, st.rawPackets⟩ [] := by
            simp only [streamParser, judge, stage]
            rw [position]
          rw [Parser.drain_take (streamParser r) judged, emit_nil, ← drained]
          congr 1
          · simp [after, streamState, stageOf, noHeader]
          · simp [after, unread, noHeader, empty]

/-- Reading any sequence of buffers is feeding them to the parser. -/
theorem readQueue_refines (r : Receiver σ) {st : ParseState σ} (quiet : Quiet r st)
    (bufs : List Bytes) (filled : ∀ buf ∈ bufs, buf ≠ []) :
    ∃ events stand, readQueue r st bufs = some (events, stand) ∧
      (streamParser r).feed (streamState st) (unread st) bufs = (events, Stand.outcome stand) := by
  induction bufs generalizing st with
  | nil => exact ⟨[], .waiting st, rfl, rfl⟩
  | cons buf bufs ih =>
      obtain ⟨events, stand, run, standCoherent, drained⟩ :=
        readBuffer_refines r quiet.toCoherent (filled buf List.mem_cons_self)
      cases stand with
      | ended e =>
          refine ⟨events, .ended e, by simp [readQueue, run], ?_⟩
          simp [Parser.feed, drained, Stand.outcome]
      | waiting after =>
          have next : Quiet r after := ⟨standCoherent, Parser.drain_held _ drained⟩
          obtain ⟨later, last, rest, fed⟩ :=
            ih next (fun b member => filled b (List.mem_cons_of_mem _ member))
          refine ⟨events ++ later, last, by simp [readQueue, run, rest], ?_⟩
          simp [Parser.feed, drained, Stand.outcome, fed, emit]

theorem initial_quiet (r : Receiver σ) (waitForHeader : Bool) (decryptor : Option σ) :
    Quiet r ({ waitForHeader := waitForHeader, decryptor := decryptor } : ParseState σ) where
  size := .inl (by simp)
  short := by simp
  first := by simp
  searching := by simp
  filled := by simp
  drained := Parser.drain_nil _ _

/-- The parse loop over any cut of a stream is the parser on the whole stream. -/
theorem loop_refines (r : Receiver σ) (waitForHeader : Bool) (decryptor : Option σ)
    (bufs : List Bytes) (filled : ∀ buf ∈ bufs, buf ≠ []) :
    ∃ events stand, doReadParseThreadLoop r waitForHeader decryptor bufs = some (events, stand) ∧
      (streamParser r).drain ⟨if waitForHeader then .searching else .header, decryptor, []⟩
        bufs.flatten = (events, Stand.outcome stand) := by
  have quiet := initial_quiet r waitForHeader decryptor
  obtain ⟨events, stand, run, fed⟩ := readQueue_refines r quiet bufs filled
  refine ⟨events, stand, run, ?_⟩
  rw [Parser.feed_eq_drain _ _ _ _ quiet.drained] at fed
  exact fed

/-! ### What an observer sees -/

def packetsOf (events : List Event) : List (List PyVal) :=
  events.filterMap fun
    | .processPacket packet => some packet
    | .checkPacketSize _ _ => none

/-- The kind of state the loop is in when the stream is used up. -/
inductive EndKind
  | waiting
  | closed
  | invalidHeader
  | invalid
  | gibberish
  | decryptFailed
  | error
  deriving DecidableEq, Repr

def kindOf : Stand σ → EndKind
  | .waiting _ => .waiting
  | .ended .closed => .closed
  | .ended (.invalidHeader _ _) => .invalidHeader
  | .ended (.invalid _ _) => .invalid
  | .ended (.gibberish _ _) => .gibberish
  | .ended (.decryptFailed _) => .decryptFailed
  | .ended (.raised _) => .error

/-- The received bytes that the loop still holds. -/
def unreadOf : Stand σ → Bytes
  | .waiting st => unread st
  | .ended _ => []

theorem kindOf_eq {first second : Stand σ} (same : Stand.outcome first = Stand.outcome second) :
    kindOf first = kindOf second := by
  cases first with
  | waiting st =>
      cases second with
      | waiting => rfl
      | ended e => cases same
  | ended e =>
      cases second with
      | waiting => cases same
      | ended e' =>
          simp only [Stand.outcome, Outcome.stopped.injEq] at same
          cases e <;> cases e' <;> simp_all [withoutBuffer, kindOf]

theorem unreadOf_eq {first second : Stand σ} (same : Stand.outcome first = Stand.outcome second) :
    unreadOf first = unreadOf second := by
  cases first <;> cases second <;> simp_all [Stand.outcome, unreadOf]

/-- Any two cuts of a stream into buffers give the same events, leave the loop in the same kind of
state, and leave it with the same bytes unread. -/
theorem segmentation_independent (r : Receiver σ) (waitForHeader : Bool) (decryptor : Option σ)
    (bufs bufs' : List Bytes) (filled : ∀ buf ∈ bufs, buf ≠ []) (filled' : ∀ buf ∈ bufs', buf ≠ [])
    (same : bufs.flatten = bufs'.flatten) :
    ∃ events stand events' stand',
      doReadParseThreadLoop r waitForHeader decryptor bufs = some (events, stand) ∧
      doReadParseThreadLoop r waitForHeader decryptor bufs' = some (events', stand') ∧
      packetsOf events = packetsOf events' ∧ kindOf stand = kindOf stand' ∧
      unreadOf stand = unreadOf stand' := by
  obtain ⟨events, stand, run, drained⟩ := loop_refines r waitForHeader decryptor bufs filled
  obtain ⟨events', stand', run', drained'⟩ := loop_refines r waitForHeader decryptor bufs' filled'
  rw [same, drained', Prod.mk.injEq] at drained
  exact ⟨events, stand, events', stand', run, run', by rw [drained.1],
    (kindOf_eq drained.2).symm, (unreadOf_eq drained.2).symm⟩

/-- A receiver of plain rencodeplus packets. -/
def plainReceiver : Receiver Unit where
  lib := ⟨[], "", fun ctx data => .ok (data, ctx), fun _ _ _ data => .ok data⟩
  cipherIn := ⟨"", 0, PADDING_PKCS7, false, false, []⟩
  codecs :=
    { decompressors := fun _ => none
      decoders := fun ptype => if ptype = "rencodeplus" then some (Rencodeplus.loads false) else none }
  maxPacketSize := 16 * 1024 * 1024
  absMaxPacketSize := 256 * 1024 * 1024

/-- A packet cut inside its header and inside its payload, and the same packet whole. -/
theorem segmentation_independent_hello :
    ∃ events stand events' stand',
      doReadParseThreadLoop plainReceiver false none
        [[80, 16, 0, 0, 0], [0, 0, 7, 193, 133, 104], [101, 108, 108, 111]] = some (events, stand) ∧
      doReadParseThreadLoop plainReceiver false none
        [[80, 16, 0, 0, 0, 0, 0, 7, 193, 133, 104, 101, 108, 108, 111]] = some (events', stand') ∧
      packetsOf events = packetsOf events' ∧ kindOf stand = kindOf stand' ∧
      unreadOf stand = unreadOf stand' :=
  segmentation_independent plainReceiver false none _ _ (by decide) (by decide) rfl

/-- Cut anywhere, that packet arrives. -/
example : (doReadParseThreadLoop plainReceiver false none
    [[80, 16, 0, 0, 0], [0, 0, 7, 193, 133, 104], [101, 108, 108, 111]]).map (packetsOf ∘ Prod.fst) =
    some [[.str "hello"]] := rfl

end Catlink.Segmentation
