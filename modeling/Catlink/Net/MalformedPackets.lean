import Catlink.Net.Segmentation

/-! Packets that make no sense: where the parse loop stands once it has met one. -/

namespace Catlink.MalformedPackets

open Header Crypto SocketProtocol Incremental Segmentation

variable {σ : Type}

/-- The three handlers that end a connection over what the peer sent. -/
def Handled : Ending → Prop
  | .invalidHeader _ _ | .invalid _ _ | .gibberish _ _ => True
  | .closed | .decryptFailed _ | .raised _ => False

def Contained : Stand σ → Prop
  | .waiting _ => True
  | .ended e => Handled e

/-- The exceptions that the loop catches around `decode`. -/
def Named : Exn → Prop
  | .invalidPacketEncoding _ | .valueError _ | .typeError _ | .indexError _ => True
  | _ => False

/-- The decoders raise nothing else. Around `decompress` every exception is caught. -/
def NamedErrors (codecs : Codecs) : Prop :=
  ∀ ptype f data e, codecs.decoders ptype = some f → f data = .error e → Named e

/-! ### What may arrive -/

/-- A complete header that passes the checks announces a payload. -/
def SoundHeader (r : Receiver σ) (xs : Bytes) : Prop :=
  ∀ h, xs.head? = some PACKET_HEADER_CHAR → HEADER_SIZE < xs.length →
    unpackHeader (xs.take HEADER_SIZE) = .ok h →
    h.dataSize ≤ r.absMaxPacketSize → h.packetIndex < 16 →
    (h.protocolFlags &&& FLAGS_CIPHER ≠ 0 → r.cipherIn.name ≠ "") →
    0 < h.dataSize ∨ (h.protocolFlags &&& FLAGS_CIPHER ≠ 0 ∧ r.cipherIn.blockSize ≠ 0)

/-- Decryption raises nothing and returns something. -/
def Decrypts (r : Receiver σ) (decryptor : Option σ) (padding : Nat) (rawData : Bytes) : Prop :=
  r.cipherIn.name ≠ "" →
    ∃ d, decrypt r.lib r.cipherIn decryptor rawData padding = .ok d ∧ d.data ≠ []

/-- What a payload says once it is decrypted and uncompressed. -/
def content (r : Receiver σ) (decryptor : Option σ) (padding compressionLevel : Nat)
    (rawData : Bytes) : Except Exn Bytes := do
  let clear ←
    if r.cipherIn.name = "" then .ok rawData
    else do
      let d ← decrypt r.lib r.cipherIn decryptor rawData padding
      .ok d.data
  if compressionLevel > 0 then decompress r.codecs clear compressionLevel else .ok clear

/-- A decoded packet has a type, and a place for every raw packet. -/
def PacketFits (rawPackets : List (Nat × Bytes)) (packet : List PyVal) : Prop :=
  packet ≠ [] ∧ ∀ entry ∈ rawPackets, entry.1 < packet.length

/-- A payload that has arrived, and is not dropped for want of encryption, decrypts; and a main
packet that decodes fits. -/
def SoundPayload (r : Receiver σ) (s : StreamState σ) (p : Pending) (xs : Bytes) : Prop :=
  xs ≠ [] → p.payloadSize ≤ xs.length →
    (r.cipherIn.name ≠ "" → p.protocolFlags &&& FLAGS_CIPHER ≠ 0) →
    Decrypts r s.decryptor p.padding (xs.take p.payloadSize) ∧
    (p.packetIndex = 0 → ∀ data packet,
      content r s.decryptor p.padding p.compressionLevel (xs.take p.payloadSize) = .ok data →
      decode r.codecs data p.protocolFlags >>= pyList = .ok packet →
      PacketFits s.rawPackets packet)

/-- What has arrived does not break the loop where it stands. -/
def Sound (r : Receiver σ) (s : StreamState σ) (xs : Bytes) : Prop :=
  match s.stage with
  | .searching => True
  | .header => SoundHeader r xs
  | .payload p => SoundPayload r s p xs

/-! ### Computations that only fail into the handlers -/

def AllHandled {α : Type} (x : Except Ending α) : Prop := ∀ e, x = .error e → Handled e

@[simp] theorem allHandled_ok {α : Type} (a : α) : AllHandled (.ok a : Except Ending α) :=
  fun _ failed => nomatch failed

@[simp] theorem allHandled_error {α : Type} (e : Ending) :
    AllHandled (.error e : Except Ending α) ↔ Handled e := by
  constructor
  · intro all
    exact all e rfl
  · intro handled e' failed
    cases failed
    exact handled

theorem allHandled_bind {α β : Type} (x : Except Ending α) (f : α → Except Ending β) :
    AllHandled (x >>= f) ↔ AllHandled x ∧ ∀ a, x = .ok a → AllHandled (f a) := by
  cases x with
  | error e =>
      have failed : (Except.error e >>= f : Except Ending β) = .error e := rfl
      simp [failed]
  | ok a =>
      have continued : (Except.ok a >>= f : Except Ending β) = f a := rfl
      simp [continued]

@[simp] theorem handled_withoutBuffer (e : Ending) : Handled (withoutBuffer e) ↔ Handled e := by
  cases e <;> rfl

/-! ### The header -/

theorem headerPadding_positive (r : Receiver σ) (h : PacketHeader) :
    0 < h.dataSize + headerPadding r h ↔
      0 < h.dataSize ∨ (h.protocolFlags &&& FLAGS_CIPHER ≠ 0 ∧ r.cipherIn.blockSize ≠ 0) := by
  unfold headerPadding
  by_cases flagged : h.protocolFlags &&& FLAGS_CIPHER ≠ 0
  · rw [if_pos flagged]
    by_cases blocks : r.cipherIn.blockSize = 0
    · simp [paddingSize, blocks]
    · have below : h.dataSize % r.cipherIn.blockSize < r.cipherIn.blockSize :=
        Nat.mod_lt _ (by omega)
      have padded : 0 < paddingSize r.cipherIn h.dataSize := by
        unfold paddingSize
        rw [if_neg blocks]
        dsimp only
        split <;> omega
      simp only [ne_eq, flagged, not_false_eq_true, blocks, and_self, or_true, iff_true]
      omega
  · rw [if_neg flagged]
    simp [flagged]

theorem parseHeader_handled (r : Receiver σ) {header : Bytes} {h : PacketHeader}
    (unpacked : unpackHeader header = .ok h) :
    AllHandled (parseHeader r header) ↔
      (h.dataSize ≤ r.absMaxPacketSize → h.packetIndex < 16 →
        (h.protocolFlags &&& FLAGS_CIPHER ≠ 0 → r.cipherIn.name ≠ "") →
        0 < h.dataSize + headerPadding r h) := by
  unfold parseHeader
  rw [unpacked]
  dsimp only
  by_cases large : h.dataSize > r.absMaxPacketSize
  · rw [if_pos large]
    simp only [allHandled_error, Handled, true_iff]
    omega
  · rw [if_neg large]
    by_cases index : h.packetIndex ≥ 16
    · rw [if_pos index]
      simp only [allHandled_error, Handled, true_iff]
      omega
    · rw [if_neg index]
      by_cases keyless : h.protocolFlags &&& FLAGS_CIPHER ≠ 0 ∧ r.cipherIn.name = ""
      · rw [if_pos keyless]
        simp only [allHandled_error, Handled, true_iff]
        intro _ _ named
        exact absurd keyless.2 (named keyless.1)
      · have named : h.protocolFlags &&& FLAGS_CIPHER ≠ 0 → r.cipherIn.name ≠ "" :=
          fun flagged unnamed => keyless ⟨flagged, unnamed⟩
        rw [if_neg keyless]
        by_cases empty : h.dataSize + headerPadding r h ≤ 0
        · rw [if_pos empty]
          simp only [allHandled_error, Handled, false_iff]
          intro positive
          have some := positive (by omega) (by omega) named
          omega
        · rw [if_neg empty]
          simp only [allHandled_ok, true_iff]
          omega

theorem judgeHeader_handled (r : Receiver σ) (s : StreamState σ) (xs : Bytes) :
    (∀ reason, judgeHeader r s xs = .stop reason → Handled reason) ↔ SoundHeader r xs := by
  cases xs with
  | nil => simp [judgeHeader, SoundHeader]
  | cons b rest =>
      simp only [judgeHeader]
      by_cases other : b ≠ PACKET_HEADER_CHAR
      · rw [if_pos other]
        simp [SoundHeader, other, Handled]
      · rw [if_neg other]
        have first : (b :: rest).head? = some PACKET_HEADER_CHAR := by
          simpa using other
        by_cases short : (b :: rest).length ≤ HEADER_SIZE
        · rw [if_pos short]
          have noHeader : SoundHeader r (b :: rest) := fun _ _ long => by omega
          simp [noHeader]
        · rw [if_neg short]
          have eight : HEADER_SIZE ≤ ((b :: rest).take HEADER_SIZE).length := by
            rw [List.length_take]
            omega
          obtain ⟨h, unpacked⟩ := unpackHeader_ok eight
          have sound : SoundHeader r (b :: rest) ↔
              AllHandled (parseHeader r ((b :: rest).take HEADER_SIZE)) := by
            rw [parseHeader_handled r unpacked, headerPadding_positive]
            constructor
            · intro sound
              exact sound h first (by omega) unpacked
            · intro sound h' _ _ unpacked'
              rw [unpacked] at unpacked'
              cases unpacked'
              exact sound
          rw [sound]
          cases parseHeader r ((b :: rest).take HEADER_SIZE) with
          | error e => simp
          | ok parsed => simp

/-! ### The payload -/

theorem decryptPayload_handled (r : Receiver σ) (decryptor : Option σ) (protocolFlags padding : Nat)
    (rawData : Bytes) :
    AllHandled (decryptPayload r decryptor protocolFlags padding rawData) ↔
      ((r.cipherIn.name ≠ "" → protocolFlags &&& FLAGS_CIPHER ≠ 0) →
        Decrypts r decryptor padding rawData) := by
  unfold decryptPayload
  by_cases unnamed : r.cipherIn.name = ""
  · rw [if_pos unnamed]
    simp [Decrypts, unnamed]
  · rw [if_neg unnamed]
    by_cases unflagged : protocolFlags &&& FLAGS_CIPHER = 0
    · rw [if_pos unflagged]
      simp [Handled, unnamed, unflagged]
    · rw [if_neg unflagged]
      cases decrypted : decrypt r.lib r.cipherIn decryptor rawData padding with
      | error e => simp [Handled, Decrypts, unnamed, unflagged, decrypted]
      | ok d =>
          by_cases nothing : d.data = []
          · simp [Handled, Decrypts, unnamed, unflagged, decrypted, nothing]
          · simp [Decrypts, unnamed, unflagged, decrypted, nothing]

theorem uncompressPayload_handled (codecs : Codecs) (compressionLevel : Nat) (data : Bytes) :
    AllHandled (uncompressPayload codecs compressionLevel data) := by
  unfold uncompressPayload
  split
  · split <;> simp [Handled]
  · simp

theorem uncompressPayload_ok (codecs : Codecs) (compressionLevel : Nat) (clear data : Bytes) :
    uncompressPayload codecs compressionLevel clear = .ok data ↔
      (if compressionLevel > 0 then decompress codecs clear compressionLevel else .ok clear) =
        .ok data := by
  unfold uncompressPayload
  by_cases compressed : compressionLevel > 0
  · rw [if_pos compressed, if_pos compressed]
    cases decompress codecs clear compressionLevel with
    | ok found => simp
    | error e => cases e <;> simp
  · rw [if_neg compressed, if_neg compressed]
    simp

theorem openPayload_handled (r : Receiver σ) (decryptor : Option σ)
    (protocolFlags padding compressionLevel : Nat) (rawData : Bytes) :
    AllHandled (openPayload r decryptor protocolFlags padding compressionLevel rawData) ↔
      ((r.cipherIn.name ≠ "" → protocolFlags &&& FLAGS_CIPHER ≠ 0) →
        Decrypts r decryptor padding rawData) := by
  rw [openPayload, allHandled_bind, decryptPayload_handled]
  have rest (a : Bytes × Option σ) : AllHandled (do
      let data ← uncompressPayload r.codecs compressionLevel a.1
      .ok (data, a.2)) := by
    rw [allHandled_bind]
    exact ⟨uncompressPayload_handled _ _ _, fun data _ => allHandled_ok _⟩
  simp only [rest, implies_true, and_true]

/-- A payload is opened to its content, unless it is dropped or decrypts to nothing. -/
theorem openPayload_content (r : Receiver σ) (decryptor : Option σ)
    (protocolFlags padding compressionLevel : Nat) (rawData data : Bytes) :
    (∃ after, openPayload r decryptor protocolFlags padding compressionLevel rawData =
        .ok (data, after)) ↔
      (r.cipherIn.name ≠ "" → protocolFlags &&& FLAGS_CIPHER ≠ 0) ∧
        Decrypts r decryptor padding rawData ∧
        content r decryptor padding compressionLevel rawData = .ok data := by
  have uncompressed (clear : Bytes) (state : Option σ) :
      (∃ after, (do
        let data ← uncompressPayload r.codecs compressionLevel clear
        .ok (data, state) : Except Ending (Bytes × Option σ)) = .ok (data, after)) ↔
      (if compressionLevel > 0 then decompress r.codecs clear compressionLevel else .ok clear) =
        .ok data := by
    rw [← uncompressPayload_ok]
    cases uncompressPayload r.codecs compressionLevel clear with
    | error e =>
        constructor
        · rintro ⟨after, failed⟩
          cases failed
        · intro failed
          cases failed
    | ok found =>
        constructor
        · rintro ⟨after, same⟩
          cases same
          rfl
        · intro same
          cases same
          exact ⟨state, rfl⟩
  unfold openPayload decryptPayload content
  by_cases unnamed : r.cipherIn.name = ""
  · rw [if_pos unnamed, if_pos unnamed]
    simp only [ne_eq, unnamed, not_true_eq_false, IsEmpty.forall_iff, Decrypts, true_and]
    exact uncompressed rawData decryptor
  · rw [if_neg unnamed, if_neg unnamed]
    by_cases unflagged : protocolFlags &&& FLAGS_CIPHER = 0
    · rw [if_pos unflagged]
      constructor
      · rintro ⟨after, failed⟩
        cases failed
      · rintro ⟨flagged, _, _⟩
        exact absurd unflagged (flagged unnamed)
    · rw [if_neg unflagged]
      simp only [Decrypts, ne_eq, unnamed, unflagged, not_false_eq_true, forall_const, true_and]
      cases decrypted : decrypt r.lib r.cipherIn decryptor rawData padding with
      | error e =>
          constructor
          · rintro ⟨after, failed⟩
            cases failed
          · rintro ⟨⟨d, ok, _⟩, _⟩
            cases ok
      | ok d =>
          by_cases nothing : d.data = []
          · simp only [nothing, if_true]
            constructor
            · rintro ⟨after, failed⟩
              cases failed
            · rintro ⟨⟨d', ok, some⟩, _⟩
              cases ok
              exact absurd nothing some
          · simp only [nothing, if_false]
            constructor
            · intro opened
              exact ⟨⟨d, rfl, nothing⟩, (uncompressed d.data d.decryptor).mp opened⟩
            · rintro ⟨_, opened⟩
              exact (uncompressed d.data d.decryptor).mpr opened

/-- Every raw packet has a place, or the first that has none raises. -/
theorem placeRawPackets_handled (packet : List PyVal) (rawPackets : List (Nat × Bytes)) :
    (∃ placed, placeRawPackets packet rawPackets = .ok placed ∧ placed.length = packet.length ∧
        ∀ entry ∈ rawPackets, entry.1 < packet.length) ∨
      (∃ e, placeRawPackets packet rawPackets = .error e ∧
        ¬ ∀ entry ∈ rawPackets, entry.1 < packet.length) := by
  induction rawPackets generalizing packet with
  | nil => exact .inl ⟨packet, rfl, rfl, by simp⟩
  | cons entry rest ih =>
      obtain ⟨index, rawData⟩ := entry
      rw [placeRawPackets]
      by_cases inside : index < packet.length
      · rw [if_pos inside]
        have same : (packet.set index (.bytes rawData)).length = packet.length := List.length_set
        rcases ih (packet.set index (.bytes rawData)) with
          ⟨placed, run, length, fit⟩ | ⟨e, run, unfit⟩
        · rw [same] at length fit
          refine .inl ⟨placed, run, length, ?_⟩
          intro entry member
          rcases List.mem_cons.mp member with rfl | member
          · exact inside
          · exact fit entry member
        · rw [same] at unfit
          exact .inr ⟨e, run, fun all => unfit fun entry member =>
            all entry (List.mem_cons_of_mem _ member)⟩
      · rw [if_neg inside]
        exact .inr ⟨_, rfl, fun all => inside (all (index, rawData) List.mem_cons_self)⟩

theorem pyList_named {value : PyVal} {e : Exn} (failed : pyList value = .error e) : Named e := by
  cases value <;> simp only [pyList, Except.error.injEq, reduceCtorEq] at failed <;>
    (subst failed; trivial)

theorem decode_named {codecs : Codecs} (named : NamedErrors codecs) {data : Bytes}
    {protocolFlags : Nat} {e : Exn} (failed : decode codecs data protocolFlags >>= pyList = .error e) :
    Named e := by
  unfold decode at failed
  dsimp only at failed
  cases known : codecs.decoders (getPacketEncodingType protocolFlags) with
  | none =>
      rw [known] at failed
      cases failed
      trivial
  | some f =>
      rw [known] at failed
      dsimp only at failed
      cases decoded : f data with
      | error e' =>
          rw [decoded] at failed
          cases failed
          exact named _ f data _ known decoded
      | ok value =>
          rw [decoded] at failed
          change pyList value = .error e at failed
          exact pyList_named failed

theorem finalPacket_handled {r : Receiver σ} (named : NamedErrors r.codecs) (protocolFlags : Nat)
    (rawPackets : List (Nat × Bytes)) (data : Bytes) :
    AllHandled (finalPacket r protocolFlags rawPackets data) ↔
      ∀ packet, decode r.codecs data protocolFlags >>= pyList = .ok packet →
        PacketFits rawPackets packet := by
  unfold finalPacket
  cases decoded : decode r.codecs data protocolFlags >>= pyList with
  | error e =>
      have caught := decode_named named decoded
      cases e <;> simp_all [Handled, Named]
  | ok packet =>
      simp only [Except.ok.injEq, forall_eq']
      unfold PacketFits
      rcases placeRawPackets_handled packet rawPackets with
        ⟨placed, run, length, fit⟩ | ⟨e, run, unfit⟩
      · rw [run]
        cases placed with
        | nil =>
            have empty : packet = [] := List.eq_nil_of_length_eq_zero length.symm
            simp [Handled, empty]
        | cons first rest =>
            have some : packet ≠ [] := by
              rintro rfl
              simp at length
            simp only [allHandled_ok, true_iff]
            exact ⟨some, fit⟩
      · rw [run]
        simp only [allHandled_error, Handled, false_iff]
        exact fun fits => unfit fits.2

theorem processPayload_handled {r : Receiver σ} (named : NamedErrors r.codecs)
    (packetIndex protocolFlags : Nat) (rawPackets : List (Nat × Bytes)) (data : Bytes) :
    AllHandled (processPayload r packetIndex protocolFlags rawPackets data) ↔
      (packetIndex = 0 → ∀ packet, decode r.codecs data protocolFlags >>= pyList = .ok packet →
        PacketFits rawPackets packet) := by
  unfold processPayload
  by_cases raw : packetIndex > 0
  · rw [if_pos raw]
    have main : packetIndex ≠ 0 := by omega
    simp only [main, IsEmpty.forall_iff, iff_true]
    split
    · simp [Handled]
    · split <;> simp [Handled]
  · rw [if_neg raw]
    have main : packetIndex = 0 := by omega
    rw [allHandled_bind, finalPacket_handled named]
    simp [main]

theorem judgePayload_handled {r : Receiver σ} (named : NamedErrors r.codecs) (s : StreamState σ)
    (p : Pending) (xs : Bytes) :
    (∀ reason, judgePayload r s p xs = .stop reason → Handled reason) ↔ SoundPayload r s p xs := by
  unfold judgePayload SoundPayload
  by_cases missing : xs = [] ∨ xs.length < p.payloadSize
  · rw [if_pos missing]
    simp only [reduceCtorEq, IsEmpty.forall_iff, implies_true, true_iff]
    intro some enough
    exact absurd missing (by simp [some, enough])
  · rw [if_neg missing]
    obtain ⟨some, enough⟩ : xs ≠ [] ∧ p.payloadSize ≤ xs.length := by
      simpa using missing
    cases opened : openPayload r s.decryptor p.protocolFlags p.padding p.compressionLevel
        (xs.take p.payloadSize) with
    | error e =>
        have clears := openPayload_handled r s.decryptor p.protocolFlags p.padding
          p.compressionLevel (xs.take p.payloadSize)
        rw [opened, allHandled_error] at clears
        simp only [Verdict.stop.injEq, forall_eq', handled_withoutBuffer, clears]
        constructor
        · intro decrypts _ _ flagged
          refine ⟨decrypts flagged, ?_⟩
          intro _ data packet same _
          -- a payload that decrypts and uncompresses is opened
          obtain ⟨after, contrary⟩ := (openPayload_content r s.decryptor p.protocolFlags p.padding
            p.compressionLevel _ data).mpr ⟨flagged, decrypts flagged, same⟩
          rw [opened] at contrary
          cases contrary
        · intro sound flagged
          exact (sound some enough flagged).1
    | ok found =>
        obtain ⟨data, after⟩ := found
        obtain ⟨flagged, decrypts, same⟩ := (openPayload_content r s.decryptor p.protocolFlags
          p.padding p.compressionLevel _ data).mp ⟨after, opened⟩
        refine Iff.trans ?_ ((processPayload_handled named p.packetIndex p.protocolFlags
          s.rawPackets data).trans ?_)
        · dsimp only
          cases processPayload r p.packetIndex p.protocolFlags s.rawPackets data with
          | error e => simp
          | ok kept => simp
        constructor
        · intro fits _ _ _
          refine ⟨decrypts, ?_⟩
          intro main data' packet same' decoded
          rw [same] at same'
          cases same'
          exact fits main packet decoded
        · intro sound main packet decoded
          exact (sound some enough flagged).2 main data packet same decoded

/-! ### The loop -/

/-- Where the loop starts on a stream. -/
def initial (waitForHeader : Bool) (decryptor : Option σ) : StreamState σ :=
  ⟨if waitForHeader then .searching else .header, decryptor, []⟩

/-- One decision of the loop is contained where what arrived is sound, and only there. -/
theorem judge_handled {r : Receiver σ} (named : NamedErrors r.codecs) (s : StreamState σ)
    (xs : Bytes) : (∀ reason, judge r s xs = .stop reason → Handled reason) ↔ Sound r s xs := by
  unfold judge Sound
  cases s.stage with
  | searching =>
      cases findXpraHeader xs <;> simp
  | header => exact judgeHeader_handled r s xs
  | payload p => exact judgePayload_handled named s p xs

theorem contained_outcome (stand : Stand σ) :
    Contained stand ↔ ∀ reason, Stand.outcome stand = .stopped reason → Handled reason := by
  cases stand with
  | waiting st => simp [Contained, Stand.outcome]
  | ended e => simp [Contained, Stand.outcome]

/-- However a peer's stream is cut, the loop is left waiting or in one of its three handlers
exactly when the stream is sound at every position the loop comes to. -/
theorem malformed_contained_iff (r : Receiver σ) (waitForHeader : Bool) (decryptor : Option σ)
    (bufs : List Bytes) (filled : ∀ buf ∈ bufs, buf ≠ []) (named : NamedErrors r.codecs) :
    (∃ events stand, doReadParseThreadLoop r waitForHeader decryptor bufs = some (events, stand) ∧
      Contained stand) ↔
    ∀ s xs, (streamParser r).Reached (initial waitForHeader decryptor) bufs.flatten s xs →
      Sound r s xs := by
  obtain ⟨events, stand, run, drained⟩ := loop_refines r waitForHeader decryptor bufs filled
  have contained : Contained stand ↔ ∀ s xs,
      (streamParser r).Reached (initial waitForHeader decryptor) bufs.flatten s xs →
        Sound r s xs := by
    rw [contained_outcome]
    have ends : ((streamParser r).drain (initial waitForHeader decryptor) bufs.flatten).2 =
        Stand.outcome stand := congrArg Prod.snd drained
    rw [← ends, Parser.stopped_only_iff]
    exact forall₂_congr fun s xs => imp_congr_right fun _ => judge_handled named s xs
  rw [← contained]
  constructor
  · rintro ⟨events', stand', run', good⟩
    rw [run] at run'
    cases run'
    exact good
  · intro good
    exact ⟨events, stand, run, good⟩

/-- The plain receiver with a decoder whose only error is a value error. -/
def namedReceiver : Receiver Unit :=
  { plainReceiver with
    codecs :=
      { decompressors := fun _ => none
        decoders := fun ptype =>
          if ptype = "rencodeplus" then
            some fun data =>
              match Rencodeplus.loads false data with
              | .ok value => .ok value
              | .error e => .error (.valueError e.text)
          else none } }

theorem namedReceiver_named : NamedErrors namedReceiver.codecs := by
  intro ptype f data e known failed
  simp only [namedReceiver] at known
  split at known
  · cases known
    dsimp only at failed
    split at failed
    · cases failed
    · cases failed
      trivial
  · cases known

/-- The stream of a packet is sound wherever the loop comes to, and leaves it waiting. -/
theorem malformed_contained_hello :
    (∃ events stand, doReadParseThreadLoop namedReceiver false none
      [[80, 16, 0, 0, 0, 0, 0, 7, 193, 133, 104, 101, 108, 108, 111]] = some (events, stand) ∧
      Contained stand) ↔
    ∀ s xs, (streamParser namedReceiver).Reached (initial false none)
      [[80, 16, 0, 0, 0, 0, 0, 7, 193, 133, 104, 101, 108, 108, 111]].flatten s xs →
      Sound namedReceiver s xs :=
  malformed_contained_iff namedReceiver false none _ (by decide) namedReceiver_named

/-- A header that announces no payload raises out of the loop. -/
theorem not_malformed_contained :
    ¬ ∀ (r : Receiver Unit) (waitForHeader : Bool) (decryptor : Option Unit) (bufs : List Bytes),
      (∀ buf ∈ bufs, buf ≠ []) → NamedErrors r.codecs →
      ∃ events stand, doReadParseThreadLoop r waitForHeader decryptor bufs = some (events, stand) ∧
        Contained stand := by
  intro always
  obtain ⟨events, stand, run, good⟩ :=
    always namedReceiver false none [[80, 16, 0, 0, 0, 0, 0, 0, 80]] (by decide) namedReceiver_named
  cases run
  exact good

/-- So does a raw packet beyond the main one that follows it. -/
example : (doReadParseThreadLoop namedReceiver false none
    [[80, 16, 0, 1, 0, 0, 0, 1, 0], [80, 16, 0, 0, 0, 0, 0, 7, 193, 133, 104, 101, 108, 108, 111]]).map
      (kindOf ∘ Prod.snd) = some .error := rfl

/-- And an empty main packet. -/
example : (doReadParseThreadLoop namedReceiver false none [[80, 16, 0, 0, 0, 0, 0, 1, 192]]).map
    (kindOf ∘ Prod.snd) = some .error := rfl

/-- A main packet that is not a sequence is gibberish. -/
example : (doReadParseThreadLoop namedReceiver false none [[80, 16, 0, 0, 0, 0, 0, 1, 5]]).map
    (kindOf ∘ Prod.snd) = some .gibberish := rfl

end Catlink.MalformedPackets
