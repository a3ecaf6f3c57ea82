import Catlink.Rfb.Reads

/-! The messages of an RFB client, and what becomes of them when it has been let in. -/

namespace Catlink.Rfb

open Auth Cuts

/-! ### Messages and streams -/

/-- The size of what comes after the struct. -/
def announcedSize (ptype : Nat) (values : List Int) : Int :=
  if ptype = 2 then 4 * values.getD 2 0 else if ptype = 6 then values.getD 4 0 else 0

/-- A supported message: its struct, and as much after it as that says. -/
structure Message where
  packetType : String
  format : List Field
  header : Bytes
  payload : Bytes
  known : clientPacketTypeStr.lookup (header.headD 0).toNat = some packetType
  supported : packetStruct.lookup (header.headD 0).toNat = some format
  sized : header.length = structSize format
  announced : (payload.length : Int) = announcedSize (header.headD 0).toNat (unpack format header)

namespace Message

def ptype (m : Message) : Nat := (m.header.headD 0).toNat

def values (m : Message) : List Int := unpack m.format m.header

def bytes (m : Message) : Bytes := m.header ++ m.payload

def extra (m : Message) : Extra :=
  if m.ptype = 2 then .encodings (unpack (List.replicate (m.values.getD 2 0).toNat .i) m.payload)
  else if m.ptype = 6 then .text m.payload
  else .nothing

def packet (m : Message) : Packet := .message m.packetType m.values.tail m.extra

end Message

/-- What a client sends; there is a response when the security type asks for the challenge. -/
structure ClientStream where
  securityType : UInt8
  response : Bytes
  responds : response.length = if securityType = authVnc then 16 else 0
  shared : UInt8
  messages : List Message

def ClientStream.bytes (c : ClientStream) : Bytes :=
  versionMessage ++ c.securityType :: (c.response ++ c.shared :: c.messages.flatMap Message.bytes)

/-! ### A message in the buffer -/

theorem lookup_mem {α : Type} {n : Nat} {entries : List (Nat × α)} {value : α}
    (found : entries.lookup n = some value) : (n, value) ∈ entries := by
  induction entries with
  | nil => cases found
  | cons entry entries ih =>
      obtain ⟨key, other⟩ := entry
      rw [List.lookup_cons] at found
      split at found
      · next same =>
          rw [eq_of_beq same]
          cases found
          exact List.mem_cons_self
      · exact List.mem_cons_of_mem _ (ih found)

theorem structSize_pos {ptype : Nat} {s : List Field} (found : packetStruct.lookup ptype = some s) :
    0 < structSize s := by
  have all : ∀ entry ∈ packetStruct, 0 < structSize entry.2 := by decide
  exact all _ (lookup_mem found)

theorem structSize_ints (n : Nat) : structSize (List.replicate n .i) = 4 * n := by
  rw [structSize, List.map_replicate, List.sum_replicate, smul_eq_mul, Nat.mul_comm]
  rfl

theorem Message.header_cons (m : Message) : ∃ first rest, m.header = first :: rest := by
  have some := structSize_pos m.supported
  rw [← m.sized] at some
  exact List.exists_cons_of_ne_nil (List.length_pos_iff.mp some)

/-- What is parsed of a message that begins like this one. -/
theorem parseRfb_header (p : RFBProtocol) (m : Message) {rest : Bytes} :
    parseRfb p (m.header ++ rest) =
      match parseExtra m.ptype (structSize m.format) m.values (m.header ++ rest) with
      | none => (p, .ok 0)
      | some (size, extra) =>
          (p.processPacket (.message m.packetType m.values.tail extra), .ok size) := by
  obtain ⟨first, tail, header⟩ := m.header_cons
  have known := m.known
  have supported := m.supported
  have start : (m.header ++ rest).take (structSize m.format) = m.header := by
    rw [← m.sized]
    exact List.take_left
  have enough : ¬ (m.header ++ rest).length < structSize m.format := by
    rw [List.length_append, m.sized]
    omega
  have ptype : m.ptype = first.toNat := by rw [Message.ptype, header]; rfl
  rw [← Message.ptype, ptype] at known supported
  rw [header, List.cons_append] at start enough ⊢
  rw [parseRfb]
  simp only [known, supported, enough, if_false, start]
  rw [← header, ptype]
  rfl

theorem Message.payload_size (m : Message) :
    (m.payload.length : Int) = announcedSize m.ptype m.values := m.announced

theorem Message.bytes_length (m : Message) :
    m.bytes.length = structSize m.format + m.payload.length := by
  rw [Message.bytes, List.length_append, m.sized]

theorem parseExtra_whole (m : Message) (more : Bytes) :
    parseExtra m.ptype (structSize m.format) m.values (m.header ++ (m.payload ++ more)) =
      some ((m.bytes.length : Int), m.extra) := by
  have payload := m.payload_size
  have size := m.bytes_length
  have whole : (m.header ++ (m.payload ++ more)).length = m.bytes.length + more.length := by
    rw [← List.append_assoc, List.length_append]
    rfl
  have taken : ((m.header ++ (m.payload ++ more)).take m.bytes.length).drop (structSize m.format) =
      m.payload := by
    rw [← List.append_assoc, ← Message.bytes, List.take_left, Message.bytes, ← m.sized, List.drop_left]
  unfold announcedSize at payload
  unfold parseExtra Message.extra
  split
  · next encodings =>
      rw [if_pos encodings] at payload
      have total : structSize m.format + structSize (List.replicate (m.values.getD 2 0).toNat .i) =
          m.bytes.length := by
        rw [structSize_ints, size]
        omega
      dsimp only
      rw [total, if_neg (by omega), taken]
  · next other =>
      rw [if_neg other] at payload
      split
      · next text =>
          rw [if_pos text] at payload
          have total : (structSize m.format : Int) + m.values.getD 4 0 = m.bytes.length := by omega
          dsimp only
          rw [total, if_neg (by omega), sliceTo, if_neg (by omega), Int.toNat_natCast, taken]
      · next plain =>
          rw [if_neg plain] at payload
          have total : m.bytes.length = structSize m.format := by omega
          rw [total]

theorem parseExtra_part (m : Message) {part : Bytes} (short : part.length < m.payload.length) :
    parseExtra m.ptype (structSize m.format) m.values (m.header ++ part) = none := by
  have payload := m.payload_size
  have part_size : (m.header ++ part).length = structSize m.format + part.length := by
    rw [List.length_append, m.sized]
  unfold announcedSize at payload
  unfold parseExtra
  split
  · next encodings =>
      rw [if_pos encodings] at payload
      have ints := structSize_ints (m.values.getD 2 0).toNat
      dsimp only
      rw [if_pos (by omega)]
  · next other =>
      rw [if_neg other] at payload
      split
      · next text =>
          rw [if_pos text] at payload
          dsimp only
          rw [if_pos (by omega)]
      · next plain =>
          rw [if_neg plain] at payload
          omega

/-- A whole message is handed on. -/
theorem parseRfb_whole (p : RFBProtocol) (m : Message) (more : Bytes) :
    parseRfb p (m.bytes ++ more) = (p.processPacket m.packet, .ok (m.bytes.length : Nat)) := by
  rw [Message.bytes, List.append_assoc, parseRfb_header, parseExtra_whole]
  rfl

/-- A part of one is waited for. -/
theorem parseRfb_part (p : RFBProtocol) (m : Message) {part rest : Bytes} (some : part ≠ [])
    (split : m.bytes = part ++ rest) (short : part.length < m.bytes.length) :
    parseRfb p part = (p, .ok 0) := by
  by_cases whole : structSize m.format ≤ part.length
  · have size := m.bytes_length
    have start : part = m.header ++ part.drop (structSize m.format) := by
      have header : (part ++ rest).take (structSize m.format) = m.header := by
        rw [← split, Message.bytes, ← m.sized, List.take_left]
      rw [List.take_append_of_le_length whole] at header
      rw [← header, List.take_append_drop]
    rw [start, parseRfb_header, parseExtra_part]
    rw [List.length_drop]
    omega
  · obtain ⟨first, tail, header⟩ := m.header_cons
    obtain ⟨first', tail', begins⟩ := List.exists_cons_of_ne_nil some
    have same : first' = first := by
      rw [begins, Message.bytes, header] at split
      exact (List.cons.inj split).1.symm
    have known := m.known
    have supported := m.supported
    rw [header] at known supported
    rw [begins, same] at whole ⊢
    rw [parseRfb]
    simp only [List.headD_cons] at known supported
    simp only [known, supported]
    rw [if_pos (by omega)]

/-! ### The messages of a client -/

variable {o : Outside} {p q : RFBProtocol}

def RFBProtocol.handed (p : RFBProtocol) (messages : List Message) : RFBProtocol :=
  p.note (messages.map fun m => .packet m.packet)

theorem handed_nil (p : RFBProtocol) : p.handed [] = p := by
  rw [RFBProtocol.handed, List.map_nil, RFBProtocol.note, List.append_nil]

theorem handed_cons (p : RFBProtocol) (m : Message) (messages : List Message) :
    (p.processPacket m.packet).handed messages = p.handed (m :: messages) := by
  simp only [RFBProtocol.handed, RFBProtocol.processPacket, RFBProtocol.note, List.map_cons,
    List.append_assoc, List.singleton_append]

/-- The whole messages in the buffer are handed on, and the rest stays. -/
theorem messages_drain (here : p.packetParser = .rfb) {messages : List Message} {rest : Bytes}
    (stream : p.buffer ++ rest = messages.flatMap Message.bytes) :
    ∃ done left held, messages = done ++ left ∧ p.drain o = (p.handed done).holding held ∧
      held ++ rest = left.flatMap Message.bytes ∧
      ∀ m ∈ left.head?, held.length < m.bytes.length := by
  induction messages generalizing p with
  | nil =>
      obtain ⟨empty, none⟩ := List.append_eq_nil_iff.mp stream
      refine ⟨[], [], [], rfl, ?_, ?_, ?_⟩
      · rw [drain_empty empty, handed_nil, ← empty, holding_same]
      · rw [none]
        rfl
      · intro m here
        cases here
  | cons m messages ih =>
      have size : 0 < m.bytes.length := by
        have format := structSize_pos m.supported
        rw [m.bytes_length]
        omega
      by_cases held : p.buffer = []
      · refine ⟨[], m :: messages, p.buffer, rfl, ?_, stream, ?_⟩
        · rw [drain_empty held, handed_nil, holding_same]
        · rintro m' ⟨⟩
          rw [held]
          exact size
      · have parse : p.parse o = parseRfb p p.buffer := by
          rw [RFBProtocol.parse]
          simp only [here]
        rw [List.flatMap_cons] at stream
        rcases Nat.lt_or_ge p.buffer.length m.bytes.length with short | enough
        · have part : m.bytes.take p.buffer.length = p.buffer := by
            have both := congrArg (List.take p.buffer.length) stream
            rw [List.take_left, List.take_append_of_le_length (Nat.le_of_lt short)] at both
            exact both.symm
          have split : m.bytes = p.buffer ++ m.bytes.drop p.buffer.length := by
            conv_lhs => rw [← List.take_append_drop p.buffer.length m.bytes, part]
          rw [parseRfb_part p m held split short] at parse
          refine ⟨[], m :: messages, p.buffer, rfl, ?_, by rw [List.flatMap_cons, stream], ?_⟩
          · rw [drain_stop held (turn_waits parse), handed_nil, holding_same]
          · rintro m' ⟨⟩
            exact short
        · have whole : p.buffer.take m.bytes.length = m.bytes := by
            have both := congrArg (List.take m.bytes.length) stream
            rwa [List.take_left, List.take_append_of_le_length enough] at both
          have split : p.buffer = m.bytes ++ p.buffer.drop m.bytes.length := by
            conv_lhs => rw [← List.take_append_drop m.bytes.length p.buffer, whole]
          rw [split, parseRfb_whole p m] at parse
          have later : p.buffer.drop m.bytes.length ++ rest = messages.flatMap Message.bytes := by
            rw [split, List.append_assoc] at stream
            exact List.append_cancel_left stream
          obtain ⟨done, left, kept, messages_eq, drain, remains, short⟩ :=
            ih (p := (p.processPacket m.packet).holding (p.buffer.drop m.bytes.length)) here later
          refine ⟨m :: done, left, kept, by rw [messages_eq, List.cons_append], ?_, remains, short⟩
          rw [drain_takes held parse size rfl, drain, ← handed_cons]
          rfl

theorem handed_append (p : RFBProtocol) (first second : List Message) :
    (p.handed first).handed second = p.handed (first ++ second) := by
  simp only [RFBProtocol.handed, RFBProtocol.note, List.map_append, List.append_assoc]

/-- Messages are handed on one after the other, wherever the reads end. -/
theorem messages_run (active : p.Active) (here : p.packetParser = .rfb) {messages : List Message}
    {reads : List Bytes} (stream : p.buffer ++ reads.flatten = messages.flatMap Message.bytes) :
    ((p.drain o).run o reads).ending = (p.handed messages).ending := by
  induction reads generalizing p messages with
  | nil =>
      obtain ⟨done, left, held, rfl, drain, remains, short⟩ := messages_drain (o := o) here stream
      have none : left = [] := by
        cases left with
        | nil => rfl
        | cons m left =>
            have more := short m rfl
            have size := congrArg List.length remains
            simp only [List.flatten_nil, List.append_nil, List.flatMap_cons, List.length_append] at size
            omega
      rw [drain, none, List.append_nil]
      rfl
  | cons buf reads ih =>
      obtain ⟨done, left, held, rfl, drain, remains, short⟩ := messages_drain (o := o) here stream
      have kept : ((p.handed done).holding held).Active := active
      rw [List.flatten_cons, ← List.append_assoc] at remains
      rw [drain, run_cons, read_active kept, ← handed_append]
      exact ih (p := (p.handed done).holding (held ++ buf)) active here remains

theorem handed_ending (none : p.callbacks.filterMap Callback.packet? = []) (messages : List Message) :
    (p.handed messages).ending =
      { p.ending with packets := p.ending.packets ++ messages.map Message.packet } := by
  have opens : (messages.map fun m => Event.packet m.packet).any Event.opens = false := by
    rw [List.any_map]
    simp [Event.opens, Function.comp_def]
  have packets : (messages.map fun m => Event.packet m.packet).filterMap Event.packet? =
      messages.map Message.packet := by
    rw [List.filterMap_map, ← List.filterMap_eq_map]
    rfl
  simp only [RFBProtocol.ending, RFBProtocol.handed, RFBProtocol.note, List.any_append,
    List.filterMap_append, opens, packets, none, Bool.or_false, List.append_nil]

/-! ### ClientInit -/

def RFBProtocol.initialized (o : Outside) (p : RFBProtocol) (share : Bool) : RFBProtocol :=
  { p.note [.sent (.serverInit o.getRfbPixelformat p.sessionName), .packet .authenticated] with
    share := share, packetParser := .rfb }

theorem initialized_ending (p : RFBProtocol) (share : Bool)
    (none : p.callbacks.filterMap Callback.packet? = []) :
    (p.initialized o share).ending =
      { p.ending with share := share, packets := p.ending.packets ++ [.authenticated] } := by
  have opens (format : PixelFormat) (name : Bytes) :
      [Event.sent (.serverInit format name), .packet .authenticated].any Event.opens = false := rfl
  have packets (format : PixelFormat) (name : Bytes) :
      [Event.sent (.serverInit format name), .packet .authenticated].filterMap Event.packet? =
        [.authenticated] := rfl
  simp only [RFBProtocol.ending, RFBProtocol.initialized, RFBProtocol.note, List.any_append,
    List.filterMap_append, opens, packets, none, Bool.or_false, List.append_nil]

/-- The first byte of the first read is ClientInit. The flag is that of the whole read. -/
theorem init_run (active : p.Active) (here : p.packetParser = .securityResult) (empty : p.buffer = [])
    {buf : Bytes} {reads : List Bytes} (filled : ∀ buf' ∈ buf :: reads, buf' ≠ []) :
    p.run o (buf :: reads) =
      (p.initialized o (decide (buf ≠ [0]))).run o (dropReads 1 (buf :: reads)) := by
  have held : (p.holding buf).buffer ≠ [] := filled buf List.mem_cons_self
  have opened : p.closed = false := active.2.1
  have parse : (p.holding buf).parse o =
      (((p.holding buf).initialized o (decide (buf ≠ [0]))), .ok (1 : Nat)) := by
    rw [RFBProtocol.parse]
    simp only [RFBProtocol.holding, here]
    rw [parseSecurityResult]
    dsimp only
    rw [RFBProtocol.send, if_neg (by simp [opened])]
    simp only [RFBProtocol.processPacket, RFBProtocol.initialized, RFBProtocol.note, List.append_assoc]
    rfl
  have some := List.length_pos_iff.mpr (filled buf List.mem_cons_self)
  rw [run_cons, read_active active, empty, List.nil_append, drain_takes held parse Nat.one_pos rfl]
  exact drain_rest (q := p.initialized o (decide (buf ≠ [0]))) active empty
    (fun buf' inside => filled buf' (List.mem_cons_of_mem _ inside)) some

theorem pending_none (clean : p.ending.packets = []) : p.callbacks.filterMap Callback.packet? = [] :=
  (List.append_eq_nil_iff.mp clean).2

/-- What a client that is let in gets, but for the flag. -/
theorem admitted_run (active : p.Active) (empty : p.buffer = []) (clean : p.ending.packets = [])
    {buf : Bytes} {reads : List Bytes} (filled : ∀ buf' ∈ buf :: reads, buf' ≠ []) {shared : UInt8}
    {messages : List Message}
    (stream : (buf :: reads).flatten = shared :: messages.flatMap Message.bytes) :
    (p.admitted.run o (buf :: reads)).ending =
      ⟨true, decide (buf ≠ [0]), .authenticated :: messages.map Message.packet⟩ := by
  have rest : (dropReads 1 (buf :: reads)).flatten = messages.flatMap Message.bytes := by
    rw [dropReads_flatten, stream, List.drop_one, List.tail_cons]
  have opened : (p.admitted.initialized o (decide (buf ≠ [0]))).Active := active
  have holds : (p.admitted.initialized o (decide (buf ≠ [0]))).buffer = [] := empty
  have none : p.admitted.callbacks.filterMap Callback.packet? = [] := pending_none (p := p) clean
  have pending : (p.admitted.initialized o (decide (buf ≠ [0]))).callbacks.filterMap
      Callback.packet? = [] := none
  have left : (p.admitted.initialized o (decide (buf ≠ [0]))).buffer ++
      (dropReads 1 (buf :: reads)).flatten = messages.flatMap Message.bytes := by
    rw [holds, List.nil_append, rest]
  have run := messages_run (o := o) opened rfl left
  rw [drain_empty holds, handed_ending pending, initialized_ending _ _ none, admitted_ending,
    clean] at run
  rw [init_run (p := p.admitted) active rfl empty filled, run]
  rfl

/-- The flag is right when the byte says so anyway, or comes alone. -/
theorem admitted_ends (active : p.Active) (empty : p.buffer = []) (clean : p.ending.packets = [])
    {reads : List Bytes} (filled : ∀ buf ∈ reads, buf ≠ []) {shared : UInt8} {messages : List Message}
    (stream : reads.flatten = shared :: messages.flatMap Message.bytes) :
    (p.admitted.run o reads).ending =
        ⟨true, decide (shared ≠ 0), .authenticated :: messages.map Message.packet⟩ ↔
      shared ≠ 0 ∨ EndsAt reads 1 := by
  cases reads with
  | nil => cases stream
  | cons buf reads =>
      obtain ⟨first, others, begins⟩ := List.exists_cons_of_ne_nil (filled buf List.mem_cons_self)
      have same : first = shared := by
        rw [begins, List.flatten_cons, List.cons_append] at stream
        exact (List.cons.inj stream).1
      subst same
      have alone : EndsAt (buf :: reads) 1 ↔ others = [] := by
        rw [endsAt_first Nat.one_pos (by rw [begins]; simp), begins, List.length_cons,
          Nat.succ_inj, List.length_eq_zero_iff]
      rw [admitted_run active empty clean filled stream, alone, begins]
      simp only [Ending.mk.injEq, true_and, and_true, decide_eq_decide, ne_eq, List.cons.injEq, not_and]
      constructor
      · intro flag
        by_cases zero : first = 0
        · by_cases one : others = []
          · exact .inr one
          · exact absurd zero (flag.mp fun _ => one)
        · exact .inl zero
      · rintro (flag | one)
        · exact ⟨fun _ => flag, fun _ zero => absurd zero flag⟩
        · exact ⟨fun other zero => other zero one, fun other zero => absurd zero other⟩

/-! ### The messages that are handed on are no longer than what came in -/

def ptypeOf (packetType : String) : Nat :=
  ((clientPacketTypeStr.find? fun entry => entry.2 == packetType).map Prod.fst).getD 0

theorem ptypeOf_known {ptype : Nat} {packetType : String}
    (known : clientPacketTypeStr.lookup ptype = some packetType) : ptypeOf packetType = ptype := by
  have all : ∀ entry ∈ clientPacketTypeStr, ptypeOf entry.2 = entry.1 := by decide +kernel
  exact all _ (lookup_mem known)

/-- The bytes that a message takes, as its values say. -/
def Packet.size : Packet → Nat
  | .message packetType values _ =>
      let ptype := ptypeOf packetType
      ((structSize ((packetStruct.lookup ptype).getD []) : Int) +
        announcedSize ptype (0 :: values)).toNat
  | _ => 0

theorem unpack_cons {s : List Field} (some : 0 < structSize s) (data : Bytes) :
    ∃ first, unpack s data = first :: (unpack s data).tail := by
  cases s with
  | nil => cases some
  | cons f s => exact ⟨_, rfl⟩

theorem announcedSize_tail (ptype : Nat) (first other : Int) (values : List Int) :
    announcedSize ptype (first :: values) = announcedSize ptype (other :: values) := rfl

theorem size_known {ptype : Nat} {packetType : String} {s : List Field}
    (known : clientPacketTypeStr.lookup ptype = some packetType)
    (supported : packetStruct.lookup ptype = some s) (data : Bytes) (extra : Extra) :
    (Packet.message packetType (unpack s data).tail extra).size =
      ((structSize s : Int) + announcedSize ptype (unpack s data)).toNat := by
  obtain ⟨first, values⟩ := unpack_cons (structSize_pos supported) data
  simp only [Packet.size, ptypeOf_known known, supported, Option.getD_some]
  rw [values, List.tail_cons, announcedSize_tail ptype 0 first]

theorem Message.packet_size (m : Message) : m.packet.size = m.bytes.length := by
  rw [Message.packet, Message.values, size_known m.known m.supported, ← m.announced, m.bytes_length]
  omega

def RFBProtocol.weight (p : RFBProtocol) : Nat := (p.ending.packets.map Packet.size).sum

theorem weight_note (p : RFBProtocol) (events : List Event) :
    (p.note events).weight = p.weight + ((events.filterMap Event.packet?).map Packet.size).sum := by
  simp only [RFBProtocol.weight, RFBProtocol.ending, RFBProtocol.note, List.filterMap_append,
    List.map_append, List.sum_append]
  omega

theorem weight_schedule (p : RFBProtocol) {callback : Callback}
    (light : (callback.packet?.map Packet.size).getD 0 = 0) : (p.schedule callback).weight = p.weight := by
  simp only [RFBProtocol.weight, RFBProtocol.ending, RFBProtocol.schedule, List.filterMap_append,
    List.map_append, List.sum_append]
  cases given : callback.packet? with
  | none => simp [given]
  | some packet =>
      rw [given] at light
      simp only [Option.map_some, Option.getD_some] at light
      simp [given, light]

theorem weight_invalid (p : RFBProtocol) (msg : String) (data : Bytes) :
    (p.invalid msg data).weight = p.weight := by
  rw [RFBProtocol.invalid, weight_schedule _ rfl, weight_schedule _ rfl]
  rfl

theorem parseExtra_size {ptype : Nat} {s : List Field} (supported : packetStruct.lookup ptype = some s)
    {data rfbdata : Bytes} {size : Int} {extra : Extra}
    (parsed : parseExtra ptype (structSize s) (unpack s data) rfbdata = some (size, extra))
    (enough : structSize s ≤ rfbdata.length) :
    size = structSize s + announcedSize ptype (unpack s data) ∧ size ≤ rfbdata.length := by
  unfold parseExtra at parsed
  unfold announcedSize
  split at parsed
  · next encodings =>
      subst encodings
      have format : s = [.B, .B, .H] := Option.some.inj supported.symm
      have count : 0 ≤ (unpack s data).getD 2 0 := by
        rw [format]
        exact Int.natCast_nonneg _
      dsimp only at parsed
      split at parsed
      · cases parsed
      · next whole =>
          cases parsed
          rw [structSize_ints] at whole ⊢
          rw [if_pos rfl]
          omega
  · next other =>
      rw [if_neg other]
      split at parsed
      · next text =>
          rw [if_pos text]
          dsimp only at parsed
          split at parsed
          · cases parsed
          · next whole =>
              cases parsed
              omega
      · next plain =>
          rw [if_neg plain]
          cases parsed
          omega

/-! ### After the handshake nothing is handed on that has not come in -/

/-- The parsers of a client that was let in. -/
def RFBProtocol.Late (p : RFBProtocol) : Prop :=
  p.packetParser = .securityResult ∨ p.packetParser = .rfb ∨ p.packetParser = .invalid

/-- A parser takes bytes of the buffer, and hands on no more than it takes. -/
structure Light (p q : RFBProtocol) (consumed : Int) : Prop where
  late : q.Late
  buffer : q.buffer = p.buffer
  within : consumed ≤ p.buffer.length
  weight : q.weight ≤ p.weight + consumed.toNat
  accepted : p.ending.accepted = true → q.ending.accepted = true

theorem Light.stays (late : p.Late) : Light p p 0 :=
  ⟨late, rfl, Int.natCast_nonneg _, Nat.le_add_right _ _, id⟩

theorem light_invalid (msg : String) (data : Bytes) : Light p (p.invalid msg data) 0 :=
  ⟨.inr (.inr rfl), rfl, Int.natCast_nonneg _, by rw [weight_invalid]; exact Nat.le_add_right _ _, id⟩

theorem note_accepted (p : RFBProtocol) (events : List Event) (accepted : p.ending.accepted = true) :
    (p.note events).ending.accepted = true := by
  have before : p.events.any Event.opens = true := accepted
  change (p.events ++ events).any Event.opens = true
  rw [List.any_append, before, Bool.true_or]

theorem send_same (p : RFBProtocol) (reply : Reply) :
    (p.send reply).packetParser = p.packetParser ∧ (p.send reply).buffer = p.buffer ∧
      (p.send reply).weight = p.weight := by
  unfold RFBProtocol.send
  split
  · exact ⟨rfl, rfl, rfl⟩
  · exact ⟨rfl, rfl, weight_note p _⟩

theorem send_accepted (p : RFBProtocol) (reply : Reply) (accepted : p.ending.accepted = true) :
    (p.send reply).ending.accepted = true := by
  unfold RFBProtocol.send
  split
  · exact accepted
  · exact note_accepted p _ accepted

theorem light_result (filled : p.buffer ≠ []) : Light p (parseSecurityResult o p p.buffer).1 1 := by
  have size := List.length_pos_iff.mpr filled
  unfold parseSecurityResult
  dsimp only
  generalize Reply.serverInit o.getRfbPixelformat p.sessionName = reply
  obtain ⟨parser, buffer, weight⟩ :=
    send_same { p with share := decide (p.buffer ≠ [0]), packetParser := .rfb } reply
  refine ⟨.inr (.inl parser), buffer, by omega, ?_, ?_⟩
  · rw [RFBProtocol.processPacket, weight_note, weight]
    exact Nat.le_add_right _ _
  · intro accepted
    exact note_accepted _ _ (send_accepted _ _ accepted)

theorem light_rfb (here : p.packetParser = .rfb) {consumed : Int}
    (parse : parseRfb p p.buffer = (q, .ok consumed)) : Light p q consumed := by
  have late : p.Late := .inr (.inl here)
  generalize buffer : p.buffer = rfbdata at parse
  unfold parseRfb at parse
  cases rfbdata with
  | nil => cases parse
  | cons first rest =>
      dsimp only at parse
      cases known : clientPacketTypeStr.lookup first.toNat with
      | none =>
          rw [known] at parse
          cases parse
          exact light_invalid _ _
      | some packetType =>
          rw [known] at parse
          dsimp only at parse
          cases supported : packetStruct.lookup first.toNat with
          | none =>
              rw [supported] at parse
              cases parse
              exact light_invalid _ _
          | some s =>
              rw [supported] at parse
              dsimp only at parse
              split at parse
              · cases parse
                exact .stays late
              · next enough =>
                  split at parse
                  · cases parse
                    exact .stays late
                  · next size extra parsed =>
                      obtain ⟨takes, within⟩ := parseExtra_size supported parsed (Nat.le_of_not_lt enough)
                      cases parse
                      refine ⟨late, rfl, by rw [buffer]; exact within, ?_, note_accepted p _⟩
                      rw [RFBProtocol.processPacket, weight_note, takes]
                      have one := size_known known supported
                        ((first :: rest).take (structSize s)) extra
                      simp only [Event.packet?, List.filterMap_cons, List.filterMap_nil, List.map_cons,
                        List.map_nil, List.sum_cons, List.sum_nil, one]
                      omega

theorem parse_light (late : p.Late) (filled : p.buffer ≠ []) {consumed : Int}
    (parse : p.parse o = (q, .ok consumed)) : Light p q consumed := by
  unfold RFBProtocol.parse at parse
  rcases late with here | here | here
  · simp only [here] at parse
    have light := light_result (o := o) filled
    obtain ⟨rfl, same⟩ := Prod.mk.inj parse
    cases same
    exact light
  · simp only [here] at parse
    exact light_rfb here parse
  · simp only [here] at parse
    cases parse
    exact ⟨.inr (.inr here), rfl, Int.le_refl _, Nat.le_add_right _ _, id⟩

theorem parseRfb_ok {rfbdata : Bytes} (filled : rfbdata ≠ []) :
    ∃ consumed, (parseRfb p rfbdata).2 = .ok consumed := by
  unfold parseRfb
  split
  · exact absurd rfl filled
  · dsimp only
    split
    · exact ⟨_, rfl⟩
    · split
      · exact ⟨_, rfl⟩
      · split
        · exact ⟨_, rfl⟩
        · split
          · exact ⟨_, rfl⟩
          · exact ⟨_, rfl⟩

theorem parse_error (late : p.Late) (filled : p.buffer ≠ []) {e : Exn} : p.parse o ≠ (q, .error e) := by
  intro parse
  unfold RFBProtocol.parse at parse
  rcases late with here | here | here
  · simp only [here] at parse
    cases (Prod.mk.inj parse).2
  · simp only [here] at parse
    obtain ⟨consumed, ok⟩ := parseRfb_ok (p := p) filled
    rw [parse] at ok
    cases ok
  · simp only [here] at parse
    cases (Prod.mk.inj parse).2

theorem sliceFrom_length (data : Bytes) (start : Int) : (sliceFrom data start).length ≤ data.length := by
  rw [sliceFrom, List.length_drop]
  omega

/-- What was handed on, and what is still in the buffer. -/
def RFBProtocol.load (p : RFBProtocol) : Nat := p.weight + p.buffer.length

/-- From one state to another, with so many bytes more. -/
structure Goes (p q : RFBProtocol) (received : Nat) : Prop where
  late : q.Late
  load : q.load ≤ p.load + received
  accepted : p.ending.accepted = true → q.ending.accepted = true

theorem Goes.stays (late : p.Late) (received : Nat) : Goes p p received :=
  ⟨late, Nat.le_add_right _ _, id⟩

theorem Goes.trans {r : RFBProtocol} {one two : Nat} (first : Goes p q one) (second : Goes q r two) :
    Goes p r (one + two) := by
  have load := first.load
  have load' := second.load
  exact ⟨second.late, by omega, fun accepted => second.accepted (first.accepted accepted)⟩

theorem turn_goes (late : p.Late) (filled : p.buffer ≠ []) : Goes p (p.turn o).1 0 := by
  rcases parse : p.parse o with ⟨q, e | consumed⟩
  · exact absurd parse (parse_error late filled)
  · have light := parse_light late filled parse
    have weight := light.weight
    have within := light.within
    rw [RFBProtocol.turn, parse]
    dsimp only
    split
    · next none =>
        refine ⟨light.late, ?_, light.accepted⟩
        change q.weight + q.buffer.length ≤ p.weight + p.buffer.length
        rw [light.buffer]
        omega
    · refine ⟨light.late, ?_, light.accepted⟩
      have same : (q.holding (sliceFrom q.buffer consumed)).weight = q.weight := rfl
      have left : (sliceFrom q.buffer consumed).length + consumed.toNat ≤ p.buffer.length := by
        rw [light.buffer]
        rcases Int.lt_or_le consumed 0 with negative | positive
        · have shorter := sliceFrom_length p.buffer consumed
          omega
        · rw [sliceFrom, if_neg (by omega), List.length_drop]
          omega
      change (q.holding (sliceFrom q.buffer consumed)).weight +
        (sliceFrom q.buffer consumed).length ≤ p.weight + p.buffer.length
      omega

theorem turns_goes (fuel : Nat) (late : p.Late) : Goes p (p.turns o fuel) 0 := by
  induction fuel generalizing p with
  | zero => exact .stays late 0
  | succ fuel ih =>
      rw [RFBProtocol.turns]
      split
      · exact .stays late 0
      · next filled =>
          have turn := turn_goes (o := o) late filled
          rcases one : p.turn o with ⟨after, _ | _⟩
          · rw [one] at turn
            exact turn
          · rw [one] at turn
            dsimp only at turn ⊢
            split
            · exact turn.trans (ih turn.late)
            · exact ⟨turn.late, turn.load, turn.accepted⟩

theorem read_goes (late : p.Late) (buf : Bytes) : Goes p (p.read o buf) buf.length := by
  unfold RFBProtocol.read
  split
  · have received : Goes p (p.receive buf) buf.length := by
      refine ⟨late, ?_, id⟩
      change p.weight + (p.buffer ++ buf).length ≤ p.weight + p.buffer.length + buf.length
      rw [List.length_append, Nat.add_assoc]
    exact received.trans (turns_goes _ received.late)
  · exact .stays late _

theorem run_goes (late : p.Late) (reads : List Bytes) : Goes p (p.run o reads) reads.flatten.length := by
  induction reads generalizing p with
  | nil => exact .stays late 0
  | cons buf reads ih =>
      have one := read_goes (o := o) late buf
      rw [run_cons, List.flatten_cons, List.length_append]
      exact one.trans (ih one.late)

theorem admitted_accepted (p : RFBProtocol) (reads : List Bytes) :
    (p.admitted.run o reads).ending.accepted = true := by
  apply (run_goes (.inl rfl) reads).accepted
  rw [admitted_ending]

/-- With fewer bytes than the messages take they are not all handed on. -/
theorem admitted_short (empty : p.buffer = []) (clean : p.ending.packets = []) {reads : List Bytes}
    {messages : List Message} (short : reads.flatten.length < (messages.flatMap Message.bytes).length) :
    (p.admitted.run o reads).ending.packets ≠ .authenticated :: messages.map Message.packet := by
  intro all
  have load := (run_goes (o := o) (p := p.admitted) (.inl rfl) reads).load
  have start : p.admitted.weight = 0 := by
    rw [RFBProtocol.weight, admitted_ending, clean]
    rfl
  have weight : (p.admitted.run o reads).weight = (messages.flatMap Message.bytes).length := by
    rw [RFBProtocol.weight, all, List.map_cons, List.sum_cons, List.map_map, List.length_flatMap]
    have sizes : Packet.size ∘ Message.packet = fun m => m.bytes.length :=
      funext fun m => m.packet_size
    rw [sizes]
    exact Nat.zero_add _
  have holds : p.admitted.buffer.length = 0 := by
    change p.buffer.length = 0
    rw [empty]
    rfl
  rw [RFBProtocol.load, RFBProtocol.load, weight, start, holds] at load
  omega

end Catlink.Rfb
