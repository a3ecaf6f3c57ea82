import Catlink.Net.FileDescriptors

/-! Uploads that are refused: what the peer is told, and what becomes of the other transfers. -/

namespace Catlink.FileTransfer

/-- The transfer that a packet is about. -/
def Packet.chunkId (o : Outside) : Packet → String
  | .sendFile _ _ _ _ _ _ options _ => strget o options "file-chunk-id"
  | .sendFileChunk chunkId _ _ _ => chunkId
  | .ackFileChunk chunkId _ _ _ => chunkId

/-- Why an upload in chunks is refused. -/
inductive Refused (o : Outside) (os : Os) (s : Handler) : Packet → Prop
  | size {basefilename mimetype : String} {printit openit : Bool} {filesize : Nat} {fileData : Bytes}
      {options : Options} {sendId : String} (named : strget o options "file-chunk-id" ≠ "")
      (bad : filesize = 0 ∨ s.fileSizeLimit < filesize ∨ u64 ≤ filesize) :
      Refused o os s (.sendFile basefilename mimetype printit openit filesize fileData options sendId)
  | consent {basefilename mimetype : String} {printit openit : Bool} {filesize : Nat} {fileData : Bytes}
      {options : Options} {sendId : String} (named : strget o options "file-chunk-id" ≠ "")
      (rejected : (acceptData s sendId printit openit).2.1 = false) :
      Refused o os s (.sendFile basefilename mimetype printit openit filesize fileData options sendId)
  /-- accepted, but not possible -/
  | disabled {basefilename mimetype : String} {printit openit : Bool} {filesize : Nat} {fileData : Bytes}
      {options : Options} {sendId : String} (named : strget o options "file-chunk-id" ≠ "")
      (off : (if (acceptData s sendId printit openit).2.2.1 = true then s.printing else s.fileTransfer) =
        false) :
      Refused o os s (.sendFile basefilename mimetype printit openit filesize fileData options sendId)
  | unopened {basefilename mimetype : String} {printit openit : Bool} {filesize : Nat} {fileData : Bytes}
      {options : Options} {sendId : String} (named : strget o options "file-chunk-id" ≠ "")
      (failed : os.opened = none) :
      Refused o os s (.sendFile basefilename mimetype printit openit filesize fileData options sendId)
  | tooMany {basefilename mimetype : String} {printit openit : Bool} {filesize : Nat} {fileData : Bytes}
      {options : Options} {sendId : String} (named : strget o options "file-chunk-id" ≠ "")
      (busy : maxConcurrentFiles ≤ s.receiveChunksInProgress.length) :
      Refused o os s (.sendFile basefilename mimetype printit openit filesize fileData options sendId)
  /-- not a number of 32 bits -/
  | unreadable {chunkId : String} {chunk : Nat} {fileData : Bytes} {hasMore : Bool} (large : u32 ≤ chunk) :
      Refused o os s (.sendFileChunk chunkId chunk fileData hasMore)
  | unknown {chunkId : String} {chunk : Nat} {fileData : Bytes} {hasMore : Bool}
      (missing : Dict.get s.receiveChunksInProgress chunkId = none) :
      Refused o os s (.sendFileChunk chunkId chunk fileData hasMore)
  | mismatch {chunkId : String} {chunk : Nat} {fileData : Bytes} {hasMore : Bool}
      {state : ReceiveChunkState} (found : Dict.get s.receiveChunksInProgress chunkId = some state)
      (active : state.cancelled = false) (wrong : state.chunk + 1 ≠ chunk) :
      Refused o os s (.sendFileChunk chunkId chunk fileData hasMore)
  | unwritten {chunkId : String} {chunk : Nat} {fileData : Bytes} {hasMore : Bool}
      {state : ReceiveChunkState} (found : Dict.get s.receiveChunksInProgress chunkId = some state)
      (active : state.cancelled = false) (failed : os.room = none) :
      Refused o os s (.sendFileChunk chunkId chunk fileData hasMore)
  | oversize {chunkId : String} {chunk : Nat} {fileData : Bytes} {hasMore : Bool}
      {state : ReceiveChunkState} (found : Dict.get s.receiveChunksInProgress chunkId = some state)
      (active : state.cancelled = false) (more : state.filesize < state.written + fileData.length) :
      Refused o os s (.sendFileChunk chunkId chunk fileData hasMore)

/-- Nothing is said, and the other transfers are as they were. -/
structure Quiet (s s' : Handler) (chunkId : String) : Prop where
  outgoing : s'.outgoing = s.outgoing
  raised : s'.raised = s.raised
  receiving : ∀ other, other ≠ chunkId →
    Dict.get s'.receiveChunksInProgress other = Dict.get s.receiveChunksInProgress other
  sending : s'.sendChunksInProgress = s.sendChunksInProgress

/-- One refusal is sent, nothing is raised, and the other transfers are as they were. -/
structure Clean (s s' : Handler) (chunkId : String) : Prop where
  answer : ∃ message chunk, s'.outgoing = s.outgoing ++ [.ackFileChunk chunkId false message chunk]
  raised : s'.raised = s.raised
  receiving : ∀ other, other ≠ chunkId →
    Dict.get s'.receiveChunksInProgress other = Dict.get s.receiveChunksInProgress other
  sending : s'.sendChunksInProgress = s.sendChunksInProgress

section Clean

variable {s s' s'' : Handler} {chunkId : String}

theorem Quiet.trans (first : Quiet s s' chunkId) (second : Quiet s' s'' chunkId) : Quiet s s'' chunkId :=
  ⟨second.outgoing.trans first.outgoing, second.raised.trans first.raised,
    fun other apart => (second.receiving other apart).trans (first.receiving other apart),
    second.sending.trans first.sending⟩

theorem Quiet.clean (first : Quiet s s' chunkId) (second : Clean s' s'' chunkId) : Clean s s'' chunkId := by
  obtain ⟨message, chunk, sent⟩ := second.answer
  exact ⟨⟨message, chunk, by rw [sent, first.outgoing]⟩, second.raised.trans first.raised,
    fun other apart => (second.receiving other apart).trans (first.receiving other apart),
    second.sending.trans first.sending⟩

theorem Clean.quiet (first : Clean s s' chunkId) (second : Quiet s' s'' chunkId) : Clean s s'' chunkId := by
  obtain ⟨message, chunk, sent⟩ := first.answer
  exact ⟨⟨message, chunk, by rw [second.outgoing, sent]⟩, second.raised.trans first.raised,
    fun other apart => (second.receiving other apart).trans (first.receiving other apart),
    second.sending.trans first.sending⟩

theorem setReceiving_quiet (s : Handler) (chunkId : String) (state : ReceiveChunkState) :
    Quiet s (s.setReceiving chunkId state) chunkId :=
  ⟨rfl, rfl, fun other apart => by rw [Handler.setReceiving, Dict.get_set, if_neg apart.symm], rfl⟩

theorem writeDisk_quiet (s : Handler) (disk : Disk) (chunkId : String) : Quiet s (s.writeDisk disk) chunkId :=
  ⟨rfl, rfl, fun _ _ => rfl, rfl⟩

theorem cancelTimer_quiet (s : Handler) (timer : Nat) (chunkId : String) :
    Quiet s (s.cancelTimer timer) chunkId := ⟨rfl, rfl, fun _ _ => rfl, rfl⟩

theorem addTimer_quiet (s : Handler) (timer : Timer) (chunkId : String) :
    Quiet s (s.addTimer timer) chunkId := ⟨rfl, rfl, fun _ _ => rfl, rfl⟩

theorem send_clean (s : Handler) (chunkId message : String) (chunk : Nat) :
    Clean s (s.send (.ackFileChunk chunkId false message chunk)) chunkId :=
  ⟨⟨message, chunk, rfl⟩, rfl, fun _ _ => rfl, rfl⟩

theorem cancelFile_clean (s : Handler) (chunkId message : String) (chunk : Nat) :
    Clean s (cancelFile s chunkId message chunk) chunkId := by
  unfold cancelFile
  split
  · exact send_clean s chunkId message chunk
  · dsimp only
    refine Quiet.clean ?_ (send_clean _ chunkId message chunk)
    exact (((((setReceiving_quiet s chunkId _).trans (cancelTimer_quiet _ _ chunkId)).trans
      (writeDisk_quiet _ _ chunkId)).trans (addTimer_quiet _ _ chunkId)).trans
        (writeDisk_quiet _ _ chunkId))

theorem chunkError_clean (s : Handler) (chunkId message : String) (chunk : Nat)
    (state : ReceiveChunkState) : Clean s (chunkError s chunkId message chunk (some state)) chunkId :=
  (cancelFile_clean s chunkId message chunk).quiet (writeDisk_quiet _ _ chunkId)

/-- The answer is sent, but then there is no transfer to report on. -/
theorem chunkError_raised (s : Handler) (chunkId message : String) (chunk : Nat) :
    (chunkError s chunkId message chunk none).raised =
      s.raised ++ [.other "'NoneType' object has no attribute 'start'"] := by
  have clean := cancelFile_clean s chunkId message chunk
  rw [chunkError, Handler.raise, clean.raised]

theorem fileError_clean (s : Handler) (message : String) (fd : Nat) (named : chunkId ≠ "") :
    Clean s (fileError s chunkId message fd) chunkId := by
  unfold fileError
  rw [if_neg named]
  dsimp only
  split
  · exact cancelFile_clean s chunkId message 0
  · exact (cancelFile_clean s chunkId message 0).quiet ⟨rfl, rfl, fun _ _ => rfl, rfl⟩

end Clean

/-- What a refusal has to get past to be answered: for a file the checks before it is opened, and
its opening; for a chunk the look for its transfer. -/
def Answerable (os : Os) (s : Handler) : Packet → Prop
  | .sendFile _ _ printit openit filesize _ _ sendId => opens os s printit openit filesize sendId ≠ none
  | .sendFileChunk chunkId chunk _ _ =>
      chunk < u32 ∧ Dict.get s.receiveChunksInProgress chunkId ≠ none
  | .ackFileChunk _ _ _ _ => True

section Refusals

variable {o : Outside} {os : Os} {s : Handler}

/-- Either no file is opened, and processing raises, or it comes as far as the new file. -/
theorem processSendFile_reaches (basefilename mimetype : String) (printit openit : Bool) (filesize : Nat)
    (fileData : Bytes) {options : Options} (sendId : String)
    (named : strget o options "file-chunk-id" ≠ "") :
    (opens os s printit openit filesize sendId = none ∧
      ∃ e, (processSendFile o os s basefilename mimetype printit openit filesize fileData options
        sendId).raised = s.raised ++ [e]) ∨
    ∃ fd s' filename printit' openit', opens os s printit openit filesize sendId = some fd ∧
      Quiet s s' (strget o options "file-chunk-id") ∧
      s'.receiveChunksInProgress = s.receiveChunksInProgress ∧
      processSendFile o os s basefilename mimetype printit openit filesize fileData options sendId =
        receiveFile o os s' filename mimetype printit' openit' filesize fileData options sendId fd := by
  obtain ⟨filesAccepted, accepted⟩ := acceptData_first s sendId printit openit
  have shut {valid : Prop} [Decidable valid] (invalid : ¬ valid) {opened : Option Nat} :
      (if valid then opened else none) = none := if_neg invalid
  unfold processSendFile
  dsimp only
  split
  next large => exact .inl ⟨shut fun valid => absurd valid.2.1 (Nat.not_lt_of_le large), _, rfl⟩
  next readable =>
    split
    next empty => exact .inl ⟨shut fun valid => absurd empty (Nat.ne_of_gt valid.1), _, rfl⟩
    next filled =>
      split
      next large => exact .inl ⟨shut fun valid => absurd valid.2.2.1 (Nat.not_le_of_lt large), _, rfl⟩
      next small =>
        rw [accepted]
        split
        next rejected =>
          refine .inl ⟨shut ?_, _, rfl⟩
          rintro ⟨_, _, _, acceptit, _⟩
          rw [rejected] at acceptit
          cases acceptit
        next acceptit =>
          by_cases enabled : (if (acceptData s sendId printit openit).2.2.1 = true then s.printing
              else s.fileTransfer) = true
          · have allowed : opens os s printit openit filesize sendId = os.opened := by
              apply if_pos
              exact ⟨Nat.pos_of_ne_zero filled, Nat.lt_of_not_le readable, Nat.le_of_not_lt small,
                Bool.eq_true_of_not_eq_false acceptit, enabled⟩
            rw [if_neg (by rw [enabled]; exact Bool.noConfusion)]
            cases opened : os.opened with
            | none =>
                left
                exact ⟨allowed.trans opened, _, rfl⟩
            | some fd =>
                right
                refine ⟨fd, _, _, _, _, allowed.trans opened, ?_, ?_, rfl⟩
                · exact ⟨rfl, rfl, fun _ _ => rfl, rfl⟩
                · rfl
          · rw [if_pos (Bool.eq_false_of_not_eq_true enabled)]
            refine .inl ⟨shut ?_, _, rfl⟩
            rintro ⟨_, _, _, _, allowed⟩
            exact enabled allowed

theorem receiveFile_tooMany {filename mimetype : String} {printit openit : Bool} {filesize : Nat}
    {fileData : Bytes} {options : Options} {sendId : String} {fd : Nat}
    (named : strget o options "file-chunk-id" ≠ "")
    (busy : maxConcurrentFiles ≤ s.receiveChunksInProgress.length) :
    Clean s (receiveFile o os s filename mimetype printit openit filesize fileData options sendId fd)
      (strget o options "file-chunk-id") := by
  unfold receiveFile
  dsimp only
  rw [if_pos named, if_pos busy]
  exact fileError_clean s _ fd named

/-- A file that has been opened is refused for one reason only. -/
theorem Refused.tooMany_of_opens {basefilename mimetype : String} {printit openit : Bool}
    {filesize fd : Nat} {fileData : Bytes} {options : Options} {sendId : String}
    (refused : Refused o os s
      (.sendFile basefilename mimetype printit openit filesize fileData options sendId))
    (opened : opens os s printit openit filesize sendId = some fd) :
    maxConcurrentFiles ≤ s.receiveChunksInProgress.length := by
  obtain ⟨⟨positive, readable, small, acceptit, enabled⟩, opened⟩ :=
    Option.ite_none_right_eq_some.mp opened
  cases refused with
  | size named bad => omega
  | consent named rejected =>
      rw [rejected] at acceptit
      cases acceptit
  | disabled named off =>
      rw [off] at enabled
      cases enabled
  | unopened named failed =>
      rw [failed] at opened
      cases opened
  | tooMany named busy => exact busy

theorem Refused.named {basefilename mimetype : String} {printit openit : Bool} {filesize : Nat}
    {fileData : Bytes} {options : Options} {sendId : String}
    (refused : Refused o os s
      (.sendFile basefilename mimetype printit openit filesize fileData options sendId)) :
    strget o options "file-chunk-id" ≠ "" := by
  cases refused with
  | size named bad => exact named
  | consent named rejected => exact named
  | disabled named off => exact named
  | unopened named failed => exact named
  | tooMany named busy => exact named

/-- A chunk that is refused belongs to an active transfer, unless it is for none. -/
theorem chunk_clean {chunkId : String} {chunk : Nat} {fileData : Bytes} {hasMore : Bool}
    {state : ReceiveChunkState} (readable : chunk < u32)
    (found : Dict.get s.receiveChunksInProgress chunkId = some state)
    (refused : Refused o os s (.sendFileChunk chunkId chunk fileData hasMore)) :
    Clean s (processSendFileChunk o os s chunkId chunk fileData hasMore) chunkId := by
  have reason : state.cancelled = false ∧ (state.chunk + 1 ≠ chunk ∨ os.room = none ∨
      state.filesize < state.written + fileData.length) := by
    cases refused with
    | unreadable large => omega
    | unknown missing =>
        rw [missing] at found
        cases found
    | mismatch found' active wrong =>
        cases found.symm.trans found'
        exact ⟨active, .inl wrong⟩
    | unwritten found' active failed =>
        cases found.symm.trans found'
        exact ⟨active, .inr (.inl failed)⟩
    | oversize found' active more =>
        cases found.symm.trans found'
        exact ⟨active, .inr (.inr more)⟩
  obtain ⟨active, reason⟩ := reason
  unfold processSendFileChunk
  rw [if_neg (Nat.not_le_of_lt readable)]
  simp only [found]
  rw [active, if_neg Bool.false_ne_true]
  split
  · exact chunkError_clean s chunkId _ chunk state
  · rename_i next
    split
    · exact (setReceiving_quiet s chunkId _).clean (chunkError_clean _ chunkId _ chunk _)
    · rename_i room written
      have more : state.filesize < state.written + fileData.length := by
        rcases reason with wrong | failed | more
        · exact absurd wrong next
        · rw [failed] at written
          cases written
        · exact more
      rw [if_pos (show ReceiveChunkState.filesize _ < ReceiveChunkState.written _ from more)]
      exact (((setReceiving_quiet s chunkId _).trans (writeDisk_quiet _ _ chunkId)).trans
        (setReceiving_quiet _ chunkId _)).clean (chunkError_clean _ chunkId _ chunk _)

theorem not_clean_of_raised {s s' : Handler} {chunkId : String} {e : Exn}
    (raised : s'.raised = s.raised ++ [e]) : ¬ Clean s s' chunkId := by
  intro clean
  have same := raised.symm.trans clean.raised
  have lengths := congrArg List.length same
  rw [List.length_append, List.length_singleton] at lengths
  omega

/-- A refusal is answered cleanly just when the handler gets as far as it can be answered. -/
theorem refusals_clean_iff {p : Packet} (refused : Refused o os s p) :
    Clean s (process o os s p) (p.chunkId o) ↔ Answerable os s p := by
  cases p with
  | sendFile basefilename mimetype printit openit filesize fileData options sendId =>
      have named := refused.named
      have reached := @processSendFile_reaches o os s basefilename mimetype printit openit filesize
        fileData options sendId named
      rcases reached with ⟨shut, e, raised⟩ | ⟨fd, s', _, _, _, opened, quiet, same, received⟩
      · constructor
        · intro clean
          exact absurd clean (not_clean_of_raised raised)
        · intro answerable
          exact absurd shut answerable
      · have busy := refused.tooMany_of_opens opened
        constructor
        · intro _
          rw [Answerable, opened]
          exact Option.some_ne_none fd
        · intro _
          rw [process, received]
          rw [← same] at busy
          exact quiet.clean (receiveFile_tooMany named busy)
  | sendFileChunk chunkId chunk fileData hasMore =>
      constructor
      · intro clean
        rw [process] at clean
        unfold processSendFileChunk at clean
        constructor
        · by_contra large
          rw [if_pos (Nat.le_of_not_lt large)] at clean
          exact not_clean_of_raised rfl clean
        · intro missing
          simp only [missing] at clean
          split at clean
          · exact not_clean_of_raised rfl clean
          · exact not_clean_of_raised (chunkError_raised s chunkId _ chunk) clean
      · rintro ⟨readable, known⟩
        obtain ⟨state, found⟩ := Option.ne_none_iff_exists'.mp known
        exact chunk_clean readable found refused
  | ackFileChunk chunkId state message chunk => cases refused

end Refusals

/-- A receiver with a transfer of four bytes. -/
def receivingHandler : Handler :=
  acceptingReceiver.setReceiving "transfer" ⟨7, "/tmp/file", "", false, false, 4, [], none, 0, false, "", 1, 0⟩

theorem refusals_clean_mismatch :
    Clean receivingHandler (process namedOutside ⟨none, none⟩ receivingHandler
      (.sendFileChunk "transfer" 2 [0] true)) "transfer" :=
  (refusals_clean_iff (.mismatch rfl rfl (by decide))).mpr ⟨by decide, Option.some_ne_none _⟩

/-- An empty file. -/
theorem not_refusals_clean :
    ¬ ∀ (o : Outside) (os : Os) (s : Handler) (p : Packet), Refused o os s p →
      Clean s (process o os s p) (p.chunkId o) := by
  intro claim
  have named : strget namedOutside [("file-chunk-id", .str "transfer")] "file-chunk-id" ≠ "" := by decide
  have clean := claim namedOutside ⟨some 7, some 1⟩ acceptingReceiver
    (.sendFile "file" "" false false 0 [] [("file-chunk-id", .str "transfer")] "") (.size named (.inl rfl))
  exact not_clean_of_raised rfl clean

end Catlink.FileTransfer
