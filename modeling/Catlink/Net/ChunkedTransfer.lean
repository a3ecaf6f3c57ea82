import Catlink.Lib.Runs
import Catlink.Net.FileTransfer
import Mathlib

/-! A file sent in chunks arrives as it is, and nothing is left of the transfer. -/

namespace Catlink.FileTransfer

open Runs

/-! ### New names -/

/-- A name that is taken is the last of many that are. -/
theorem untilFree_taken (taken : List String) (root ext : String) (fuel base : Nat) (filename : String)
    (found : untilFree taken root ext fuel base filename ∈ taken) :
    filename ∈ taken ∧ ∀ i < fuel, root ++ "-" ++ toString (base + i + 1) ++ ext ∈ taken := by
  induction fuel generalizing base filename with
  | zero =>
      refine ⟨found, ?_⟩
      intro i below
      exact absurd below (Nat.not_lt_zero i)
  | succ fuel ih =>
      rw [untilFree] at found
      split at found
      · next here =>
          obtain ⟨next, later⟩ := ih _ _ found
          refine ⟨here, ?_⟩
          intro i below
          cases i with
          | zero => exact next
          | succ i =>
              have same : base + (i + 1) + 1 = base + 1 + i + 1 := by omega
              rw [same]
              exact later i (Nat.lt_of_succ_lt_succ below)
      · next free => exact absurd found free

/-- The file that is created did not exist. -/
theorem freeName_new (taken : List String) (filename : String) : freeName taken filename ∉ taken := by
  intro found
  obtain ⟨_, all⟩ := untilFree_taken _ _ _ _ _ _ found
  have distinct : ((List.range (taken.length + 2)).map fun i =>
      (splitext filename).1 ++ "-" ++ toString (0 + i + 1) ++ (splitext filename).2).Nodup := by
    refine List.Nodup.map ?_ List.nodup_range
    intro i j same
    have number := (String.append_right_inj _).mp ((String.append_left_inj _).mp same)
    have equal : 0 + i + 1 = 0 + j + 1 := Nat.repr_inj.mp number
    omega
  have within : ((List.range (taken.length + 2)).map fun i =>
      (splitext filename).1 ++ "-" ++ toString (0 + i + 1) ++ (splitext filename).2) ⊆ taken := by
    intro name member
    obtain ⟨i, below, rfl⟩ := List.mem_map.mp member
    exact all i (List.mem_range.mp below)
  have short := (distinct.subperm within).length_le
  rw [List.length_map, List.length_range] at short
  omega

/-! ### Two peers -/

/-- The data that comes with a packet. -/
def Packet.fileData : Packet → Bytes
  | .sendFile _ _ _ _ _ fileData _ _ => fileData
  | .sendFileChunk _ _ fileData _ => fileData
  | .ackFileChunk _ _ _ _ => []

/-- A file can be created, with a descriptor that is not open, and all that is written is. -/
structure Os.Complete (os : Os) (s : Handler) (p : Packet) : Prop where
  opened : ∃ fd, os.opened = some fd ∧ ∀ entry ∈ s.disk.descriptors, entry.1 ≠ fd
  room : ∃ room, os.room = some room ∧ p.fileData.length ≤ room

/-- The peers, with what has arrived at each. -/
structure Peers where
  sender : Handler
  receiver : Handler
  received : List Packet := []
  acknowledged : List Packet := []

/-- The first packet on its way to a peer arrives. -/
inductive Delivery
  | toReceiver (os : Os)
  | toSender (os : Os)

def Peers.step (o : Outside) (s : Peers) (d : Delivery) (s' : Peers) : Prop :=
  match d with
  | .toReceiver os => ∃ p rest, s.sender.outgoing = p :: rest ∧ os.Complete s.receiver p ∧
      s' = { s with
        sender := { s.sender with outgoing := rest }
        receiver := process o os s.receiver p
        received := s.received ++ [p] }
  | .toSender os => ∃ p rest, s.receiver.outgoing = p :: rest ∧ os.Complete s.sender p ∧
      s' = { s with
        receiver := { s.receiver with outgoing := rest }
        sender := process o os s.sender p
        acknowledged := s.acknowledged ++ [p] }

/-! ### A transfer -/

/-- What `do_send_file` is called with, the id of its chunks and their size. -/
structure Transfer where
  chunkId : String
  chunkSize : Nat
  filename : String
  mimetype : String
  data : Bytes
  printit : Bool
  openit : Bool
  options : Options
  sendId : String

namespace Transfer

variable (t : Transfer) (o : Outside)

def sentOptions : Options :=
  Dict.set (Dict.set t.options "sha256" (.str (o.hexdigest "sha256" t.data))) "file-chunk-id"
    (.str t.chunkId)

def announce : Packet :=
  .sendFile (osPathBasename t.filename) t.mimetype t.printit t.openit t.data.length []
    (t.sentOptions o) t.sendId

/-- How many chunks there are. -/
def chunks : Nat := (t.data.length + t.chunkSize - 1) / t.chunkSize

/-- The data of the first `k` chunks. -/
def before (k : Nat) : Bytes := t.data.take (k * t.chunkSize)

/-- The chunk after the first `k`; there are more when it is not the last. -/
def chunk (k : Nat) : Packet :=
  .sendFileChunk t.chunkId (k + 1) ((t.data.drop (k * t.chunkSize)).take t.chunkSize)
    (decide (k + 1 < t.chunks))

def ack (k : Nat) : Packet := .ackFileChunk t.chunkId true "" k

def start (sender receiver : Handler) : Peers where
  sender := doSendFile o sender t.chunkId t.filename t.mimetype t.data t.data.length t.printit
    t.openit t.options t.sendId
  receiver := receiver

/-- The data is larger than a chunk and within the limits, the id is new, each peer has room for the
transfer, and the receiver accepts it. -/
structure Ready (sender receiver : Handler) : Prop where
  quiet : sender.outgoing = [] ∧ receiver.outgoing = []
  agreed : t.chunkSize = min sender.fileChunks sender.remoteFileChunks
  positive : 0 < t.chunkSize
  smaller : t.chunkSize < t.data.length
  sendable : checkFileSize sender t.data.length = true
  receivable : t.data.length ≤ receiver.fileSizeLimit
  named : t.chunkId ≠ ""
  new : Dict.get sender.sendChunksInProgress t.chunkId = none ∧
    Dict.get receiver.receiveChunksInProgress t.chunkId = none
  slots : sender.sendChunksInProgress.length < maxConcurrentFiles ∧
    receiver.receiveChunksInProgress.length < maxConcurrentFiles
  /-- `do_send_file` adds the only digest -/
  plain : ∀ name ∈ ["sha512", "sha384", "sha224", "sha1"], strget o t.options name = ""
  accepted : ∃ accepting printit openit,
    acceptData receiver t.sendId t.printit t.openit = (accepting, true, printit, openit) ∧
      (if printit = true then receiver.printing else receiver.fileTransfer) = true

/-- The file has been received, once, in all its chunks, and nothing is left of the transfer. -/
structure Finished (sender receiver : Handler) (s : Peers) : Prop where
  file : ∃ download : Download,
    s.receiver.downloads = receiver.downloads ++ [download] ∧ download.filesize = t.data.length ∧
      Dict.get receiver.disk.files download.filename = none ∧
      Dict.get s.receiver.disk.files download.filename = some t.data
  received : s.received = t.announce o :: (List.range t.chunks).map t.chunk
  quiet : s.sender.outgoing = [] ∧ s.receiver.outgoing = []
  removed : Dict.get s.sender.sendChunksInProgress t.chunkId = none ∧
    Dict.get s.receiver.receiveChunksInProgress t.chunkId = none

/-! ### What a transfer keeps -/

/-- The first `k` chunks have been sent. -/
def Sending (s : Handler) (k : Nat) : Prop :=
  ∃ timer, Dict.get s.sendChunksInProgress t.chunkId =
    some ⟨t.data.drop (k * t.chunkSize), t.chunkSize, timer, k⟩

/-- The first `k` chunks have been received. -/
structure Receiving (receiver s : Handler) (k : Nat) (filename : String) : Prop where
  state : ∃ fd timer printit openit, Dict.get s.receiveChunksInProgress t.chunkId =
      some ⟨fd, filename, t.mimetype, printit, openit, t.data.length, t.sentOptions o,
        (optionsDigest o (t.sentOptions o)).map fun digest => { digest with data := t.before k },
        (t.before k).length, false, t.sendId, timer, k⟩ ∧
    Dict.get s.disk.descriptors fd = some (some filename)
  file : Dict.get s.disk.files filename = some (t.before k)
  downloads : s.downloads = receiver.downloads

/-- All the chunks have been received. -/
structure Completed (receiver s : Handler) (filename : String) : Prop where
  file : Dict.get s.disk.files filename = some t.data
  downloads : ∃ printit openit, s.downloads = receiver.downloads ++
    [⟨filename, t.mimetype, printit, openit, t.data.length, t.sentOptions o⟩]
  removed : Dict.get s.receiveChunksInProgress t.chunkId = none

/-- The receiver after `k` chunks. -/
def Received (receiver s : Handler) (k : Nat) (filename : String) : Prop :=
  if k < t.chunks then t.Receiving o receiver s k filename else t.Completed o receiver s filename

/-- One packet at a time is on its way. -/
inductive Phase (sender receiver : Handler) (filename : String) (s : Peers) : Prop
  | announced (same : s = t.start o sender receiver)
  | acknowledged (k : Nat) (below : k ≤ t.chunks)
      (outgoing : s.sender.outgoing = [] ∧ s.receiver.outgoing = [t.ack k])
      (sending : t.Sending s.sender k) (receiving : t.Received o receiver s.receiver k filename)
      (received : s.received = t.announce o :: (List.range k).map t.chunk)
      (acknowledged : s.acknowledged.length = k)
  | sent (k : Nat) (below : k < t.chunks)
      (outgoing : s.sender.outgoing = [t.chunk k] ∧ s.receiver.outgoing = [])
      (sending : t.Sending s.sender (k + 1)) (receiving : t.Received o receiver s.receiver k filename)
      (received : s.received = t.announce o :: (List.range k).map t.chunk)
      (acknowledged : s.acknowledged.length = k + 1)
  | ended (outgoing : s.sender.outgoing = [] ∧ s.receiver.outgoing = [])
      (removed : Dict.get s.sender.sendChunksInProgress t.chunkId = none)
      (receiving : t.Completed o receiver s.receiver filename)
      (received : s.received = t.announce o :: (List.range t.chunks).map t.chunk)
      (acknowledged : s.acknowledged.length = t.chunks + 1)

variable {t o}

theorem lt_chunks (positive : 0 < t.chunkSize) {k : Nat} :
    k < t.chunks ↔ k * t.chunkSize < t.data.length := by
  have le : k + 1 ≤ t.chunks ↔ (k + 1) * t.chunkSize ≤ t.data.length + t.chunkSize - 1 :=
    Nat.le_div_iff_mul_le positive
  rw [Nat.succ_mul] at le
  omega

theorem drop_nil (positive : 0 < t.chunkSize) {k : Nat} :
    t.data.drop (k * t.chunkSize) = [] ↔ ¬ k < t.chunks := by
  rw [List.drop_eq_nil_iff, lt_chunks positive, Nat.not_lt]

theorem before_all (positive : 0 < t.chunkSize) {k : Nat} (last : ¬ k < t.chunks) :
    t.before k = t.data := by
  rw [lt_chunks positive, Nat.not_lt] at last
  exact List.take_of_length_le last

theorem before_succ (k : Nat) :
    t.before (k + 1) = t.before k ++ (t.data.drop (k * t.chunkSize)).take t.chunkSize := by
  rw [before, Nat.succ_mul, List.take_add]
  rfl

/-! ### The sender -/

/-- The transfer is announced. -/
theorem doSendFile_starts {sender receiver : Handler} (ready : t.Ready o sender receiver) :
    (t.start o sender receiver).sender.outgoing = [t.announce o] ∧
      t.Sending (t.start o sender receiver).sender 0 := by
  have chunked : 0 < min sender.fileChunks sender.remoteFileChunks ∧
      min sender.fileChunks sender.remoteFileChunks < t.data.length := by
    rw [← ready.agreed]
    exact ⟨ready.positive, ready.smaller⟩
  unfold start doSendFile
  rw [if_neg (by rw [ready.sendable]; decide)]
  dsimp only
  rw [if_pos chunked, if_neg (Nat.not_le.mpr ready.slots.1), ← ready.agreed]
  constructor
  · change sender.outgoing ++ [_] = _
    rw [ready.quiet.1]
    rfl
  · refine ⟨sender.timers.next, ?_⟩
    rw [Nat.zero_mul, List.drop_zero]
    exact (Dict.get_set _ _ _ _).trans (if_pos rfl)

/-- An acknowledgement is answered with the next chunk. -/
theorem ack_continues (positive : 0 < t.chunkSize) {s : Handler} {k : Nat} (sending : t.Sending s k)
    (more : k < t.chunks) (small : k < u32) :
    (processAckFileChunk s t.chunkId true k).outgoing = s.outgoing ++ [t.chunk k] ∧
      t.Sending (processAckFileChunk s t.chunkId true k) (k + 1) := by
  obtain ⟨timer, found⟩ := sending
  have left : t.data.drop (k * t.chunkSize) ≠ [] := fun none => (drop_nil positive).mp none more
  have rest : (t.data.drop (k * t.chunkSize)).drop t.chunkSize =
      t.data.drop ((k + 1) * t.chunkSize) := by
    rw [List.drop_drop, Nat.succ_mul]
  have hasMore : decide (t.data.drop ((k + 1) * t.chunkSize) ≠ []) = decide (k + 1 < t.chunks) := by
    rw [decide_eq_decide, ne_eq, drop_nil positive, not_not]
  unfold processAckFileChunk
  rw [if_neg (Nat.not_le.mpr small), if_neg (by decide), found]
  dsimp only
  rw [if_neg (not_not.mpr rfl), if_neg left, if_neg (Nat.ne_of_gt positive), rest, hasMore]
  constructor
  · rfl
  · exact ⟨_, (Dict.get_set _ _ _ _).trans (if_pos rfl)⟩

/-- The acknowledgement of the last chunk ends the transfer. -/
theorem ack_ends (positive : 0 < t.chunkSize) {s : Handler} {k : Nat} (sending : t.Sending s k)
    (last : ¬ k < t.chunks) (small : k < u32) :
    (processAckFileChunk s t.chunkId true k).outgoing = s.outgoing ∧
      Dict.get (processAckFileChunk s t.chunkId true k).sendChunksInProgress t.chunkId = none := by
  obtain ⟨timer, found⟩ := sending
  unfold processAckFileChunk
  rw [if_neg (Nat.not_le.mpr small), if_neg (by decide), found]
  dsimp only
  rw [if_neg (not_not.mpr rfl), if_pos ((drop_nil positive).mpr last)]
  unfold cancelSending
  rw [found]
  exact ⟨rfl, (Dict.get_erase _ _ _).trans (if_pos rfl)⟩

/-! ### The receiver -/

/-- The name that the receiver gives the file. -/
def name (t : Transfer) (o : Outside) (receiver : Handler) : String :=
  downloadName o receiver.disk (osPathBasename t.filename) t.mimetype

theorem strget_chunkId : strget o (t.sentOptions o) "file-chunk-id" = t.chunkId := by
  unfold strget sentOptions
  rw [Dict.get_set, if_pos rfl]
  rfl

theorem strget_sha256 : strget o (t.sentOptions o) "sha256" = o.hexdigest "sha256" t.data := by
  unfold strget sentOptions
  rw [Dict.get_set, if_neg (by decide), Dict.get_set, if_pos rfl]
  rfl

theorem strget_other {name : String} (one : "file-chunk-id" ≠ name) (two : "sha256" ≠ name) :
    strget o (t.sentOptions o) name = strget o t.options name := by
  unfold strget sentOptions
  rw [Dict.get_set, if_neg one, Dict.get_set, if_neg two]

/-- The digest that is checked is the one that `do_send_file` added. -/
theorem sent_digest
    (plain : ∀ name ∈ ["sha512", "sha384", "sha224", "sha1"], strget o t.options name = "")
    {digest : Digest} (named : optionsDigest o (t.sentOptions o) = some digest) :
    digest.name = "sha256" := by
  obtain ⟨name, found, rfl⟩ := Option.map_eq_some_iff.mp named
  have listed := List.mem_of_find?_eq_some found
  have present := List.find?_some found
  rw [decide_eq_true_eq] at present
  have only : ∀ other ∈ ["sha512", "sha384", "sha224", "sha1"], name ≠ other := by
    rintro other member rfl
    apply present
    rw [strget_other, plain name member]
    all_goals
      rintro rfl
      revert member
      decide
  have apart := List.forall_mem_cons.mp only
  simp only [List.mem_cons, List.not_mem_nil, or_false] at listed
  rcases listed with same | same | same | same | same
  · exact absurd same (only _ (by decide))
  · exact absurd same (only _ (by decide))
  · exact same
  · exact absurd same (only _ (by decide))
  · exact absurd same (only _ (by decide))

theorem acceptData_frame (s : Handler) (sendId : String) (printit openit : Bool) :
    ∃ filesAccepted, (acceptData s sendId printit openit).1 = { s with filesAccepted := filesAccepted } := by
  unfold acceptData
  split
  · exact ⟨_, rfl⟩
  · split
    · exact ⟨_, rfl⟩
    · exact ⟨_, rfl⟩

/-- A transfer in chunks begins: the first acknowledgement asks for the first chunk. -/
theorem receiveFile_begins {s : Handler} (named : t.chunkId ≠ "")
    (slot : s.receiveChunksInProgress.length < maxConcurrentFiles) (os : Os)
    (filename : String) (printit openit : Bool) (fd : Nat) :
    let s' := receiveFile o os s filename t.mimetype printit openit t.data.length []
      (t.sentOptions o) t.sendId fd
    s'.outgoing = s.outgoing ++ [t.ack 0] ∧ s'.disk = s.disk ∧ s'.downloads = s.downloads ∧
      Dict.get s'.receiveChunksInProgress t.chunkId = some
        ⟨fd, filename, t.mimetype, printit, openit, t.data.length, t.sentOptions o,
          optionsDigest o (t.sentOptions o), 0, false, t.sendId, s.timers.next, 0⟩ := by
  unfold receiveFile
  dsimp only
  rw [strget_chunkId, if_pos named, if_neg (Nat.not_le.mpr slot)]
  exact ⟨rfl, rfl, rfl, (Dict.get_set _ _ _ _).trans (if_pos rfl)⟩

/-- A new digest has no data. -/
theorem optionsDigest_new (options : Options) :
    (optionsDigest o options).map (fun digest => { digest with data := [] }) =
      optionsDigest o options := by
  unfold optionsDigest
  rw [Option.map_map]
  rfl

/-- The announcement is accepted. -/
theorem announce_accepted {sender receiver : Handler} (ready : t.Ready o sender receiver)
    (small : t.data.length < u64) {os : Os} (complete : os.Complete receiver (t.announce o)) :
    (process o os receiver (t.announce o)).outgoing = [t.ack 0] ∧
      t.Receiving o receiver (process o os receiver (t.announce o)) 0 (t.name o receiver) := by
  obtain ⟨accepting, printit, openit, accepts, enabled⟩ := ready.accepted
  obtain ⟨filesAccepted, frame⟩ := acceptData_frame receiver t.sendId t.printit t.openit
  rw [accepts] at frame
  change accepting = _ at frame
  obtain ⟨fd, opened, unused⟩ := complete.opened
  have filled : t.data.length ≠ 0 := Nat.ne_of_gt (Nat.zero_lt_of_lt ready.smaller)
  unfold announce process
  dsimp only
  unfold processSendFile
  dsimp only
  rw [if_neg (Nat.not_le.mpr small), if_neg filled, if_neg (Nat.not_lt.mpr ready.receivable), accepts]
  dsimp only
  rw [frame, if_neg (by decide), if_neg (by rw [enabled]; decide), opened]
  dsimp only
  obtain ⟨outgoing, disk, downloads, state⟩ := receiveFile_begins (t := t) (o := o)
    (s := { ({ receiver with filesAccepted := filesAccepted } : Handler).writeDisk
        (receiver.disk.create (t.name o receiver) fd) with
      fileDescriptors := if fd ∈ receiver.fileDescriptors then receiver.fileDescriptors
        else receiver.fileDescriptors ++ [fd] })
    ready.named ready.slots.2 os (t.name o receiver) printit openit fd
  have empty : t.before 0 = [] := by
    rw [before, Nat.zero_mul]
    rfl
  constructor
  · refine outgoing.trans ?_
    change receiver.outgoing ++ [_] = _
    rw [ready.quiet.2]
    rfl
  · constructor
    · refine ⟨fd, receiver.timers.next, printit, openit, ?_, ?_⟩
      · rw [empty, optionsDigest_new]
        exact state
      · refine (congrArg (fun disk : Disk => Dict.get disk.descriptors fd) disk).trans ?_
        exact (Dict.get_set _ _ _ _).trans (if_pos rfl)
    · refine (congrArg (fun disk : Disk => Dict.get disk.files (t.name o receiver)) disk).trans ?_
      rw [empty]
      exact (Dict.get_set _ _ _ _).trans (if_pos rfl)
    · exact downloads

/-- What is written through the descriptor of a file is added to it. -/
theorem write_file {disk : Disk} {fd : Nat} {filename : String} {content : Bytes}
    (descriptor : Dict.get disk.descriptors fd = some (some filename))
    (file : Dict.get disk.files filename = some content) (data : Bytes) :
    Dict.get (disk.write fd data).files filename = some (content ++ data) ∧
      (disk.write fd data).descriptors = disk.descriptors := by
  unfold Disk.write
  rw [descriptor]
  dsimp only
  rw [file]
  exact ⟨(Dict.get_set _ _ _ _).trans (if_pos rfl), rfl⟩

theorem processDownloadedFile_frame (s : Handler) (download : Download) :
    let s' := processDownloadedFile s download
    s'.downloads = s.downloads ++ [download] ∧ s'.disk = s.disk ∧ s'.outgoing = s.outgoing ∧
      s'.receiveChunksInProgress = s.receiveChunksInProgress := by
  obtain ⟨callbacks, processed, raised, same⟩ := processDownloadedFile_eq s download
  rw [same]
  exact ⟨rfl, rfl, rfl, rfl⟩

/-- The state of a transfer after `k` chunks. -/
def receiveState (t : Transfer) (o : Outside) (fd : Nat) (filename : String) (printit openit : Bool)
    (timer k : Nat) : ReceiveChunkState :=
  ⟨fd, filename, t.mimetype, printit, openit, t.data.length, t.sentOptions o,
    (optionsDigest o (t.sentOptions o)).map fun digest => { digest with data := t.before k },
    (t.before k).length, false, t.sendId, timer, k⟩

theorem receiveState_wrote (fd : Nat) (filename : String) (printit openit : Bool) (timer k : Nat) :
    ({ t.receiveState o fd filename printit openit timer k with chunk := k + 1 } :
      ReceiveChunkState).wrote ((t.data.drop (k * t.chunkSize)).take t.chunkSize) =
      t.receiveState o fd filename printit openit timer (k + 1) := by
  unfold ReceiveChunkState.wrote receiveState
  dsimp only
  rw [before_succ, List.length_append, Option.map_map]
  rfl

/-- The next chunk is written and acknowledged. -/
theorem chunk_written {s : Handler} {k : Nat} {filename : String} {fd timer : Nat}
    {printit openit : Bool} (os : Os)
    (found : Dict.get s.receiveChunksInProgress t.chunkId =
      some (t.receiveState o fd filename printit openit timer k))
    (descriptor : Dict.get s.disk.descriptors fd = some (some filename))
    (file : Dict.get s.disk.files filename = some (t.before k)) (small : k + 1 < u32)
    (room : ∃ room, os.room = some room ∧
      ((t.data.drop (k * t.chunkSize)).take t.chunkSize).length ≤ room) (hasMore : Bool) :
    ∃ s₁ : Handler, s₁.outgoing = s.outgoing ++ [t.ack (k + 1)] ∧ s₁.downloads = s.downloads ∧
      Dict.get s₁.disk.files filename = some (t.before (k + 1)) ∧
      s₁.disk.descriptors = s.disk.descriptors ∧
      processSendFileChunk o os s t.chunkId (k + 1)
          ((t.data.drop (k * t.chunkSize)).take t.chunkSize) hasMore =
        if hasMore = true then
          ((s₁.cancelTimer timer).addTimer (.receiving t.chunkId (k + 1))).setReceiving t.chunkId
            (t.receiveState o fd filename printit openit (s₁.cancelTimer timer).timers.next (k + 1))
        else completeChunks o s₁ t.chunkId (k + 1)
          (t.receiveState o fd filename printit openit timer (k + 1)) := by
  obtain ⟨room, enough, fits⟩ := room
  have within : ¬ t.data.length < (t.before (k + 1)).length := by
    rw [before, List.length_take]
    omega
  have goes : ¬ (t.receiveState o fd filename printit openit timer k).cancelled = true := by
    exact Bool.false_ne_true
  have next : ¬ (t.receiveState o fd filename printit openit timer k).chunk + 1 ≠ k + 1 :=
    not_not.mpr rfl
  unfold processSendFileChunk
  rw [if_neg (Nat.not_le.mpr small), found]
  dsimp only
  rw [if_neg goes, if_neg next, enough]
  dsimp only
  rw [receiveState_wrote, List.take_of_length_le fits]
  rw [if_neg (show ¬ (t.receiveState o fd filename printit openit timer (k + 1)).filesize <
    (t.receiveState o fd filename printit openit timer (k + 1)).written from within)]
  obtain ⟨written, descriptors⟩ := write_file descriptor file
    ((t.data.drop (k * t.chunkSize)).take t.chunkSize)
  refine ⟨_, ?_, ?_, ?_, ?_, rfl⟩
  · rfl
  · rfl
  · rw [before_succ]
    exact written
  · exact descriptors

/-- A chunk that is not the last. -/
theorem chunk_continues {receiver s : Handler} {k : Nat} {filename : String}
    (receiving : t.Receiving o receiver s k filename) (more : k + 1 < t.chunks) (small : k + 1 < u32)
    {os : Os} (complete : os.Complete s (t.chunk k)) :
    (process o os s (t.chunk k)).outgoing = s.outgoing ++ [t.ack (k + 1)] ∧
      t.Receiving o receiver (process o os s (t.chunk k)) (k + 1) filename := by
  obtain ⟨⟨fd, timer, printit, openit, found, descriptor⟩, file, downloads⟩ := receiving
  obtain ⟨s₁, outgoing, kept, written, descriptors, same⟩ := chunk_written os found descriptor
    file small complete.room (decide (k + 1 < t.chunks))
  rw [if_pos (decide_eq_true more)] at same
  unfold chunk process
  dsimp only
  rw [same]
  refine ⟨outgoing, ⟨⟨fd, _, printit, openit, (Dict.get_set _ _ _ _).trans (if_pos rfl), ?_⟩, written,
    kept.trans downloads⟩⟩
  change Dict.get s₁.disk.descriptors fd = _
  rw [descriptors]
  exact descriptor

/-- The digest of all the data is the one that was announced. -/
theorem digest_matches
    (plain : ∀ name ∈ ["sha512", "sha384", "sha224", "sha1"], strget o t.options name = "") :
    digestMismatch o (t.sentOptions o)
      ((optionsDigest o (t.sentOptions o)).map fun digest => { digest with data := t.data }) = false := by
  cases named : optionsDigest o (t.sentOptions o) with
  | none => rfl
  | some digest =>
      unfold digestMismatch
      rw [Option.map_some]
      dsimp only
      rw [sent_digest plain named, strget_sha256]
      simp

/-- The last chunk completes the file. -/
theorem chunk_completes {receiver s : Handler} {k : Nat} {filename : String}
    (positive : 0 < t.chunkSize)
    (plain : ∀ name ∈ ["sha512", "sha384", "sha224", "sha1"], strget o t.options name = "")
    (receiving : t.Receiving o receiver s k filename) (last : ¬ k + 1 < t.chunks)
    (small : k + 1 < u32) {os : Os} (complete : os.Complete s (t.chunk k)) :
    (process o os s (t.chunk k)).outgoing = s.outgoing ++ [t.ack (k + 1)] ∧
      t.Completed o receiver (process o os s (t.chunk k)) filename := by
  obtain ⟨⟨fd, timer, printit, openit, found, descriptor⟩, file, downloads⟩ := receiving
  obtain ⟨s₁, outgoing, kept, written, descriptors, same⟩ := chunk_written os found descriptor
    file small complete.room (decide (k + 1 < t.chunks))
  rw [if_neg (by simpa using last)] at same
  have all := before_all positive last
  have digest : digestMismatch o (t.sentOptions o)
      ((optionsDigest o (t.sentOptions o)).map fun digest =>
        { digest with data := t.before (k + 1) }) = false := by
    rw [all]
    exact digest_matches plain
  have size : ¬ (t.before (k + 1)).length ≠ t.data.length := by
    rw [all]
    exact not_not.mpr rfl
  unfold completeChunks receiveState at same
  dsimp only at same
  rw [digest, if_neg (by decide), if_neg size] at same
  unfold chunk process
  dsimp only
  rw [same]
  obtain ⟨processed, disk, outgoing', removed⟩ := processDownloadedFile_frame
    (({ s₁ with receiveChunksInProgress := Dict.erase s₁.receiveChunksInProgress t.chunkId } :
      Handler).writeDisk (s₁.disk.osclose fd))
    ⟨filename, t.mimetype, printit, openit, t.data.length, t.sentOptions o⟩
  have files (disk : Disk) : (disk.osclose fd).files = disk.files := by
    unfold Disk.osclose
    split <;> rfl
  refine ⟨outgoing'.trans outgoing, ?_, ⟨printit, openit, ?_⟩, ?_⟩
  · refine (congrArg (fun disk : Disk => Dict.get disk.files filename) disk).trans ?_
    change Dict.get (s₁.disk.osclose fd).files filename = _
    rw [files, written, all]
  · refine processed.trans ?_
    change s₁.downloads ++ _ = _
    rw [kept, downloads]
  · refine (congrArg (fun table => Dict.get table t.chunkId) removed).trans ?_
    exact (Dict.get_erase _ _ _).trans (if_pos rfl)

/-! ### Runs -/

end Transfer

/-- How many packets have arrived. -/
def Peers.deliveries (s : Peers) : Nat := s.received.length + s.acknowledged.length

variable {o : Outside}

theorem step_deliveries {s s' : Peers} {d : Delivery} (taken : s.step o d s') :
    s'.deliveries = s.deliveries + 1 := by
  unfold Peers.deliveries
  cases d with
  | toReceiver os =>
      obtain ⟨p, rest, _, _, rfl⟩ := taken
      simp only [List.length_append, List.length_singleton]
      omega
  | toSender os =>
      obtain ⟨p, rest, _, _, rfl⟩ := taken
      simp only [List.length_append, List.length_singleton]
      omega

/-- The operating system can always do what is asked of it. -/
theorem complete_exists (s : Handler) (p : Packet) : ∃ os : Os, os.Complete s p := by
  refine ⟨⟨some ((s.disk.descriptors.map Prod.fst).sum + 1), some p.fileData.length⟩,
    ⟨_, rfl, ?_⟩, ⟨_, rfl, Nat.le_refl _⟩⟩
  intro entry member same
  have below := List.single_le_sum (fun _ _ => Nat.zero_le _) _
    (List.mem_map_of_mem (f := Prod.fst) member)
  omega

/-- A packet that is on its way can arrive. -/
theorem can_arrive {s : Peers} (waiting : s.sender.outgoing ≠ [] ∨ s.receiver.outgoing ≠ []) :
    ∃ d s', s.step o d s' := by
  rcases waiting with some | some
  · obtain ⟨p, rest, same⟩ := List.exists_cons_of_ne_nil some
    obtain ⟨os, complete⟩ := complete_exists s.receiver p
    exact ⟨.toReceiver os, _, p, rest, same, complete, rfl⟩
  · obtain ⟨p, rest, same⟩ := List.exists_cons_of_ne_nil some
    obtain ⟨os, complete⟩ := complete_exists s.sender p
    exact ⟨.toSender os, _, p, rest, same, complete, rfl⟩

namespace Transfer

variable {t : Transfer} {sender receiver : Handler} {s s' : Peers}

/-- The announcement arrives. -/
theorem announced_phase (ready : t.Ready o sender receiver) (small : t.data.length < u64)
    {d : Delivery} (taken : (t.start o sender receiver).step o d s') :
    t.Phase o sender receiver (t.name o receiver) s' := by
  obtain ⟨outgoing, sending⟩ := doSendFile_starts ready
  cases d with
  | toReceiver os =>
      obtain ⟨p, rest, first, complete, rfl⟩ := taken
      rw [outgoing] at first
      cases first
      obtain ⟨answered, receiving⟩ := announce_accepted ready small complete
      refine .acknowledged 0 (Nat.zero_le _) ⟨rfl, answered⟩ sending ?_ rfl rfl
      unfold Received
      have some : 0 < t.chunks := by
        rw [lt_chunks ready.positive, Nat.zero_mul]
        exact Nat.zero_lt_of_lt ready.smaller
      rw [if_pos some]
      exact receiving
  | toSender os =>
      obtain ⟨p, rest, first, _⟩ := taken
      have none : receiver.outgoing = p :: rest := first
      rw [ready.quiet.2] at none
      cases none

/-- An acknowledgement arrives. -/
theorem acknowledged_phase (positive : 0 < t.chunkSize) {k : Nat} (bound : k < u32)
    (below : k ≤ t.chunks) (outgoing : s.sender.outgoing = [] ∧ s.receiver.outgoing = [t.ack k])
    (sending : t.Sending s.sender k)
    (receiving : t.Received o receiver s.receiver k (t.name o receiver))
    (received : s.received = t.announce o :: (List.range k).map t.chunk)
    (acknowledged : s.acknowledged.length = k) {d : Delivery} (taken : s.step o d s') :
    t.Phase o sender receiver (t.name o receiver) s' := by
  cases d with
  | toReceiver os =>
      obtain ⟨p, rest, first, _⟩ := taken
      rw [outgoing.1] at first
      cases first
  | toSender os =>
      obtain ⟨p, rest, first, complete, rfl⟩ := taken
      rw [outgoing.2] at first
      cases first
      have count : (s.acknowledged ++ [t.ack k]).length = k + 1 := by
        rw [List.length_append, acknowledged]
        rfl
      by_cases more : k < t.chunks
      · obtain ⟨answered, sending'⟩ := ack_continues positive sending more bound
        rw [outgoing.1] at answered
        have receiving' : t.Receiving o receiver s.receiver k (t.name o receiver) := by
          rw [Received, if_pos more] at receiving
          exact receiving
        refine .sent k more ⟨answered, rfl⟩ sending' ?_ received count
        rw [Received, if_pos more]
        exact ⟨receiving'.state, receiving'.file, receiving'.downloads⟩
      · have all : k = t.chunks := Nat.le_antisymm below (Nat.not_lt.mp more)
        subst all
        obtain ⟨quiet, removed⟩ := ack_ends positive sending more bound
        rw [outgoing.1] at quiet
        have completed : t.Completed o receiver s.receiver (t.name o receiver) := by
          rw [Received, if_neg more] at receiving
          exact receiving
        exact .ended ⟨quiet, rfl⟩ removed ⟨completed.file, completed.downloads, completed.removed⟩
          received count

/-- A chunk arrives. -/
theorem sent_phase (ready : t.Ready o sender receiver) {k : Nat} (bound : k + 1 < u32)
    (below : k < t.chunks) (outgoing : s.sender.outgoing = [t.chunk k] ∧ s.receiver.outgoing = [])
    (sending : t.Sending s.sender (k + 1))
    (receiving : t.Received o receiver s.receiver k (t.name o receiver))
    (received : s.received = t.announce o :: (List.range k).map t.chunk)
    (acknowledged : s.acknowledged.length = k + 1) {d : Delivery} (taken : s.step o d s') :
    t.Phase o sender receiver (t.name o receiver) s' := by
  cases d with
  | toReceiver os =>
      obtain ⟨p, rest, first, complete, rfl⟩ := taken
      rw [outgoing.1] at first
      cases first
      rw [Received, if_pos below] at receiving
      have list : s.received ++ [t.chunk k] =
          t.announce o :: (List.range (k + 1)).map t.chunk := by
        rw [received, List.range_succ, List.map_append]
        rfl
      by_cases more : k + 1 < t.chunks
      · obtain ⟨answered, receiving'⟩ := chunk_continues receiving more bound complete
        rw [outgoing.2] at answered
        refine .acknowledged (k + 1) below ⟨rfl, answered⟩ sending ?_ list acknowledged
        rw [Received, if_pos more]
        exact receiving'
      · obtain ⟨answered, completed⟩ :=
          chunk_completes ready.positive ready.plain receiving more bound complete
        rw [outgoing.2] at answered
        refine .acknowledged (k + 1) below ⟨rfl, answered⟩ sending ?_ list acknowledged
        rw [Received, if_neg more]
        exact completed
  | toSender os =>
      obtain ⟨p, rest, first, _⟩ := taken
      rw [outgoing.2] at first
      cases first

/-- One packet arrives. -/
theorem step_phase (ready : t.Ready o sender receiver) (small : t.data.length < u64)
    (few : t.chunks < u32) (phase : t.Phase o sender receiver (t.name o receiver) s) {d : Delivery}
    (taken : s.step o d s') : t.Phase o sender receiver (t.name o receiver) s' := by
  cases phase with
  | announced same =>
      rw [same] at taken
      exact announced_phase ready small taken
  | acknowledged k below outgoing sending receiving received acknowledged =>
      exact acknowledged_phase ready.positive (Nat.lt_of_le_of_lt below few) below outgoing sending receiving received
        acknowledged taken
  | sent k below outgoing sending receiving received acknowledged =>
      exact sent_phase ready (Nat.lt_of_le_of_lt below few) below outgoing sending receiving received acknowledged taken
  | ended outgoing =>
      cases d with
      | toReceiver os =>
          obtain ⟨p, rest, first, _⟩ := taken
          rw [outgoing.1] at first
          cases first
      | toSender os =>
          obtain ⟨p, rest, first, _⟩ := taken
          rw [outgoing.2] at first
          cases first

/-- Until all has arrived something is on its way. -/
theorem phase_goes (ready : t.Ready o sender receiver)
    (phase : t.Phase o sender receiver (t.name o receiver) s) :
    s.deliveries ≤ 2 * (t.chunks + 1) ∧
      (s.deliveries < 2 * (t.chunks + 1) → s.sender.outgoing ≠ [] ∨ s.receiver.outgoing ≠ []) ∧
      (s.deliveries = 2 * (t.chunks + 1) → t.Finished o sender receiver s) := by
  have counted (k : Nat) : (t.announce o :: (List.range k).map t.chunk).length = k + 1 := by
    rw [List.length_cons, List.length_map, List.length_range]
  unfold Peers.deliveries
  cases phase with
  | announced same =>
      have outgoing := (doSendFile_starts ready).1
      rw [← same] at outgoing
      have none : s.received.length + s.acknowledged.length = 0 := by
        rw [same]
        rfl
      rw [none]
      refine ⟨Nat.zero_le _, fun _ => .inl ?_, by omega⟩
      rw [outgoing]
      exact List.cons_ne_nil _ _
  | acknowledged k below outgoing sending receiving received acknowledged =>
      rw [received, counted, acknowledged]
      refine ⟨by omega, fun _ => .inr ?_, by omega⟩
      rw [outgoing.2]
      exact List.cons_ne_nil _ _
  | sent k below outgoing sending receiving received acknowledged =>
      rw [received, counted, acknowledged]
      refine ⟨by omega, fun _ => .inl ?_, by omega⟩
      rw [outgoing.1]
      exact List.cons_ne_nil _ _
  | ended outgoing removed completed received acknowledged =>
      rw [received, counted, acknowledged]
      refine ⟨by omega, by omega, fun _ => ?_⟩
      obtain ⟨printit, openit, downloads⟩ := completed.downloads
      refine ⟨⟨_, downloads, rfl, ?_, completed.file⟩, received, outgoing, removed, completed.removed⟩
      cases found : Dict.get receiver.disk.files (t.name o receiver) with
      | none => rfl
      | some content =>
          have taken := List.mem_map_of_mem (f := Prod.fst) (Dict.get_mem found)
          exact absurd taken (freeName_new _ _)

/-- While the chunks can be numbered, a transfer goes on until the receiver has the file. -/
theorem chunked_transfer (ready : t.Ready o sender receiver) (small : t.data.length < u64)
    (few : t.chunks < u32) (run : Reachable (· = t.start o sender receiver) (Peers.step o) s) :
    s.deliveries ≤ 2 * (t.chunks + 1) ∧
      (∀ d s', s.step o d s' → s'.deliveries = s.deliveries + 1) ∧
      (s.deliveries < 2 * (t.chunks + 1) → ∃ d s', s.step o d s') ∧
      (s.deliveries = 2 * (t.chunks + 1) → t.Finished o sender receiver s) := by
  have phase : t.Phase o sender receiver (t.name o receiver) s := by
    refine run.invariant (fun _ first => .announced first) ?_
    intro before d after phase taken
    exact step_phase ready small few phase taken
  obtain ⟨bound, goes, ends⟩ := phase_goes ready phase
  exact ⟨bound, fun _ _ taken => step_deliveries taken, fun more => can_arrive (goes more), ends⟩

end Transfer

/-- A packet that the receiver refuses with an exception. -/
theorem chunk_refused (os : Os) (s : Handler) (chunkId : String) {chunk : Nat} (large : u32 ≤ chunk)
    (fileData : Bytes) (hasMore : Bool) :
    (processSendFileChunk o os s chunkId chunk fileData hasMore).outgoing = s.outgoing := by
  unfold processSendFileChunk
  rw [if_pos large]
  rfl

namespace Transfer

variable {t : Transfer} {sender receiver : Handler} {s s' : Peers}

/-- The first chunk number that is not one of 32 bits ends what goes on, and the sender waits for its
acknowledgement. -/
def Stalled (t : Transfer) (s : Peers) : Prop :=
  (s.sender.outgoing = [] ∧ s.receiver.outgoing = []) ∧ s.deliveries = 2 * u32 + 1 ∧
    ∃ k, t.Sending s.sender k

theorem step_stalls (ready : t.Ready o sender receiver) (small : t.data.length < u64)
    (phase : t.Phase o sender receiver (t.name o receiver) s) (before : s.deliveries ≤ 2 * u32)
    {d : Delivery} (taken : s.step o d s') :
    (t.Phase o sender receiver (t.name o receiver) s' ∧ s'.deliveries ≤ 2 * u32) ∨ t.Stalled s' := by
  have counted (k : Nat) : (t.announce o :: (List.range k).map t.chunk).length = k + 1 := by
    rw [List.length_cons, List.length_map, List.length_range]
  have later := step_deliveries taken
  cases phase with
  | announced same =>
      have none : s.deliveries = 0 := by
        rw [same]
        rfl
      left
      rw [same] at taken
      refine ⟨announced_phase ready small taken, ?_⟩
      rw [later, none]
      decide
  | acknowledged k below outgoing sending receiving received acknowledged =>
      have count : s.deliveries = 2 * k + 1 := by
        rw [Peers.deliveries, received, counted, acknowledged]
        omega
      left
      refine ⟨acknowledged_phase ready.positive (by omega) below outgoing sending receiving received
        acknowledged taken, by omega⟩
  | sent k below outgoing sending receiving received acknowledged =>
      have count : s.deliveries = 2 * k + 2 := by
        rw [Peers.deliveries, received, counted, acknowledged]
        omega
      by_cases bound : k + 1 < u32
      · left
        exact ⟨sent_phase ready bound below outgoing sending receiving received acknowledged taken,
          by omega⟩
      · right
        cases d with
        | toReceiver os =>
            obtain ⟨p, rest, first, complete, rfl⟩ := taken
            rw [outgoing.1] at first
            cases first
            refine ⟨⟨rfl, ?_⟩, by omega, k + 1, sending⟩
            refine (chunk_refused os s.receiver t.chunkId (Nat.not_lt.mp bound) _ _).trans ?_
            exact outgoing.2
        | toSender os =>
            obtain ⟨p, rest, first, _⟩ := taken
            rw [outgoing.2] at first
            cases first
  | ended outgoing =>
      cases d with
      | toReceiver os =>
          obtain ⟨p, rest, first, _⟩ := taken
          rw [outgoing.1] at first
          cases first
      | toSender os =>
          obtain ⟨p, rest, first, _⟩ := taken
          rw [outgoing.2] at first
          cases first

/-- With more chunks than there are numbers, some run stops before its end. -/
theorem chunks_stall (ready : t.Ready o sender receiver) (small : t.data.length < u64)
    (many : u32 ≤ t.chunks) :
    ∃ s, Reachable (· = t.start o sender receiver) (Peers.step o) s ∧ t.Stalled s := by
  have runs (n : Nat) (bound : n ≤ 2 * u32) :
      ∃ s, Reachable (· = t.start o sender receiver) (Peers.step o) s ∧ s.deliveries = n ∧
        t.Phase o sender receiver (t.name o receiver) s := by
    induction n with
    | zero => exact ⟨_, .start rfl, rfl, .announced rfl⟩
    | succ n ih =>
        obtain ⟨s, reached, count, phase⟩ := ih (Nat.le_of_succ_le bound)
        obtain ⟨d, s', taken⟩ := can_arrive ((phase_goes ready phase).2.1 (by omega))
        have later := step_deliveries taken
        rcases step_stalls ready small phase (by omega) taken with ⟨next, _⟩ | stalled
        · exact ⟨s', .next reached taken, by omega, next⟩
        · have last := stalled.2.1
          omega
  obtain ⟨s, reached, count, phase⟩ := runs (2 * u32) (Nat.le_refl _)
  obtain ⟨d, s', taken⟩ := can_arrive ((phase_goes ready phase).2.1 (by omega))
  have later := step_deliveries taken
  rcases step_stalls ready small phase (by omega) taken with ⟨_, early⟩ | stalled
  · omega
  · exact ⟨s', .next reached taken, stalled⟩

/-! ### Two transfers -/

/-- A digest that is known. -/
def fileOutside : Outside where
  downloadPath name := "/home/user/Downloads/" ++ name
  hexdigest _ _ := "039058c6f2c0cb492c533b0a4d14ef77cc0f78abccced5287d84a1a2011cfb81"
  str _ := ""

/-- A peer that takes part in transfers, in chunks of this size. -/
def chunkHandler (chunkSize : Nat) : Handler where
  fileTransfer := true
  fileTransferAsk := false
  printing := false
  printingAsk := false
  openFiles := false
  openFilesAsk := false
  fileSizeLimit := 8 * 10 ^ 9
  fileChunks := chunkSize
  remoteFileSizeLimit := 8 * 10 ^ 9
  remoteFileChunks := chunkSize

def sampleTransfer (chunkSize : Nat) (data : Bytes) : Transfer :=
  ⟨"c0ffee", chunkSize, "/tmp/sample", "raw", data, false, false, [], "5eed"⟩

theorem sample_ready {chunkSize : Nat} {data : Bytes} (positive : 0 < chunkSize)
    (smaller : chunkSize < data.length) (limit : data.length ≤ 8 * 10 ^ 9) :
    (sampleTransfer chunkSize data).Ready fileOutside (chunkHandler chunkSize)
      (chunkHandler chunkSize) where
  quiet := ⟨rfl, rfl⟩
  agreed := (Nat.min_self chunkSize).symm
  positive := positive
  smaller := smaller
  sendable := by
    unfold checkFileSize
    rw [Bool.and_eq_true, decide_eq_true_eq, decide_eq_true_eq]
    refine ⟨limit, ?_⟩
    change (data.length : Int) ≤ 8 * 10 ^ 9
    exact_mod_cast limit
  receivable := limit
  named := by
    change "c0ffee" ≠ ""
    decide
  new := ⟨rfl, rfl⟩
  slots := ⟨Nat.zero_lt_succ 9, Nat.zero_lt_succ 9⟩
  plain _ _ := rfl
  accepted := ⟨_, _, _, rfl, rfl⟩

/-- Three bytes in chunks of two. -/
theorem chunked_transfer_sample :
    let t := sampleTransfer 2 [1, 2, 3]
    let s := t.start fileOutside (chunkHandler 2) (chunkHandler 2)
    s.deliveries ≤ 2 * (t.chunks + 1) ∧
      (∀ d s', s.step fileOutside d s' → s'.deliveries = s.deliveries + 1) ∧
      (s.deliveries < 2 * (t.chunks + 1) → ∃ d s', s.step fileOutside d s') ∧
      (s.deliveries = 2 * (t.chunks + 1) →
        t.Finished fileOutside (chunkHandler 2) (chunkHandler 2) s) :=
  chunked_transfer (sample_ready (by decide) (by decide) (by decide)) (by decide) (by decide) (.start rfl)

/-- A file of 4 GiB in chunks of one byte stops at the last, whose number is refused: the run ends
before the transfer does. -/
theorem not_chunked_transfer :
    ¬ ∀ o t sender receiver, Transfer.Ready t o sender receiver →
      ∀ s, Reachable (· = t.start o sender receiver) (Peers.step o) s →
        (¬ ∃ d s', s.step o d s') → t.Finished o sender receiver s := by
  intro ends
  obtain ⟨data, size⟩ : ∃ data : Bytes, data.length = 2 ^ 32 :=
    ⟨List.replicate (2 ^ 32) 0, List.length_replicate⟩
  have ready : (sampleTransfer 1 data).Ready fileOutside (chunkHandler 1) (chunkHandler 1) :=
    sample_ready (by decide) (by rw [size]; decide) (by rw [size]; decide)
  have many : (sampleTransfer 1 data).chunks = u32 := by
    unfold chunks sampleTransfer
    dsimp only
    rw [size]
    rfl
  have small : (sampleTransfer 1 data).data.length < u64 := by
    change data.length < u64
    rw [size]
    decide
  obtain ⟨s, reached, ⟨sent, received⟩, -, k, timer, waiting⟩ :=
    chunks_stall ready small (Nat.le_of_eq many.symm)
  have stops : ¬ ∃ d s', s.step fileOutside d s' := by
    rintro ⟨d, s', taken⟩
    cases d with
    | toReceiver os =>
        obtain ⟨p, rest, first, _⟩ := taken
        rw [sent] at first
        cases first
    | toSender os =>
        obtain ⟨p, rest, first, _⟩ := taken
        rw [received] at first
        cases first
  have removed := (ends _ _ _ _ ready s reached stops).removed.1
  rw [waiting] at removed
  cases removed

end Transfer

end Catlink.FileTransfer
