import Catlink.Net.ChunkedTransfer

/-! The descriptors of downloads, from `os.open` to `os.close`. -/

namespace Catlink.FileTransfer

open MainLoop Runs

/-- The transfers in progress, without those that were cancelled. -/
def Handler.transferring (s : Handler) : List ReceiveChunkState :=
  (s.receiveChunksInProgress.map Prod.snd).filter fun state => state.cancelled = false

/-- A descriptor is open as long as its transfer, and then closed once; the files of the transfers
that are over are complete downloads, or were there before. -/
structure Owned (before : List String) (s : Handler) : Prop where
  closed : ∀ fd, s.disk.opened.count fd =
    s.disk.closed.count fd + (s.transferring.map ReceiveChunkState.fd).count fd
  known : ∀ fd, fd ∈ s.fileDescriptors ↔ fd ∈ s.disk.descriptors.map Prod.fst
  complete : ∀ filename ∈ s.disk.files.map Prod.fst, filename ∈ before ∨
    filename ∈ s.downloads.map Download.filename ∨
    filename ∈ s.transferring.map ReceiveChunkState.filename

/-! ### Files and descriptors -/

namespace Disk

theorem osclose_ok (disk : Disk) (fd : Nat) :
    (disk.osclose fd).files = disk.files ∧ (disk.osclose fd).opened = disk.opened ∧
      (fd = 0 ∧ disk.osclose fd = disk ∨
        (disk.osclose fd).closed = disk.closed ++ [fd] ∧
          (disk.osclose fd).descriptors = Dict.erase disk.descriptors fd) := by
  unfold osclose
  split
  next zero => exact ⟨rfl, rfl, .inl ⟨zero, rfl⟩⟩
  next => exact ⟨rfl, rfl, .inr ⟨rfl, rfl⟩⟩

theorem unlink_descriptors (disk : Disk) (filename : String) :
    (disk.unlink filename).descriptors.map Prod.fst = disk.descriptors.map Prod.fst := by
  rw [unlink, List.map_map]
  apply List.map_congr_left
  intro entry _
  dsimp only [Function.comp]
  split
  · rfl
  · rfl

/-- No file is new where the descriptors are open on files that there are. -/
theorem write_ok (disk : Disk) (fd : Nat) (data : Bytes)
    (paths : ∀ entry ∈ disk.descriptors, ∀ filename, entry.2 = some filename →
      filename ∈ disk.files.map Prod.fst) :
    ∃ files, disk.write fd data = { disk with files := files } ∧
      files.map Prod.fst = disk.files.map Prod.fst := by
  unfold write
  split
  next filename descriptor =>
    have there := paths _ (Dict.get_mem descriptor) filename rfl
    refine ⟨_, rfl, ?_⟩
    rw [Dict.set_keys, if_pos there]
  next => exact ⟨disk.files, rfl, rfl⟩

end Disk

/-! ### What breaks the ownership -/

/-- A descriptor that was opened has no transfer any more; it was not closed, or it is still in
`file_descriptors`. -/
structure Lost (s : Handler) (fd : Nat) : Prop where
  known : fd ∈ s.fileDescriptors
  opened : fd ∈ s.disk.opened
  gone : fd ∉ s.transferring.map ReceiveChunkState.fd
  closed : fd ∉ s.disk.closed ∨ fd ∉ s.disk.descriptors.map Prod.fst

theorem Lost.not_owned {s : Handler} {fd : Nat} (lost : Lost s fd) (before : List String) :
    ¬Owned before s := by
  intro owned
  rcases lost.closed with unclosed | shut
  · have count := owned.closed fd
    rw [List.count_eq_zero.mpr unclosed, List.count_eq_zero.mpr lost.gone] at count
    exact List.count_eq_zero.mp count lost.opened
  · exact shut ((owned.known fd).mp lost.known)

/-- Closing it, again or not, does not help. -/
theorem Lost.osclose {s : Handler} {fd : Nat} (lost : Lost s fd) :
    Lost (s.writeDisk (s.disk.osclose fd)) fd := by
  obtain ⟨_, opened, closes⟩ := s.disk.osclose_ok fd
  constructor
  · exact lost.known
  · change fd ∈ (s.disk.osclose fd).opened
    rw [opened]
    exact lost.opened
  · exact lost.gone
  · change fd ∉ (s.disk.osclose fd).closed ∨ fd ∉ (s.disk.osclose fd).descriptors.map Prod.fst
    rcases closes with ⟨_, same⟩ | ⟨_, erased⟩
    · rw [same]
      exact lost.closed
    · right
      rw [erased]
      intro member
      obtain ⟨entry, left, same⟩ := List.mem_map.mp member
      exact (Dict.mem_erase.mp left).2 same

theorem Lost.write {s : Handler} {fd : Nat} (lost : Lost s fd) (other : Nat) (data : Bytes) :
    Lost (s.writeDisk (s.disk.write other data)) fd := by
  have frame : (s.disk.write other data).opened = s.disk.opened ∧
      (s.disk.write other data).closed = s.disk.closed ∧
      (s.disk.write other data).descriptors = s.disk.descriptors := by
    unfold Disk.write
    split
    · exact ⟨rfl, rfl, rfl⟩
    · exact ⟨rfl, rfl, rfl⟩
  obtain ⟨opened, closed, descriptors⟩ := frame
  constructor
  · exact lost.known
  · change fd ∈ (s.disk.write other data).opened
    rw [opened]
    exact lost.opened
  · exact lost.gone
  · change fd ∉ (s.disk.write other data).closed ∨
      fd ∉ (s.disk.write other data).descriptors.map Prod.fst
    rw [closed, descriptors]
    exact lost.closed

theorem Lost.unlink {s : Handler} {fd : Nat} (lost : Lost s fd) (filename : String) :
    Lost (s.writeDisk (s.disk.unlink filename)) fd := by
  constructor
  · exact lost.known
  · exact lost.opened
  · exact lost.gone
  · change fd ∉ s.disk.closed ∨ fd ∉ (s.disk.unlink filename).descriptors.map Prod.fst
    rw [Disk.unlink_descriptors]
    exact lost.closed

/-- What is sent and raised, the timers and the downloads do not matter. -/
theorem Lost.congr {s s' : Handler} {fd : Nat} (lost : Lost s fd)
    (descriptors : s'.fileDescriptors = s.fileDescriptors) (disk : s'.disk = s.disk)
    (receiving : s'.receiveChunksInProgress = s.receiveChunksInProgress) : Lost s' fd := by
  constructor
  · rw [descriptors]
    exact lost.known
  · rw [disk]
    exact lost.opened
  · rw [Handler.transferring, receiving]
    exact lost.gone
  · rw [disk]
    exact lost.closed

theorem Lost.send {s : Handler} {fd : Nat} (lost : Lost s fd) (packet : Packet) :
    Lost (s.send packet) fd := lost.congr rfl rfl rfl

theorem Lost.cancelTimer {s : Handler} {fd : Nat} (lost : Lost s fd) (timer : Nat) :
    Lost (s.cancelTimer timer) fd := lost.congr rfl rfl rfl

theorem Lost.addTimer {s : Handler} {fd : Nat} (lost : Lost s fd) (timer : Timer) :
    Lost (s.addTimer timer) fd := lost.congr rfl rfl rfl

theorem Lost.processDownloadedFile {s : Handler} {fd : Nat} (lost : Lost s fd)
    (download : Download) : Lost (processDownloadedFile s download) fd := by
  obtain ⟨callbacks, processed, raised, same⟩ := processDownloadedFile_eq s download
  rw [same]
  exact lost.congr rfl rfl rfl

theorem cancelFile_unknown {s : Handler} {chunkId : String}
    (unknown : Dict.get s.receiveChunksInProgress chunkId = none) (message : String) (chunk : Nat) :
    cancelFile s chunkId message chunk = s.send (.ackFileChunk chunkId false message chunk) := by
  rw [cancelFile, unknown]

theorem Lost.chunkError {s : Handler} {chunkId : String} {state : ReceiveChunkState}
    (lost : Lost s state.fd) (unknown : Dict.get s.receiveChunksInProgress chunkId = none)
    (message : String) (chunk : Nat) :
    Lost (chunkError s chunkId message chunk (some state)) state.fd := by
  unfold FileTransfer.chunkError
  rw [cancelFile_unknown unknown]
  exact (lost.send _).osclose.unlink state.filename

/-! ### While all transfers go on -/

/-- Every descriptor has its transfer. -/
structure Running (before : List String) (s : Handler) : Prop where
  transfers : s.receiveChunksInProgress.map (fun entry => entry.2.fd) = s.fileDescriptors
  opened : s.disk.opened = s.fileDescriptors
  descriptors : s.disk.descriptors.map Prod.fst = s.fileDescriptors
  distinct : s.fileDescriptors.Nodup
  closed : s.disk.closed = []
  going : ∀ entry ∈ s.receiveChunksInProgress, entry.2.cancelled = false
  downloads : s.downloads = []
  unclean : ∀ source chunkId, (source, Timer.clean chunkId) ∉ s.timers.sources
  files : s.disk.files.map Prod.fst =
    before ++ s.receiveChunksInProgress.map fun entry => entry.2.filename
  paths : ∀ entry ∈ s.disk.descriptors, ∀ filename, entry.2 = some filename →
    filename ∈ s.disk.files.map Prod.fst
  ids : (s.receiveChunksInProgress.map Prod.fst).Nodup

namespace Running

variable {before : List String} {s : Handler}

theorem transferring (running : Running before s) :
    s.transferring = s.receiveChunksInProgress.map Prod.snd := by
  apply List.filter_eq_self.mpr
  intro state member
  obtain ⟨entry, inside, rfl⟩ := List.mem_map.mp member
  exact decide_eq_true (running.going entry inside)

theorem owned (running : Running before s) : Owned before s := by
  have states := running.transferring
  constructor
  · intro fd
    rw [running.opened, running.closed, states, List.map_map]
    change _ = _ + (s.receiveChunksInProgress.map fun entry => entry.2.fd).count fd
    rw [running.transfers]
    simp
  · intro fd
    rw [running.descriptors]
  · intro filename member
    rw [running.files] at member
    rcases List.mem_append.mp member with old | transfer
    · exact .inl old
    · right
      right
      rw [states, List.map_map]
      exact transfer

/-- What is sent, raised or accepted, and timers of other kinds, do not matter. -/
theorem congr {s' : Handler} (running : Running before s)
    (receiving : s'.receiveChunksInProgress = s.receiveChunksInProgress)
    (descriptors : s'.fileDescriptors = s.fileDescriptors) (disk : s'.disk = s.disk)
    (downloads : s'.downloads = s.downloads)
    (timers : ∀ source chunkId, (source, Timer.clean chunkId) ∉ s'.timers.sources) :
    Running before s' := by
  constructor
  · rw [receiving, descriptors]
    exact running.transfers
  · rw [disk, descriptors]
    exact running.opened
  · rw [disk, descriptors]
    exact running.descriptors
  · rw [descriptors]
    exact running.distinct
  · rw [disk]
    exact running.closed
  · rw [receiving]
    exact running.going
  · rw [downloads]
    exact running.downloads
  · exact timers
  · rw [disk, receiving]
    exact running.files
  · rw [disk]
    exact running.paths
  · rw [receiving]
    exact running.ids

theorem write (running : Running before s) (fd : Nat) (data : Bytes) :
    Running before (s.writeDisk (s.disk.write fd data)) := by
  obtain ⟨files, written, same⟩ := s.disk.write_ok fd data running.paths
  rw [written]
  constructor
  · exact running.transfers
  · exact running.opened
  · exact running.descriptors
  · exact running.distinct
  · exact running.closed
  · exact running.going
  · exact running.downloads
  · exact running.unclean
  · exact same.trans running.files
  · intro entry member filename path
    change filename ∈ files.map Prod.fst
    rw [same]
    exact running.paths entry member filename path
  · exact running.ids

/-- A transfer that goes on. -/
theorem setReceiving {chunkId : String} {old state : ReceiveChunkState} (running : Running before s)
    (found : Dict.get s.receiveChunksInProgress chunkId = some old) (fd : state.fd = old.fd)
    (filename : state.filename = old.filename) (going : state.cancelled = old.cancelled) :
    Running before (s.setReceiving chunkId state) := by
  have active := running.going _ (Dict.get_mem found)
  constructor
  · exact (Dict.set_map (fun entry => entry.2.fd) found fd).trans running.transfers
  · exact running.opened
  · exact running.descriptors
  · exact running.distinct
  · exact running.closed
  · intro entry member
    rcases Dict.of_mem_set member with rfl | before
    · exact going.trans active
    · exact running.going entry before
  · exact running.downloads
  · exact running.unclean
  · rw [Handler.setReceiving, Dict.set_map (fun entry => entry.2.filename) found filename]
    exact running.files
  · exact running.paths
  · exact Dict.set_distinct running.ids _ _

theorem setReceiving_get (s : Handler) (chunkId : String) (state : ReceiveChunkState) :
    Dict.get (s.setReceiving chunkId state).receiveChunksInProgress chunkId = some state := by
  rw [Handler.setReceiving, Dict.get_set, if_pos rfl]

theorem send (running : Running before s) (packet : Packet) : Running before (s.send packet) :=
  running.congr rfl rfl rfl rfl running.unclean

theorem raise (running : Running before s) (exn : Exn) : Running before (s.raise exn) :=
  running.congr rfl rfl rfl rfl running.unclean

theorem removeTimer (running : Running before s) (timer : Nat) :
    Running before { s with timers := s.timers.remove timer } := by
  refine running.congr rfl rfl rfl rfl ?_
  intro source chunkId member
  exact running.unclean source chunkId (Sources.mem_remove.mp member).1

theorem cancelTimer (running : Running before s) (timer : Nat) :
    Running before (s.cancelTimer timer) := by
  unfold Handler.cancelTimer
  split
  · exact running.congr rfl rfl rfl rfl running.unclean
  · exact running.removeTimer timer

theorem addTimer (running : Running before s) (chunkId : String) (chunk : Nat) :
    Running before (s.addTimer (.receiving chunkId chunk)) := by
  refine running.congr rfl rfl rfl rfl ?_
  intro source other member
  rcases Sources.mem_add.mp member with old | new
  · exact running.unclean source other old
  · cases new

/-- Two transfers do not share a descriptor. -/
theorem other {chunkId : String} {state : ReceiveChunkState} (running : Running before s)
    (found : Dict.get s.receiveChunksInProgress chunkId = some state) :
    ∀ entry ∈ s.receiveChunksInProgress, entry.1 ≠ chunkId → entry.2.fd ≠ state.fd := by
  intro entry member apart same
  have distinct : (s.receiveChunksInProgress.map fun entry => entry.2.fd).Nodup := by
    rw [running.transfers]
    exact running.distinct
  have one := List.inj_on_of_nodup_map distinct member (Dict.get_mem found) same
  exact apart (congrArg Prod.fst one)

theorem fd_known {chunkId : String} {state : ReceiveChunkState} (running : Running before s)
    (found : Dict.get s.receiveChunksInProgress chunkId = some state) :
    state.fd ∈ s.fileDescriptors := by
  rw [← running.transfers]
  exact List.mem_map_of_mem (Dict.get_mem found)

/-- Whatever takes the transfer from its descriptor loses the descriptor. -/
theorem lost {s' : Handler} {chunkId : String} {state : ReceiveChunkState}
    (running : Running before s)
    (found : Dict.get s.receiveChunksInProgress chunkId = some state)
    (descriptors : s'.fileDescriptors = s.fileDescriptors) (disk : s'.disk = s.disk)
    (gone : ∀ entry ∈ s'.receiveChunksInProgress, entry.2.cancelled = false →
      entry ∈ s.receiveChunksInProgress ∧ entry.1 ≠ chunkId) : Lost s' state.fd := by
  have known := running.fd_known found
  constructor
  · rw [descriptors]
    exact known
  · rw [disk, running.opened]
    exact known
  · intro member
    obtain ⟨transfer, inside, same⟩ := List.mem_map.mp member
    obtain ⟨listed, going⟩ := List.mem_filter.mp inside
    obtain ⟨entry, member, rfl⟩ := List.mem_map.mp listed
    obtain ⟨old, apart⟩ := gone entry member (of_decide_eq_true going)
    exact running.other found entry old apart same
  · left
    rw [disk, running.closed]
    exact List.not_mem_nil

theorem erase_lost {s' : Handler} {chunkId : String} {state : ReceiveChunkState}
    (running : Running before s)
    (found : Dict.get s.receiveChunksInProgress chunkId = some state)
    (descriptors : s'.fileDescriptors = s.fileDescriptors) (disk : s'.disk = s.disk)
    (receiving : s'.receiveChunksInProgress = Dict.erase s.receiveChunksInProgress chunkId) :
    Lost s' state.fd := by
  apply running.lost found descriptors disk
  intro entry member _
  rw [receiving] at member
  exact Dict.mem_erase.mp member

theorem cancelFile_lost {chunkId : String} {state : ReceiveChunkState}
    (running : Running before s)
    (found : Dict.get s.receiveChunksInProgress chunkId = some state) (message : String)
    (chunk : Nat) : Lost (cancelFile s chunkId message chunk) state.fd := by
  have cancelled : Lost
      (s.setReceiving chunkId { state with cancelled := true, timer := 0 }) state.fd := by
    refine running.lost found rfl rfl ?_
    intro entry member going
    rcases (Dict.mem_set running.ids).mp member with rfl | old
    · cases going
    · exact old
  unfold cancelFile
  rw [found]
  dsimp only
  have closed := (cancelled.cancelTimer state.timer).osclose
  exact ((closed.addTimer (.clean chunkId)).unlink state.filename).send _

theorem chunkError_lost {chunkId : String} {state : ReceiveChunkState}
    (running : Running before s)
    (found : Dict.get s.receiveChunksInProgress chunkId = some state) (message : String)
    (chunk : Nat) : Lost (chunkError s chunkId message chunk (some state)) state.fd :=
  (running.cancelFile_lost found message chunk).osclose.unlink state.filename

/-- All the chunks were there: the descriptor stays in `file_descriptors`. -/
theorem completeChunks_lost (o : Outside) {chunkId : String} {state : ReceiveChunkState}
    (running : Running before s)
    (found : Dict.get s.receiveChunksInProgress chunkId = some state) (chunk : Nat) :
    Lost (completeChunks o s chunkId chunk state) state.fd := by
  have erased : Lost
      { s with receiveChunksInProgress := Dict.erase s.receiveChunksInProgress chunkId } state.fd :=
    running.erase_lost found rfl rfl rfl
  have unknown : Dict.get (Dict.erase s.receiveChunksInProgress chunkId) chunkId = none := by
    rw [Dict.get_erase, if_pos rfl]
  unfold completeChunks
  dsimp only
  split
  · exact erased.osclose.chunkError unknown _ _
  · split
    · exact erased.osclose.chunkError unknown _ _
    · exact erased.osclose.processDownloadedFile _

end Running

/-! ### Chunks -/

/-- The property holds after a step, with what keeps it going, exactly under a condition. -/
def Decided (before : List String) (s : Handler) (condition : Prop) : Prop :=
  condition ∧ Running before s ∨ ¬condition ∧ ¬Owned before s

/-- Nothing is lost by a chunk that does not end its transfer. -/
def ChunkContinues (s : Handler) (os : Os) (chunkId : String) (chunk : Nat) (fileData : Bytes)
    (hasMore : Bool) : Prop :=
  ∀ state, Dict.get s.receiveChunksInProgress chunkId = some state →
    u32 ≤ chunk ∨ state.chunk + 1 = chunk ∧ os.room ≠ none ∧
      state.written + fileData.length ≤ state.filesize ∧ hasMore = true

theorem Running.wrote_decided {before : List String} {s : Handler} {chunkId : String}
    {state : ReceiveChunkState} (o : Outside) (running : Running before s)
    (found : Dict.get s.receiveChunksInProgress chunkId = some state) (fileData : Bytes) (chunk : Nat)
    (hasMore : Bool) :
    let state' := state.wrote fileData
    let s' := s.setReceiving chunkId state'
    let acknowledged := s'.send (.ackFileChunk chunkId true "" chunk)
    Decided before
      (if state'.filesize < state'.written then
        chunkError s' chunkId "more data received than specified in the file size!" chunk (some state')
      else if hasMore = true then
        ((acknowledged.cancelTimer state'.timer).addTimer (.receiving chunkId chunk)).setReceiving
          chunkId { state' with timer := (acknowledged.cancelTimer state'.timer).timers.next }
      else completeChunks o acknowledged chunkId chunk state')
      (state.written + fileData.length ≤ state.filesize ∧ hasMore = true) := by
  intro state' s' acknowledged
  have updated : Running before s' := running.setReceiving found rfl rfl rfl
  have present : Dict.get s'.receiveChunksInProgress chunkId = some state' :=
    Running.setReceiving_get s chunkId state'
  split
  next large =>
    right
    constructor
    · intro fits
      exact absurd fits.1 (Nat.not_le_of_lt large)
    · exact (updated.chunkError_lost present _ _).not_owned before
  next fits =>
    have sent := updated.send (.ackFileChunk chunkId true "" chunk)
    split
    next more =>
      left
      constructor
      · exact ⟨Nat.le_of_not_lt fits, more⟩
      · exact ((sent.cancelTimer state'.timer).addTimer chunkId chunk).setReceiving present rfl rfl rfl
    next last =>
      right
      constructor
      · intro fits
        exact last fits.2
      · exact (sent.completeChunks_lost o present chunk).not_owned before

theorem processSendFileChunk_decided {before : List String} {s : Handler} (o : Outside) (os : Os)
    (running : Running before s) (chunkId : String) (chunk : Nat) (fileData : Bytes)
    (hasMore : Bool) :
    Decided before (processSendFileChunk o os s chunkId chunk fileData hasMore)
      (ChunkContinues s os chunkId chunk fileData hasMore) := by
  unfold processSendFileChunk
  split
  next large =>
    left
    exact ⟨fun _ _ => .inl large, running.raise _⟩
  next small =>
    cases found : Dict.get s.receiveChunksInProgress chunkId with
    | none =>
        left
        constructor
        · intro state present
          rw [found] at present
          cases present
        · unfold chunkError
          rw [cancelFile_unknown found]
          exact (running.send _).raise _
    | some state =>
        have going : ¬state.cancelled = true := by
          rw [running.going _ (Dict.get_mem found)]
          exact Bool.false_ne_true
        have stops {fd : Nat} {s' : Handler} (lost : Lost s' fd)
            (ends : ¬(state.chunk + 1 = chunk ∧ os.room ≠ none ∧
              state.written + fileData.length ≤ state.filesize ∧ hasMore = true)) :
            Decided before s' (ChunkContinues s os chunkId chunk fileData hasMore) := by
          right
          constructor
          · intro continues
            rcases continues state found with large | inOrder
            · exact small large
            · exact ends inOrder
          · exact lost.not_owned before
        dsimp only
        rw [if_neg going]
        split
        next other =>
          exact stops (running.chunkError_lost found _ _) fun inOrder => other inOrder.1
        next expected =>
          have numbered : Running before (s.setReceiving chunkId { state with chunk := chunk }) :=
            running.setReceiving found rfl rfl rfl
          have present := Running.setReceiving_get s chunkId { state with chunk := chunk }
          cases room : os.room with
          | none =>
              exact stops (numbered.chunkError_lost present _ _) fun inOrder => inOrder.2.1 room
          | some count =>
              rw [ne_eq, not_not] at expected
              have writable : os.room ≠ none := by
                rw [room]
                exact Option.some_ne_none count
              have written := (numbered.write state.fd (fileData.take count)).wrote_decided o present
                fileData chunk hasMore
              rcases written with ⟨⟨fits, more⟩, running⟩ | ⟨ends, broken⟩
              · left
                constructor
                · intro other here
                  rw [found] at here
                  cases here
                  exact .inr ⟨expected, writable, fits, more⟩
                · exact running
              · right
                constructor
                · intro continues
                  rcases continues state found with large | inOrder
                  · exact small large
                  · exact ends inOrder.2.2
                · exact broken

/-! ### Cancellations and timeouts -/

theorem cancelDownload_decided {before : List String} {s : Handler} (running : Running before s)
    (sendId message : String) :
    Decided before (cancelDownload s sendId message)
      (∀ state ∈ s.transferring, state.sendId ≠ sendId) := by
  rw [running.transferring]
  unfold cancelDownload
  split
  next entry found =>
    have member := List.mem_of_find?_eq_some found
    have same := List.find?_some found
    have present : Dict.get s.receiveChunksInProgress entry.1 = some entry.2 :=
      Dict.mem_get running.ids member
    right
    constructor
    · intro others
      exact others entry.2 (List.mem_map_of_mem member) (of_decide_eq_true same)
    · exact (running.cancelFile_lost present message 0).not_owned before
  next absent =>
    left
    constructor
    · intro state member same
      obtain ⟨entry, inside, rfl⟩ := List.mem_map.mp member
      exact List.find?_eq_none.mp absent entry inside (decide_eq_true same)
    · exact running

/-- Nothing is lost by a timer of a transfer that went on. -/
def TimerContinues (s : Handler) : Timer → Prop
  | .receiving chunkId chunk => ∀ state,
      Dict.get s.receiveChunksInProgress chunkId = some state → state.chunk ≠ chunk
  | .sending _ _ | .clean _ => True

theorem checkChunkReceiving_decided {before : List String} {s : Handler}
    (running : Running before s) (source : Nat) (chunkId : String) (chunk : Nat) :
    Decided before (checkChunkReceiving s source chunkId chunk)
      (TimerContinues s (.receiving chunkId chunk)) := by
  have fired := running.removeTimer source
  unfold checkChunkReceiving
  dsimp only
  cases found : Dict.get s.receiveChunksInProgress chunkId with
  | none =>
      left
      constructor
      · intro state present
        rw [found] at present
        cases present
      · exact fired
  | some state =>
      have going : ¬state.cancelled = true := by
        rw [running.going _ (Dict.get_mem found)]
        exact Bool.false_ne_true
      dsimp only
      rw [if_neg going]
      split
      next stalled =>
        right
        constructor
        · intro continues
          exact continues state found stalled
        · have lost : Lost { s with
              timers := s.timers.remove source
              receiveChunksInProgress := Dict.erase s.receiveChunksInProgress chunkId } state.fd :=
            fired.erase_lost found rfl rfl rfl
          exact lost.not_owned before
      next moved =>
        left
        constructor
        · intro other present
          rw [found] at present
          cases present
          exact moved
        · exact fired.setReceiving found rfl rfl rfl

theorem cancelSending_running {before : List String} {s : Handler} (running : Running before s)
    (chunkId : String) : Running before (cancelSending s chunkId) := by
  unfold cancelSending
  split
  · exact running
  · apply Running.cancelTimer
    exact running.congr rfl rfl rfl rfl running.unclean

theorem fire_decided {before : List String} {s : Handler} (running : Running before s)
    (source : Nat) (timer : Timer) (armed : (source, timer) ∈ s.timers.sources) :
    Decided before (fire s source timer) (TimerContinues s timer) := by
  cases timer with
  | receiving chunkId chunk => exact checkChunkReceiving_decided running source chunkId chunk
  | sending chunkId chunk =>
      left
      refine ⟨trivial, ?_⟩
      have fired := running.removeTimer source
      unfold fire checkChunkSending
      dsimp only
      split
      · exact fired
      · next state _ =>
          have idle : Running before (Handler.setSending { s with
              timers := s.timers.remove source } chunkId { state with timer := 0 }) :=
            fired.congr rfl rfl rfl rfl fired.unclean
          split
          · exact cancelSending_running idle chunkId
          · exact idle
  | clean chunkId => exact absurd armed (running.unclean source chunkId)

/-! ### Announcements -/

/-- A file that stays although there is no transfer for it. -/
structure Left (before : List String) (s : Handler) (filename : String) : Prop where
  there : filename ∈ s.disk.files.map Prod.fst
  new : filename ∉ before
  downloads : s.downloads = []
  others : ∀ entry ∈ s.receiveChunksInProgress, entry.2.filename ≠ filename

namespace Left

variable {before : List String} {s : Handler} {filename : String}

theorem not_owned (left : Left before s filename) : ¬Owned before s := by
  intro owned
  rcases owned.complete filename left.there with old | download | transfer
  · exact left.new old
  · rw [left.downloads] at download
    exact absurd download List.not_mem_nil
  · obtain ⟨state, member, same⟩ := List.mem_map.mp transfer
    obtain ⟨entry, inside, rfl⟩ := List.mem_map.mp (List.mem_filter.mp member).1
    exact left.others entry inside same

theorem osclose (left : Left before s filename) (fd : Nat) :
    Left before (s.writeDisk (s.disk.osclose fd)) filename := by
  obtain ⟨files, _⟩ := s.disk.osclose_ok fd
  constructor
  · change filename ∈ (s.disk.osclose fd).files.map Prod.fst
    rw [files]
    exact left.there
  · exact left.new
  · exact left.downloads
  · exact left.others

theorem unlink {other : String} (left : Left before s filename) (apart : other ≠ filename) :
    Left before (s.writeDisk (s.disk.unlink other)) filename := by
  constructor
  · obtain ⟨entry, member, same⟩ := List.mem_map.mp left.there
    apply List.mem_map.mpr
    refine ⟨entry, Dict.mem_erase.mpr ⟨member, ?_⟩, same⟩
    intro here
    exact apart (here.symm.trans same)
  · exact left.new
  · exact left.downloads
  · exact left.others

theorem setReceiving {state : ReceiveChunkState} (left : Left before s filename) (chunkId : String)
    (apart : state.filename ≠ filename) : Left before (s.setReceiving chunkId state) filename := by
  constructor
  · exact left.there
  · exact left.new
  · exact left.downloads
  · intro entry member
    rcases Dict.of_mem_set member with rfl | old
    · exact apart
    · exact left.others entry old

theorem send (left : Left before s filename) (packet : Packet) :
    Left before (s.send packet) filename :=
  ⟨left.there, left.new, left.downloads, left.others⟩

theorem cancelTimer (left : Left before s filename) (timer : Nat) :
    Left before (s.cancelTimer timer) filename :=
  ⟨left.there, left.new, left.downloads, left.others⟩

theorem addTimer (left : Left before s filename) (timer : Timer) :
    Left before (s.addTimer timer) filename :=
  ⟨left.there, left.new, left.downloads, left.others⟩

/-- To cancel another transfer does not remove it. -/
theorem cancelFile (left : Left before s filename) (chunkId message : String) (chunk : Nat) :
    Left before (cancelFile s chunkId message chunk) filename := by
  unfold FileTransfer.cancelFile
  split
  · exact left.send _
  · next state found =>
      have apart : state.filename ≠ filename := left.others _ (Dict.get_mem found)
      have cancelled : Left before
          (s.setReceiving chunkId { state with cancelled := true, timer := 0 }) filename :=
        left.setReceiving chunkId apart
      have closed := (cancelled.cancelTimer state.timer).osclose state.fd
      exact ((closed.addTimer (.clean chunkId)).unlink apart).send _

theorem fileError (left : Left before s filename) (chunkId message : String) (fd : Nat) :
    Left before (fileError s chunkId message fd) filename := by
  have cancelled : Left before
      (if chunkId = "" then s else FileTransfer.cancelFile s chunkId message 0) filename := by
    split
    · exact left
    · exact left.cancelFile chunkId message 0
  unfold FileTransfer.fileError
  dsimp only
  split
  · exact cancelled
  · have closed := cancelled.osclose fd
    exact ⟨closed.there, closed.new, closed.downloads, closed.others⟩

end Left

/-- `safe_open_download_file` has returned. -/
def created (s : Handler) (filename : String) (fd : Nat) : Handler :=
  { s.writeDisk (s.disk.create filename fd) with
    fileDescriptors := if fd ∈ s.fileDescriptors then s.fileDescriptors
      else s.fileDescriptors ++ [fd] }

section Created

variable {before : List String} {s : Handler} {filename : String} {fd : Nat}

theorem created_descriptors (running : Running before s)
    (unused : fd ∉ s.disk.descriptors.map Prod.fst) (filename : String) :
    (created s filename fd).fileDescriptors = s.fileDescriptors ++ [fd] ∧
      (created s filename fd).disk.descriptors.map Prod.fst = s.fileDescriptors ++ [fd] ∧
      (created s filename fd).disk.opened = s.fileDescriptors ++ [fd] := by
  have fresh : fd ∉ s.fileDescriptors := by
    rw [← running.descriptors]
    exact unused
  refine ⟨if_neg fresh, ?_, ?_⟩
  · change (Dict.set s.disk.descriptors fd (some filename)).map Prod.fst = _
    rw [Dict.set_keys, if_neg unused, running.descriptors]
  · change s.disk.opened ++ [fd] = _
    rw [running.opened]

theorem created_files (running : Running before s)
    (new : filename ∉ s.disk.files.map Prod.fst) (fd : Nat) :
    (created s filename fd).disk.files.map Prod.fst =
      before ++ s.receiveChunksInProgress.map (fun entry => entry.2.filename) ++ [filename] := by
  change (Dict.set s.disk.files filename []).map Prod.fst = _
  rw [Dict.set_keys, if_neg new, running.files]

theorem created_left (running : Running before s) (new : filename ∉ s.disk.files.map Prod.fst)
    (fd : Nat) :
    Left before (created s filename fd) filename := by
  constructor
  · rw [created_files running new fd]
    exact List.mem_append_right _ (List.mem_singleton.mpr rfl)
  · intro old
    rw [running.files] at new
    exact new (List.mem_append_left _ old)
  · exact running.downloads
  · intro entry member same
    rw [running.files] at new
    apply new
    apply List.mem_append_right
    exact List.mem_map.mpr ⟨entry, member, same⟩

/-- Without a state for its transfer, the new descriptor is lost as soon as it is opened. -/
theorem created_lost (running : Running before s) (unused : fd ∉ s.disk.descriptors.map Prod.fst)
    (filename : String) :
    Lost (created s filename fd) fd := by
  obtain ⟨known, _, opened⟩ := created_descriptors running unused filename
  have last : fd ∈ s.fileDescriptors ++ [fd] :=
    List.mem_append_right _ (List.mem_singleton.mpr rfl)
  constructor
  · rw [known]
    exact last
  · rw [opened]
    exact last
  · intro member
    have transfers : fd ∈ s.transferring.map ReceiveChunkState.fd := member
    rw [running.transferring, List.map_map] at transfers
    rw [running.descriptors, ← running.transfers] at unused
    exact unused transfers
  · left
    change fd ∉ s.disk.closed
    rw [running.closed]
    exact List.not_mem_nil

/-- A new transfer. -/
theorem created_running (running : Running before s) (unused : fd ∉ s.disk.descriptors.map Prod.fst)
    (new : filename ∉ s.disk.files.map Prod.fst) {chunkId : String} {state : ReceiveChunkState}
    (unknown : Dict.get s.receiveChunksInProgress chunkId = none) (own : state.fd = fd)
    (name : state.filename = filename) (going : state.cancelled = false) :
    Running before ((created s filename fd).setReceiving chunkId state) := by
  obtain ⟨known, descriptors, opened⟩ := created_descriptors running unused filename
  have files := created_files running new fd
  have added : Dict.set s.receiveChunksInProgress chunkId state =
      s.receiveChunksInProgress ++ [(chunkId, state)] := Dict.set_new (Dict.get_none unknown) state
  constructor
  · change (Dict.set s.receiveChunksInProgress chunkId state).map _ = _
    rw [added, List.map_append, running.transfers]
    exact (congrArg (s.fileDescriptors ++ [·]) own).trans known.symm
  · exact opened.trans known.symm
  · exact descriptors.trans known.symm
  · change (created s filename fd).fileDescriptors.Nodup
    rw [known, List.nodup_append]
    refine ⟨running.distinct, List.nodup_singleton _, ?_⟩
    intro one old two here same
    rw [List.mem_singleton] at here
    rw [running.descriptors] at unused
    exact unused (here ▸ same ▸ old)
  · exact running.closed
  · intro entry member
    rcases Dict.of_mem_set member with rfl | old
    · exact going
    · exact running.going entry old
  · exact running.downloads
  · exact running.unclean
  · change _ = before ++ (Dict.set s.receiveChunksInProgress chunkId state).map _
    rw [added, List.map_append, ← List.append_assoc]
    exact files.trans (congrArg (_ ++ [·]) name.symm)
  · intro entry member path same
    change path ∈ (created s filename fd).disk.files.map Prod.fst
    rw [files, ← running.files]
    rcases Dict.of_mem_set member with rfl | old
    · cases same
      exact List.mem_append_right _ (List.mem_singleton.mpr rfl)
    · exact List.mem_append_left _ (running.paths entry old path same)
  · exact Dict.set_distinct running.ids _ _

/-- The state of the old transfer with this id is replaced. -/
theorem created_replaces (running : Running before s)
    (unused : fd ∉ s.disk.descriptors.map Prod.fst) {chunkId : String}
    {old state : ReceiveChunkState}
    (present : Dict.get s.receiveChunksInProgress chunkId = some old) (own : state.fd = fd) :
    Lost ((created s filename fd).setReceiving chunkId state) old.fd := by
  obtain ⟨known, _, opened⟩ := created_descriptors running unused filename
  have first : old.fd ∈ s.fileDescriptors ++ [fd] :=
    List.mem_append_left _ (running.fd_known present)
  constructor
  · change old.fd ∈ (created s filename fd).fileDescriptors
    rw [known]
    exact first
  · change old.fd ∈ (created s filename fd).disk.opened
    rw [opened]
    exact first
  · intro member
    obtain ⟨transfer, inside, same⟩ := List.mem_map.mp member
    obtain ⟨entry, listed, rfl⟩ := List.mem_map.mp (List.mem_filter.mp inside).1
    rcases (Dict.mem_set running.ids).mp listed with rfl | ⟨there, apart⟩
    · apply unused
      rw [running.descriptors, ← own, same]
      exact running.fd_known present
    · exact running.other present entry there apart same
  · left
    change old.fd ∉ s.disk.closed
    rw [running.closed]
    exact List.not_mem_nil

/-- A new transfer in chunks goes on. All others are over, or another one is. -/
theorem receiveFile_decided (o : Outside) (os : Os) (running : Running before s)
    (unused : fd ∉ s.disk.descriptors.map Prod.fst) (new : filename ∉ s.disk.files.map Prod.fst)
    (mimetype : String) (printit openit : Bool) (filesize : Nat) (fileData : Bytes)
    (options : Options) (sendId : String) :
    Decided before (receiveFile o os (created s filename fd) filename mimetype printit openit filesize
        fileData options sendId fd)
      (strget o options "file-chunk-id" ≠ "" ∧
        Dict.get s.receiveChunksInProgress (strget o options "file-chunk-id") = none ∧
        s.receiveChunksInProgress.length < maxConcurrentFiles) := by
  have left := created_left running new fd
  have lost := created_lost running unused filename
  unfold receiveFile
  generalize strget o options "file-chunk-id" = chunkId
  dsimp only
  split
  next chunked =>
    split
    next full =>
      right
      constructor
      · intro fresh
        exact absurd fresh.2.2 (Nat.not_lt_of_le full)
      · exact (left.fileError _ _ _).not_owned
    next room =>
      cases present : Dict.get s.receiveChunksInProgress chunkId with
      | none =>
          left
          constructor
          · exact ⟨chunked, rfl, Nat.lt_of_not_le room⟩
          · apply Running.send
            have begun : Running before ((created s filename fd).setReceiving chunkId
                ⟨fd, filename, mimetype, printit, openit, filesize, options,
                  optionsDigest o options, 0, false, sendId, s.timers.next, 0⟩) :=
              created_running running unused new present rfl rfl rfl
            have timed := begun.addTimer chunkId 0
            exact timed.congr rfl rfl rfl rfl timed.unclean
      | some old =>
          right
          constructor
          · intro fresh
            cases fresh.2.1
          · have replaced : Lost ((created s filename fd).setReceiving chunkId
                ⟨fd, filename, mimetype, printit, openit, filesize, options,
                  optionsDigest o options, 0, false, sendId, s.timers.next, 0⟩) old.fd :=
              created_replaces running unused present rfl
            exact ((replaced.addTimer (.receiving chunkId 0)).send _).not_owned before
  next whole =>
    have ends {s' : Handler} (broken : ¬Owned before s') : Decided before s'
        (chunkId ≠ "" ∧ Dict.get s.receiveChunksInProgress chunkId = none ∧
          s.receiveChunksInProgress.length < maxConcurrentFiles) := by
      right
      constructor
      · intro fresh
        exact whole fresh.1
      · exact broken
    split
    · exact ends (left.fileError _ _ _).not_owned
    · split
      · exact ends (left.fileError _ _ _).not_owned
      · split
        · exact ends (left.fileError _ _ _).not_owned
        · split
          · exact ends ((left.fileError _ _ _).osclose fd).not_owned
          · next room _ =>
              apply ends
              exact ((lost.write fd (fileData.take room)).osclose.processDownloadedFile _).not_owned
                before

end Created

/-- The descriptor that is opened for an announcement that is accepted. -/
def opens (os : Os) (s : Handler) (printit openit : Bool) (filesize : Nat) (sendId : String) :
    Option Nat :=
  let accepted := acceptData s sendId printit openit
  if 0 < filesize ∧ filesize < u64 ∧ filesize ≤ s.fileSizeLimit ∧ accepted.2.1 = true ∧
      (if accepted.2.2.1 = true then s.printing else s.fileTransfer) = true then os.opened
  else none

theorem acceptData_first (s : Handler) (sendId : String) (printit openit : Bool) :
    ∃ filesAccepted, (acceptData s sendId printit openit).1 =
      { s with filesAccepted := filesAccepted } := by
  unfold acceptData
  split
  · exact ⟨_, rfl⟩
  · split
    · exact ⟨s.filesAccepted, rfl⟩
    · exact ⟨s.filesAccepted, rfl⟩

/-- Nothing is lost by an announcement that is refused, or of a new transfer in chunks. -/
def FileContinues (o : Outside) (os : Os) (s : Handler) (printit openit : Bool) (filesize : Nat)
    (options : Options) (sendId : String) : Prop :=
  opens os s printit openit filesize sendId ≠ none →
    strget o options "file-chunk-id" ≠ "" ∧
      Dict.get s.receiveChunksInProgress (strget o options "file-chunk-id") = none ∧
      s.receiveChunksInProgress.length < maxConcurrentFiles

theorem processSendFile_decided {before : List String} {s : Handler} (o : Outside) (os : Os)
    (running : Running before s)
    (unused : ∀ fd, os.opened = some fd → fd ∉ s.disk.descriptors.map Prod.fst)
    (basefilename mimetype : String) (printit openit : Bool) (filesize : Nat) (fileData : Bytes)
    (options : Options) (sendId : String) :
    Decided before (processSendFile o os s basefilename mimetype printit openit filesize fileData
        options sendId)
      (FileContinues o os s printit openit filesize options sendId) := by
  obtain ⟨filesAccepted, accepted⟩ := acceptData_first s sendId printit openit
  have accepting : Running before { s with filesAccepted := filesAccepted } :=
    running.congr rfl rfl rfl rfl running.unclean
  have refused {s' : Handler} (shut : opens os s printit openit filesize sendId = none)
      (running : Running before s') :
      Decided before s' (FileContinues o os s printit openit filesize options sendId) :=
    .inl ⟨fun created => absurd shut created, running⟩
  unfold processSendFile
  dsimp only
  split
  next large =>
    apply refused _ (running.raise _)
    exact if_neg fun valid => absurd valid.2.1 (Nat.not_lt_of_le large)
  next readable =>
    split
    next empty =>
      apply refused _ (running.raise _)
      exact if_neg fun valid => absurd empty (Nat.ne_of_gt valid.1)
    next filled =>
      split
      next large =>
        apply refused _ (running.raise _)
        exact if_neg fun valid => absurd valid.2.2.1 (Nat.not_le_of_lt large)
      next small =>
        rw [accepted]
        split
        next rejected =>
          apply refused _ (accepting.raise _)
          apply if_neg
          rintro ⟨_, _, _, acceptit, _⟩
          rw [rejected] at acceptit
          cases acceptit
        next acceptit =>
          by_cases enabled : (if (acceptData s sendId printit openit).2.2.1 = true then s.printing
              else s.fileTransfer) = true
          · have allowed : opens os s printit openit filesize sendId = os.opened := by
              apply if_pos
              exact ⟨Nat.pos_of_ne_zero filled, Nat.lt_of_not_le readable, Nat.le_of_not_lt small,
                Bool.eq_true_of_not_eq_false acceptit, enabled⟩
            rw [if_neg (by rw [enabled]; exact Bool.noConfusion)]
            cases opened : os.opened with
            | none =>
                dsimp only
                split
                · exact refused (allowed.trans opened) accepting
                · exact refused (allowed.trans opened) (accepting.raise _)
            | some fd =>
                have received := receiveFile_decided o os accepting (unused fd opened)
                  (freeName_new (s.disk.files.map Prod.fst)
                    (withExtension (o.downloadPath (basename basefilename)) mimetype)) mimetype
                  (acceptData s sendId printit openit).2.2.1
                  (acceptData s sendId printit openit).2.2.2 filesize fileData options sendId
                rcases received with ⟨condition, running⟩ | ⟨condition, broken⟩
                · exact .inl ⟨fun _ => condition, running⟩
                · refine .inr ⟨fun continues => condition (continues ?_), broken⟩
                  rw [allowed, opened]
                  exact Option.some_ne_none fd
          · rw [if_pos (Bool.eq_false_of_not_eq_true enabled)]
            apply refused _ (accepting.raise _)
            apply if_neg
            rintro ⟨_, _, _, _, allowed⟩
            exact enabled allowed

/-! ### Runs -/

/-- What happens to a receiver. -/
inductive Receive
  | sendFile (os : Os) (basefilename mimetype : String) (printit openit : Bool) (filesize : Nat)
      (fileData : Bytes) (options : Options) (sendId : String)
  | sendFileChunk (os : Os) (chunkId : String) (chunk : Nat) (fileData : Bytes) (hasMore : Bool)
  | cancelDownload (sendId message : String)
  | fire (source : Nat) (timer : Timer)

inductive Receives (o : Outside) : Handler → Receive → Handler → Prop
  /-- a descriptor that is open is not opened again -/
  | sendFile {s : Handler} (os : Os) (basefilename mimetype : String) (printit openit : Bool)
      (filesize : Nat) (fileData : Bytes) (options : Options) (sendId : String)
      (unused : ∀ fd, os.opened = some fd → fd ∉ s.disk.descriptors.map Prod.fst) :
      Receives o s
        (.sendFile os basefilename mimetype printit openit filesize fileData options sendId)
        (processSendFile o os s basefilename mimetype printit openit filesize fileData options sendId)
  | sendFileChunk {s : Handler} (os : Os) (chunkId : String) (chunk : Nat) (fileData : Bytes)
      (hasMore : Bool) :
      Receives o s (.sendFileChunk os chunkId chunk fileData hasMore)
        (processSendFileChunk o os s chunkId chunk fileData hasMore)
  | cancelDownload {s : Handler} (sendId message : String) :
      Receives o s (.cancelDownload sendId message) (cancelDownload s sendId message)
  | fire {s : Handler} (source : Nat) (timer : Timer) (armed : (source, timer) ∈ s.timers.sources) :
      Receives o s (.fire source timer) (fire s source timer)

/-- No transfer whose file was created comes to its end. -/
def Continues (o : Outside) (s : Handler) : Receive → Prop
  | .sendFile os _ _ printit openit filesize _ options sendId =>
      FileContinues o os s printit openit filesize options sendId
  | .sendFileChunk os chunkId chunk fileData hasMore =>
      ChunkContinues s os chunkId chunk fileData hasMore
  | .cancelDownload sendId _ => ∀ state ∈ s.transferring, state.sendId ≠ sendId
  | .fire _ timer => TimerContinues s timer

/-- A receiver without downloads. -/
structure Starts (before : List String) (s : Handler) : Prop where
  receiving : s.receiveChunksInProgress = []
  fileDescriptors : s.fileDescriptors = []
  downloads : s.downloads = []
  timers : s.timers = .start
  descriptors : s.disk.descriptors = [] ∧ s.disk.opened = [] ∧ s.disk.closed = []
  files : s.disk.files.map Prod.fst = before

theorem Starts.running {before : List String} {s : Handler} (first : Starts before s) :
    Running before s := by
  obtain ⟨receiving, fileDescriptors, downloads, timers, ⟨descriptors, opened, closed⟩, files⟩ := first
  constructor
  · rw [receiving, fileDescriptors]
    rfl
  · rw [opened, fileDescriptors]
  · rw [descriptors, fileDescriptors]
    rfl
  · rw [fileDescriptors]
    exact List.nodup_nil
  · exact closed
  · rw [receiving]
    simp
  · exact downloads
  · intro source chunkId
    rw [timers]
    exact List.not_mem_nil
  · rw [receiving, files]
    simp
  · rw [descriptors]
    simp
  · rw [receiving]
    exact List.nodup_nil

theorem receives_decided {o : Outside} {before : List String} {s s' : Handler} {a : Receive}
    (running : Running before s) (taken : Receives o s a s') :
    Decided before s' (Continues o s a) := by
  cases taken with
  | sendFile os basefilename mimetype printit openit filesize fileData options sendId unused =>
      exact processSendFile_decided o os running unused basefilename mimetype printit openit filesize
        fileData options sendId
  | sendFileChunk os chunkId chunk fileData hasMore =>
      exact processSendFileChunk_decided o os running chunkId chunk fileData hasMore
  | cancelDownload sendId message => exact cancelDownload_decided running sendId message
  | fire source timer armed => exact fire_decided running source timer armed

/-- The steps that keep the descriptors with their transfers. -/
def ContinuingStep (o : Outside) (s : Handler) (a : Receive) (s' : Handler) : Prop :=
  Receives o s a s' ∧ Continues o s a

theorem reachable_running {o : Outside} {before : List String} {s : Handler}
    (reachable : Reachable (Starts before) (ContinuingStep o) s) : Running before s := by
  apply reachable.invariant
  · intro s first
    exact first.running
  · rintro s a s' running ⟨taken, continues⟩
    rcases receives_decided running taken with ⟨_, goes⟩ | ⟨ends, _⟩
    · exact goes
    · exact absurd continues ends

/-- Descriptors and files are right until a transfer ends, and wrong as soon as one does. -/
theorem descriptors_owned (o : Outside) (before : List String) (s : Handler)
    (reachable : Reachable (Starts before) (ContinuingStep o) s) :
    Owned before s ∧ ∀ a s', Receives o s a s' → (Owned before s' ↔ Continues o s a) := by
  have running := reachable_running reachable
  refine ⟨running.owned, ?_⟩
  intro a s' taken
  rcases receives_decided running taken with ⟨continues, goes⟩ | ⟨ends, broken⟩
  · exact ⟨fun _ => continues, fun _ => goes.owned⟩
  · exact ⟨fun owned => absurd owned broken, fun continues => absurd continues ends⟩

/-- A receiver that accepts files. -/
def acceptingReceiver : Handler where
  fileTransfer := true
  fileTransferAsk := false
  printing := false
  printingAsk := false
  openFiles := false
  openFilesAsk := false
  fileSizeLimit := 1000
  fileChunks := 0
  remoteFileSizeLimit := 0
  remoteFileChunks := 0

/-- The files are what they are called, and there are no digests. -/
def namedOutside : Outside where
  downloadPath name := name
  hexdigest _ _ := ""
  str _ := ""

theorem acceptingReceiver_starts : Starts [] acceptingReceiver :=
  ⟨rfl, rfl, rfl, rfl, ⟨rfl, rfl, rfl⟩, rfl⟩

/-- A file of one byte, whole or in chunks. -/
def receiveByte (chunkId : String) (fileData : Bytes) : Handler :=
  processSendFile namedOutside ⟨some 7, some 1⟩ acceptingReceiver "letter" "text/plain" false false 1
    fileData [("file-chunk-id", .str chunkId)] ""

theorem receives_byte (chunkId : String) (fileData : Bytes) :
    Receives namedOutside acceptingReceiver
      (.sendFile ⟨some 7, some 1⟩ "letter" "text/plain" false false 1 fileData
        [("file-chunk-id", .str chunkId)] "") (receiveByte chunkId fileData) :=
  .sendFile ⟨some 7, some 1⟩ _ _ _ _ _ _ _ _ fun _ _ => List.not_mem_nil

theorem descriptors_owned_chunked : Owned [] (receiveByte "transfer" []) := by
  apply (descriptors_owned namedOutside [] (receiveByte "transfer" []) _).1
  have start : Reachable (Starts []) (ContinuingStep namedOutside) acceptingReceiver :=
    .start acceptingReceiver_starts
  exact start.next ⟨receives_byte "transfer" [], fun _ => by decide⟩

/-- The descriptor of a file that is complete is closed, and stays in `file_descriptors`. -/
theorem not_descriptors_owned : ¬∀ (o : Outside) (before : List String) (s : Handler),
    Reachable (Starts before) (fun s a s' => Receives o s a s') s → Owned before s := by
  intro all
  have start : Reachable (Starts []) (fun s a s' => Receives namedOutside s a s')
      acceptingReceiver := .start acceptingReceiver_starts
  have owned := all _ _ _ (start.next (receives_byte "" [1]))
  have known : 7 ∈ (receiveByte "" [1]).fileDescriptors := by decide
  have shut : (receiveByte "" [1]).disk.descriptors.map Prod.fst = [] := by decide
  have listed := (owned.known 7).mp known
  rw [shut] at listed
  exact absurd listed List.not_mem_nil

end Catlink.FileTransfer
