import Catlink.Net.TransferRequests

/-! Which files a peer may create, and which ones it may have printed. -/

namespace Catlink.FileTransfer

open MainLoop Runs

/-! ### What the peer asks for -/

/-- `cb_answer` -/
def answerRequest (s : Requests) (sendId : String) (accept : Bool) : Requests :=
  s.send (.sendDataResponse sendId accept)

/-- `ask_data_request`, which subclasses override with a prompt -/
def askDataRequest (s : Requests) (sendId : String) (printit openit : Bool) : Requests :=
  let accepted := acceptData s.handler sendId printit openit
  answerRequest { s with handler := accepted.1 } sendId accepted.2.1

/-- Once it is not one of our own requests. -/
def checkDataRequest (s : Requests) (dtype sendId : String) (printit openit : Bool) : Requests :=
  if dtype = "file" then
    if s.handler.fileTransfer = false then answerRequest s sendId false
    else
      let ask :=
        if printit = true then s.handler.printingAsk
        else if openit = true then s.handler.fileTransferAsk || s.handler.openFilesAsk
        else s.handler.fileTransferAsk
      if ask = true then askDataRequest s sendId printit openit else answerRequest s sendId false
  else if dtype = "url" then
    if s.openUrl = false then answerRequest s sendId false
    else if s.openUrlAsk = true then askDataRequest s sendId printit openit
    else answerRequest s sendId false
  else answerRequest s sendId false

/-- A request of ours is accepted without a prompt. -/
def processSendDataRequest (s : Requests) (dtype sendId : String) (filesize : Nat)
    (printit openit : Bool) (options : Options) : Requests :=
  if u64 ≤ filesize then s.raise (.valueError ("invalid u64 value " ++ toString filesize))
  else
    match tupleget options "request-file" with
    | argf :: _ :: _ =>
        match argf with
        | .list _ | .dict _ => s.raise (.typeError "unhashable type")
        | .str request =>
            match Dict.get s.filesRequested request with
            | some openit =>
                let s := { s with
                  filesRequested := Dict.erase s.filesRequested request
                  handler := { s.handler with
                    filesAccepted := Dict.set s.handler.filesAccepted sendId openit } }
                answerRequest s sendId true
            | none => checkDataRequest s dtype sendId printit false
        | _ => checkDataRequest s dtype sendId printit false
    | _ => checkDataRequest s dtype sendId printit openit

def processOpenUrl (s : Requests) (url sendId : String) : Requests :=
  if s.openUrl = false then s
  else if s.openUrlAsk = true then
    let accepted := acceptData s.handler sendId false true
    let s := { s with handler := accepted.1 }
    if accepted.2.1 = true then s.opens (.url url) else s
  else s.opens (.url url)

def sendRequestFile (s : Requests) (filename : String) (openit : Bool) : Requests :=
  { s.send (.requestFile filename openit) with
    filesRequested := Dict.set s.filesRequested filename openit }

/-! ### Runs -/

/-- A file that a `send-file` packet created. -/
structure Creation where
  sendId : String
  /-- the flag of the packet -/
  printit : Bool
  /-- the `send_id` was one of `files_accepted` -/
  accepted : Bool

structure Transfers where
  requests : Requests
  created : List Creation := []

inductive PeerAction
  | packet (os : Os) (p : Packet)
  | sendDataRequest (dtype sendId : String) (filesize : Nat) (printit openit : Bool) (options : Options)
  | sendDataResponse (chunkId sendId : String) (answer : Int)
  | openUrl (url sendId : String)
  /-- `send_request_file` -/
  | requestFile (filename : String) (openit : Bool)
  /-- the user accepts a request -/
  | approve (sendId : String) (openit : Bool)
  /-- the user cancels a download -/
  | cancel (sendId message : String)
  | sendFile (chunkId filename mimetype : String) (data : Bytes) (filesize : Nat)
      (printit openit : Bool) (options : Options) (sendId : String)
  | askPeer (sendId : String) (spd : SendPendingData)
  | fire (timer : Nat) (callback : Timer)
  | askTimeout (timer : Nat) (sendId : String)

/-- There is a file with a new name. -/
def Disk.gains (disk disk' : Disk) : Bool :=
  disk'.files.any fun entry => disk.files.all fun old => old.1 ≠ entry.1

namespace Transfers

variable (o : Outside) (s : Transfers)

def withHandler (handler : Handler) : Transfers := { s with requests := { s.requests with handler := handler } }

/-- The files that a packet creates. -/
def creations (handler : Handler) : Packet → List Creation
  | .sendFile _ _ printit _ _ _ _ sendId =>
      if s.requests.handler.disk.gains handler.disk = true then
        [⟨sendId, printit, (Dict.get s.requests.handler.filesAccepted sendId).isSome⟩]
      else []
  | _ => []

def act : PeerAction → Transfers
  | .packet os p =>
      let handler := process o os s.requests.handler p
      { s.withHandler handler with created := s.created ++ s.creations handler p }
  | .sendDataRequest dtype sendId filesize printit openit options =>
      { s with requests := processSendDataRequest s.requests dtype sendId filesize printit openit options }
  | .sendDataResponse chunkId sendId answer =>
      { s with requests := processSendDataResponse o s.requests chunkId sendId answer }
  | .openUrl url sendId => { s with requests := processOpenUrl s.requests url sendId }
  | .requestFile filename openit => { s with requests := sendRequestFile s.requests filename openit }
  | .approve sendId openit =>
      s.withHandler { s.requests.handler with
        filesAccepted := Dict.set s.requests.handler.filesAccepted sendId openit }
  | .cancel sendId message => s.withHandler (cancelDownload s.requests.handler sendId message)
  | .sendFile chunkId filename mimetype data filesize printit openit options sendId =>
      s.withHandler (doSendFile o s.requests.handler chunkId filename mimetype data filesize printit
        openit options sendId)
  | .askPeer sendId spd =>
      { s with requests := (FileTransfer.sendDataRequest s.requests sendId spd).1 }
  | .fire timer callback => s.withHandler (FileTransfer.fire s.requests.handler timer callback)
  | .askTimeout timer sendId => { s with requests := FileTransfer.askTimeout s.requests timer sendId }

/-- Timers are armed when they fire. -/
def Possible : PeerAction → Prop
  | .fire timer callback => (timer, callback) ∈ s.requests.handler.timers.sources
  | .askTimeout timer sendId => (timer, sendId) ∈ s.requests.askTimers.sources
  | _ => True

def step (s : Transfers) (a : PeerAction) (s' : Transfers) : Prop := s.Possible a ∧ s' = s.act o a

def initial (s : Transfers) : Prop :=
  s.requests.handler.receiveChunksInProgress = [] ∧ s.requests.handler.downloads = [] ∧ s.created = []

end Transfers

/-- What the settings say about files and printing. -/
structure Settings where
  fileTransfer : Bool
  fileTransferAsk : Bool
  printing : Bool
  printingAsk : Bool

def Handler.settings (s : Handler) : Settings :=
  ⟨s.fileTransfer, s.fileTransferAsk, s.printing, s.printingAsk⟩

namespace Settings

/-- Files are not to be received without a prompt. -/
def FilesAsk (f : Settings) : Prop := f.fileTransferAsk = true ∨ f.fileTransfer = false

/-- Nothing is to be printed without a prompt. -/
def PrintingAsk (f : Settings) : Prop := f.printing = false ∨ f.printingAsk = true

end Settings

/-- Nobody's consent is bypassed. -/
structure Consented (s : Transfers) : Prop where
  files : s.requests.handler.settings.FilesAsk → ∀ c ∈ s.created, c.accepted = true ∨
    (c.printit = true ∧ ¬ s.requests.handler.settings.PrintingAsk)
  printing : s.requests.handler.settings.PrintingAsk →
    (∀ c ∈ s.created, c.printit = true → c.accepted = true) ∧
      ∀ download ∈ s.requests.handler.downloads, download.printit = false

/-- A print job that nobody accepted is taken for a file: `accept_data` only drops its flag. -/
def Downgraded (s : Transfers) : PeerAction → Prop
  | .packet os (.sendFile _ _ printit _ filesize _ _ sendId) =>
      printit = true ∧ s.requests.handler.settings.PrintingAsk ∧
        Dict.get s.requests.handler.filesAccepted sendId = none ∧
        s.requests.handler.fileTransfer = true ∧ filesize ≠ 0 ∧
        filesize ≤ s.requests.handler.fileSizeLimit ∧ filesize < u64 ∧ os.opened.isSome = true
  | _ => False

/-! ### Nothing is printed -/

/-- Nothing that is to be printed is received, nor has been. -/
structure Unprinted (s : Handler) : Prop where
  receiving : ∀ entry ∈ s.receiveChunksInProgress, entry.2.printit = false
  downloads : ∀ download ∈ s.downloads, download.printit = false

variable {o : Outside} {os : Os} {s s' : Handler}

namespace Unprinted

theorem of_same (unprinted : Unprinted s)
    (receiving : s'.receiveChunksInProgress = s.receiveChunksInProgress)
    (downloads : s'.downloads = s.downloads) : Unprinted s' := by
  constructor
  · rw [receiving]
    exact unprinted.receiving
  · rw [downloads]
    exact unprinted.downloads

theorem found (unprinted : Unprinted s) {chunkId : String} {state : ReceiveChunkState}
    (found : Dict.get s.receiveChunksInProgress chunkId = some state) : state.printit = false :=
  unprinted.receiving _ (Dict.get_mem found)

theorem setReceiving (unprinted : Unprinted s) (chunkId : String) {state : ReceiveChunkState}
    (plain : state.printit = false) : Unprinted (s.setReceiving chunkId state) := by
  constructor
  · intro entry member
    rcases Dict.of_mem_set member with rfl | old
    · exact plain
    · exact unprinted.receiving entry old
  · exact unprinted.downloads

theorem setSending (unprinted : Unprinted s) (chunkId : String) (state : SendChunkState) :
    Unprinted (s.setSending chunkId state) := unprinted.of_same rfl rfl

theorem erase (unprinted : Unprinted s) (chunkId : String) :
    Unprinted { s with receiveChunksInProgress := Dict.erase s.receiveChunksInProgress chunkId } := by
  constructor
  · intro entry member
    exact unprinted.receiving entry (Dict.mem_erase.mp member).1
  · exact unprinted.downloads

theorem writeDisk (unprinted : Unprinted s) (disk : Disk) : Unprinted (s.writeDisk disk) :=
  unprinted.of_same rfl rfl

theorem send (unprinted : Unprinted s) (packet : Packet) : Unprinted (s.send packet) :=
  unprinted.of_same rfl rfl

theorem raise (unprinted : Unprinted s) (exn : Exn) : Unprinted (s.raise exn) :=
  unprinted.of_same rfl rfl

theorem cancelTimer (unprinted : Unprinted s) (timer : Nat) : Unprinted (s.cancelTimer timer) :=
  unprinted.of_same rfl rfl

theorem addTimer (unprinted : Unprinted s) (timer : Timer) : Unprinted (s.addTimer timer) :=
  unprinted.of_same rfl rfl

theorem cancelFile (unprinted : Unprinted s) (chunkId message : String) (chunk : Nat) :
    Unprinted (cancelFile s chunkId message chunk) := by
  unfold FileTransfer.cancelFile
  split
  · exact unprinted.send _
  · next state found =>
      have plain := unprinted.found found
      have set : Unprinted (s.setReceiving chunkId { state with cancelled := true, timer := 0 }) :=
        unprinted.setReceiving chunkId plain
      exact ((((set.cancelTimer _).writeDisk _).addTimer _).writeDisk _).send _

theorem chunkError (unprinted : Unprinted s) (chunkId message : String) (chunk : Nat)
    (state : Option ReceiveChunkState) : Unprinted (chunkError s chunkId message chunk state) := by
  have cancelled := unprinted.cancelFile chunkId message chunk
  cases state with
  | none => exact cancelled.raise _
  | some state => exact cancelled.writeDisk _

theorem processDownloadedFile (unprinted : Unprinted s) {download : Download}
    (plain : download.printit = false) : Unprinted (processDownloadedFile s download) := by
  obtain ⟨callbacks, processed, raised, same⟩ := processDownloadedFile_eq s download
  rw [same]
  refine ⟨unprinted.receiving, ?_⟩
  intro download' member
  rcases List.mem_append.mp member with old | new
  · exact unprinted.downloads download' old
  · rw [List.mem_singleton.mp new]
    exact plain

theorem completeChunks (unprinted : Unprinted s) (chunkId : String) (chunk : Nat)
    {state : ReceiveChunkState} (plain : state.printit = false) :
    Unprinted (completeChunks o s chunkId chunk state) := by
  have closed := (unprinted.erase chunkId).writeDisk (s.disk.osclose state.fd)
  unfold FileTransfer.completeChunks
  dsimp only
  split
  · exact closed.chunkError _ _ _ _
  · split
    · exact closed.chunkError _ _ _ _
    · exact closed.processDownloadedFile plain

theorem processSendFileChunk (unprinted : Unprinted s) (chunkId : String) (chunk : Nat)
    (fileData : Bytes) (hasMore : Bool) :
    Unprinted (processSendFileChunk o os s chunkId chunk fileData hasMore) := by
  unfold FileTransfer.processSendFileChunk
  split
  · exact unprinted.raise _
  · split
    · exact unprinted.chunkError _ _ _ _
    · next state found =>
        have plain := unprinted.found found
        split
        · exact unprinted
        · split
          · exact unprinted.chunkError _ _ _ _
          · have numbered : Unprinted (s.setReceiving chunkId { state with chunk := chunk }) :=
              unprinted.setReceiving chunkId plain
            dsimp only
            split
            · exact numbered.chunkError _ _ _ _
            · next room _ =>
                have written := numbered.writeDisk (s.disk.write state.fd (fileData.take room))
                have updated : Unprinted (Handler.setReceiving _ chunkId
                    (ReceiveChunkState.wrote { state with chunk := chunk } fileData)) :=
                  written.setReceiving chunkId plain
                split
                · exact updated.chunkError _ _ _ _
                · have acked := updated.send (.ackFileChunk chunkId true "" chunk)
                  split
                  · exact ((acked.cancelTimer _).addTimer _).setReceiving chunkId plain
                  · exact acked.completeChunks chunkId chunk plain

theorem fileError (unprinted : Unprinted s) (chunkId message : String) (fd : Nat) :
    Unprinted (fileError s chunkId message fd) := by
  have cancelled : Unprinted (if chunkId = "" then s else FileTransfer.cancelFile s chunkId message 0) := by
    split
    · exact unprinted
    · exact unprinted.cancelFile _ _ _
  unfold FileTransfer.fileError
  dsimp only
  split
  · exact cancelled
  · exact cancelled.of_same rfl rfl

theorem receiveFile (unprinted : Unprinted s) (filename mimetype : String) {printit : Bool}
    (plain : printit = false) (openit : Bool) (filesize : Nat) (fileData : Bytes) (options : Options)
    (sendId : String) (fd : Nat) :
    Unprinted (receiveFile o os s filename mimetype printit openit filesize fileData options sendId fd) := by
  unfold FileTransfer.receiveFile
  dsimp only
  split
  · split
    · exact unprinted.fileError _ _ _
    · exact ((unprinted.addTimer _).setReceiving _ plain).send _
  · split
    · exact unprinted.fileError _ _ _
    · split
      · exact unprinted.fileError _ _ _
      · split
        · exact unprinted.fileError _ _ _
        · split
          · exact (unprinted.fileError _ _ _).writeDisk _
          · exact (unprinted.writeDisk _).processDownloadedFile plain

theorem cancelDownload (unprinted : Unprinted s) (sendId message : String) :
    Unprinted (cancelDownload s sendId message) := by
  unfold FileTransfer.cancelDownload
  split
  · exact unprinted.cancelFile _ _ _
  · exact unprinted

theorem cancelSending (unprinted : Unprinted s) (chunkId : String) :
    Unprinted (cancelSending s chunkId) := by
  unfold FileTransfer.cancelSending
  split
  · exact unprinted
  · exact unprinted.of_same rfl rfl

theorem processAckFileChunk (unprinted : Unprinted s) (chunkId : String) (state : Bool) (chunk : Nat) :
    Unprinted (processAckFileChunk s chunkId state chunk) := by
  unfold FileTransfer.processAckFileChunk
  split
  · exact unprinted.raise _
  · split
    · exact unprinted.cancelSending _
    · split
      · exact unprinted
      · split
        · exact unprinted.cancelSending _
        · split
          · exact unprinted.cancelSending _
          · split
            · exact unprinted.raise _
            · exact (((unprinted.cancelTimer _).addTimer _).setSending _ _).send _

theorem fire (unprinted : Unprinted s) (timer : Nat) (callback : Timer) :
    Unprinted (fire s timer callback) := by
  have fired : Unprinted { s with timers := s.timers.remove timer } := unprinted.of_same rfl rfl
  cases callback with
  | receiving chunkId chunk =>
      simp only [FileTransfer.fire, checkChunkReceiving]
      split
      · exact fired
      · next state found =>
          have plain := unprinted.found found
          split
          · exact fired
          · split
            · exact fired.erase chunkId
            · exact fired.setReceiving chunkId plain
  | sending chunkId chunk =>
      simp only [FileTransfer.fire, checkChunkSending]
      split
      · exact fired
      · split
        · exact (fired.setSending chunkId _).cancelSending chunkId
        · exact fired.setSending chunkId _
  | clean chunkId => exact fired.erase chunkId

theorem doSendFile (unprinted : Unprinted s) (chunkId filename mimetype : String) (data : Bytes)
    (filesize : Nat) (printit openit : Bool) (options : Options) (sendId : String) :
    Unprinted (doSendFile o s chunkId filename mimetype data filesize printit openit options sendId) := by
  unfold FileTransfer.doSendFile
  split
  · exact unprinted
  · dsimp only
    split
    · split
      · exact unprinted.raise _
      · exact unprinted.of_same rfl rfl
    · exact unprinted.send _

end Unprinted

/-! ### The settings stay -/

theorem send_settings (s : Handler) (packet : Packet) : (s.send packet).settings = s.settings :=
  rfl

theorem setReceiving_settings (s : Handler) (chunkId : String) (state : ReceiveChunkState) :
    (s.setReceiving chunkId state).settings = s.settings := rfl

theorem setSending_settings (s : Handler) (chunkId : String) (state : SendChunkState) :
    (s.setSending chunkId state).settings = s.settings := rfl

theorem cancelTimer_settings (s : Handler) (timer : Nat) :
    (s.cancelTimer timer).settings = s.settings := rfl

theorem addTimer_settings (s : Handler) (timer : Timer) :
    (s.addTimer timer).settings = s.settings := rfl

theorem writeDisk_settings (s : Handler) (disk : Disk) :
    (s.writeDisk disk).settings = s.settings := rfl

theorem cancelFile_settings (s : Handler) (chunkId message : String) (chunk : Nat) :
    (cancelFile s chunkId message chunk).settings = s.settings := by
  unfold cancelFile
  split
  · rw [send_settings]
  · rw [send_settings, writeDisk_settings, addTimer_settings, writeDisk_settings, cancelTimer_settings,
      setReceiving_settings]

theorem chunkError_settings (s : Handler) (chunkId message : String) (chunk : Nat)
    (state : Option ReceiveChunkState) :
    (chunkError s chunkId message chunk state).settings = s.settings := by
  cases state with
  | none => exact cancelFile_settings s chunkId message chunk
  | some state => exact cancelFile_settings s chunkId message chunk

theorem processDownloadedFile_settings (s : Handler) (download : Download) :
    (processDownloadedFile s download).settings = s.settings := by
  obtain ⟨callbacks, processed, raised, same⟩ := processDownloadedFile_eq s download
  rw [same]
  rfl

theorem completeChunks_settings (s : Handler) (chunkId : String) (chunk : Nat)
    (state : ReceiveChunkState) : (completeChunks o s chunkId chunk state).settings = s.settings := by
  unfold completeChunks
  dsimp only
  split
  · rw [chunkError_settings]
    rfl
  · split
    · rw [chunkError_settings]
      rfl
    · rw [processDownloadedFile_settings]
      rfl

theorem processSendFileChunk_settings (s : Handler) (chunkId : String) (chunk : Nat)
    (fileData : Bytes) (hasMore : Bool) :
    (processSendFileChunk o os s chunkId chunk fileData hasMore).settings = s.settings := by
  unfold processSendFileChunk
  split
  · rfl
  · split
    · rw [chunkError_settings]
    · split
      · rfl
      · split
        · rw [chunkError_settings]
        · dsimp only
          split
          · rw [chunkError_settings, setReceiving_settings]
          · split
            · rw [chunkError_settings, setReceiving_settings, writeDisk_settings, setReceiving_settings]
            · split
              · rw [setReceiving_settings, addTimer_settings, cancelTimer_settings, send_settings,
                  setReceiving_settings, writeDisk_settings, setReceiving_settings]
              · rw [completeChunks_settings, send_settings, setReceiving_settings, writeDisk_settings,
                  setReceiving_settings]

theorem fileError_settings (s : Handler) (chunkId message : String) (fd : Nat) :
    (fileError s chunkId message fd).settings = s.settings := by
  unfold fileError
  dsimp only
  split
  · split
    · rfl
    · rw [cancelFile_settings]
  · split
    · rfl
    · exact cancelFile_settings s chunkId message 0

theorem receiveFile_settings (s : Handler) (filename mimetype : String) (printit openit : Bool)
    (filesize : Nat) (fileData : Bytes) (options : Options) (sendId : String) (fd : Nat) :
    (receiveFile o os s filename mimetype printit openit filesize fileData options sendId fd).settings =
      s.settings := by
  unfold receiveFile
  dsimp only
  split
  · split
    · rw [fileError_settings]
    · rfl
  · split
    · rw [fileError_settings]
    · split
      · rw [fileError_settings]
      · split
        · rw [fileError_settings]
        · split
          · exact fileError_settings _ _ _ _
          · rw [processDownloadedFile_settings]
            rfl

theorem cancelSending_settings (s : Handler) (chunkId : String) :
    (cancelSending s chunkId).settings = s.settings := by
  unfold cancelSending
  split
  · rfl
  · rfl

theorem processAckFileChunk_settings (s : Handler) (chunkId : String) (state : Bool) (chunk : Nat) :
    (processAckFileChunk s chunkId state chunk).settings = s.settings := by
  unfold processAckFileChunk
  split
  · rfl
  · split
    · exact cancelSending_settings s chunkId
    · split
      · rfl
      · split
        · exact cancelSending_settings s chunkId
        · split
          · exact cancelSending_settings s chunkId
          · split
            · rfl
            · rw [send_settings, setSending_settings]
              rfl

theorem fire_settings (s : Handler) (timer : Nat) (callback : Timer) :
    (fire s timer callback).settings = s.settings := by
  cases callback with
  | receiving chunkId chunk =>
      simp only [fire, checkChunkReceiving]
      split
      · rfl
      · split
        · rfl
        · split
          · rfl
          · rfl
  | sending chunkId chunk =>
      simp only [fire, checkChunkSending]
      split
      · rfl
      · split
        · rw [cancelSending_settings]
          rfl
        · rfl
  | clean chunkId => rfl

theorem doSendFile_settings (s : Handler) (chunkId filename mimetype : String) (data : Bytes)
    (filesize : Nat) (printit openit : Bool) (options : Options) (sendId : String) :
    (doSendFile o s chunkId filename mimetype data filesize printit openit options sendId).settings =
      s.settings := by
  unfold doSendFile
  split
  · rfl
  · dsimp only
    split
    · split
      · rfl
      · rfl
    · rfl

/-! ### What is accepted -/

theorem acceptData_settings (s : Handler) (sendId : String) (printit openit : Bool) :
    (acceptData s sendId printit openit).1.settings = s.settings := by
  unfold acceptData
  split
  · rfl
  · split
    · rfl
    · rfl

theorem acceptData_frame (s : Handler) (sendId : String) (printit openit : Bool) :
    (acceptData s sendId printit openit).1.disk = s.disk ∧
      (acceptData s sendId printit openit).1.receiveChunksInProgress = s.receiveChunksInProgress ∧
      (acceptData s sendId printit openit).1.downloads = s.downloads := by
  unfold acceptData
  split
  · exact ⟨rfl, rfl, rfl⟩
  · split
    · exact ⟨rfl, rfl, rfl⟩
    · exact ⟨rfl, rfl, rfl⟩

/-- Without a prompt a print job is only printed where that needs none. -/
theorem acceptData_printit (s : Handler) (sendId : String) {printit openit : Bool}
    (prints : (acceptData s sendId printit openit).2.2.1 = true) :
    printit = true ∧ ¬ s.settings.PrintingAsk := by
  unfold acceptData at prints
  split at prints
  · cases prints
  · split at prints
    · cases prints
    · simp only [Bool.and_eq_true, Bool.not_eq_true'] at prints
      refine ⟨prints.1.1, ?_⟩
      rintro (disabled | asks)
      · exact absurd prints.1.2 (by simpa [Handler.settings] using disabled)
      · exact absurd prints.2 (by simpa [Handler.settings] using asks)

/-- Where files need a prompt, only a print job is accepted without one. -/
theorem acceptData_unaccepted (s : Handler) (sendId : String) {printit openit : Bool}
    (accepted : (acceptData s sendId printit openit).2.1 = true)
    (unknown : Dict.get s.filesAccepted sendId = none) (asks : s.settings.FilesAsk) :
    printit = true := by
  unfold acceptData at accepted
  rw [unknown] at accepted
  dsimp only at accepted
  split at accepted
  · cases accepted
  · next free =>
      by_contra file
      rw [Bool.not_eq_true] at file
      exact free ⟨file, asks.symm⟩

/-- A file is refused before anything is done for it, or it is created and received. -/
theorem processSendFile_cases (o : Outside) (os : Os) (s : Handler) (basefilename mimetype : String)
    (printit openit : Bool) (filesize : Nat) (fileData : Bytes) (options : Options) (sendId : String) :
    let s' := processSendFile o os s basefilename mimetype printit openit filesize fileData options sendId
    let accepted := acceptData s sendId printit openit
    (s'.disk = s.disk ∧ s'.receiveChunksInProgress = s.receiveChunksInProgress ∧
        s'.downloads = s.downloads ∧ s'.settings = s.settings) ∨
      filesize ≠ 0 ∧ filesize ≤ s.fileSizeLimit ∧ filesize < u64 ∧ accepted.2.1 = true ∧
        (accepted.2.2.1 = false → s.fileTransfer = true) ∧
        ∃ fd descriptors filename, os.opened = some fd ∧
          s' = receiveFile o os { accepted.1.writeDisk (accepted.1.disk.create filename fd) with
              fileDescriptors := descriptors }
            filename mimetype accepted.2.2.1 accepted.2.2.2 filesize fileData options sendId fd := by
  have ⟨disk, receiving, downloads⟩ := acceptData_frame s sendId printit openit
  have settings := acceptData_settings s sendId printit openit
  unfold processSendFile
  dsimp only
  split
  · exact .inl ⟨rfl, rfl, rfl, rfl⟩
  · next readable =>
      split
      · exact .inl ⟨rfl, rfl, rfl, rfl⟩
      · next filled =>
          split
          · exact .inl ⟨rfl, rfl, rfl, rfl⟩
          · next small =>
              split
              · exact .inl ⟨disk, receiving, downloads, settings⟩
              · next accepted =>
                  by_cases enabled : (if (acceptData s sendId printit openit).2.2.1 = true then
                      (acceptData s sendId printit openit).1.printing
                    else (acceptData s sendId printit openit).1.fileTransfer) = false
                  · rw [if_pos enabled]
                    exact .inl ⟨disk, receiving, downloads, settings⟩
                  · rw [if_neg enabled]
                    split
                    · split
                      · exact .inl ⟨disk, receiving, downloads, settings⟩
                      · exact .inl ⟨disk, receiving, downloads, settings⟩
                    · next fd opened =>
                        right
                        refine ⟨filled, by omega, by omega, by simpa using accepted, ?_, fd, _, _,
                          opened, rfl⟩
                        intro plain
                        have same : (acceptData s sendId printit openit).1.fileTransfer = s.fileTransfer :=
                          congrArg Settings.fileTransfer settings
                        rw [plain, if_neg Bool.false_ne_true, same, Bool.not_eq_false] at enabled
                        exact enabled

/-! ### Requests do not print -/

/-- Neither the settings nor the downloads are touched. -/
structure Untouched (s s' : Handler) : Prop where
  settings : s'.settings = s.settings
  receiving : s'.receiveChunksInProgress = s.receiveChunksInProgress
  downloads : s'.downloads = s.downloads

theorem acceptData_untouched (s : Handler) (sendId : String) (printit openit : Bool) :
    Untouched s (acceptData s sendId printit openit).1 :=
  ⟨acceptData_settings s sendId printit openit, (acceptData_frame s sendId printit openit).2.1,
    (acceptData_frame s sendId printit openit).2.2⟩

theorem checkDataRequest_untouched (r : Requests) (dtype sendId : String) (printit openit : Bool) :
    Untouched r.handler (checkDataRequest r dtype sendId printit openit).handler := by
  have asked (ask : Bool) : Untouched r.handler
      (if ask = true then askDataRequest r sendId printit openit
        else answerRequest r sendId false).handler := by
    cases ask with
    | false => exact ⟨rfl, rfl, rfl⟩
    | true => exact acceptData_untouched r.handler sendId printit openit
  unfold checkDataRequest
  by_cases file : dtype = "file"
  · rw [if_pos file]
    by_cases disabled : r.handler.fileTransfer = false
    · rw [if_pos disabled]
      exact ⟨rfl, rfl, rfl⟩
    · rw [if_neg disabled]
      exact asked _
  · rw [if_neg file]
    by_cases url : dtype = "url"
    · rw [if_pos url]
      by_cases disabled : r.openUrl = false
      · rw [if_pos disabled]
        exact ⟨rfl, rfl, rfl⟩
      · rw [if_neg disabled]
        exact asked _
    · rw [if_neg url]
      exact ⟨rfl, rfl, rfl⟩

theorem processSendDataRequest_untouched (r : Requests) (dtype sendId : String) (filesize : Nat)
    (printit openit : Bool) (options : Options) :
    Untouched r.handler
      (processSendDataRequest r dtype sendId filesize printit openit options).handler := by
  unfold processSendDataRequest
  split
  · exact ⟨rfl, rfl, rfl⟩
  · split
    · split
      · exact ⟨rfl, rfl, rfl⟩
      · exact ⟨rfl, rfl, rfl⟩
      · split
        · exact ⟨rfl, rfl, rfl⟩
        · exact checkDataRequest_untouched r dtype sendId printit false
      · exact checkDataRequest_untouched r dtype sendId printit false
    · exact checkDataRequest_untouched r dtype sendId printit openit

theorem processOpenUrl_untouched (r : Requests) (url sendId : String) :
    Untouched r.handler (processOpenUrl r url sendId).handler := by
  unfold processOpenUrl
  dsimp only
  split
  · exact ⟨rfl, rfl, rfl⟩
  · split
    · split
      · exact acceptData_untouched r.handler sendId false true
      · exact acceptData_untouched r.handler sendId false true
    · exact ⟨rfl, rfl, rfl⟩

/-- A response may have a file sent, but receives none. -/
theorem processSendDataResponse_sends (r : Requests) (chunkId sendId : String) (answer : Int) :
    (processSendDataResponse o r chunkId sendId answer).handler = r.handler ∨
      ∃ spd : SendPendingData, (processSendDataResponse o r chunkId sendId answer).handler =
        doSendFile o r.handler chunkId spd.url spd.mimetype spd.data spd.filesize spd.printit
          spd.openit spd.options sendId := by
  unfold processSendDataResponse
  split
  · exact .inl rfl
  · dsimp only
    split
    · exact .inl rfl
    · next spd _ =>
        unfold answerPending
        split
        · exact .inl rfl
        · split
          · exact .inl rfl
          · split
            · split
              · exact .inr ⟨spd, rfl⟩
              · split
                · exact .inl rfl
                · exact .inl rfl
            · split
              · split
                · exact .inl rfl
                · exact .inl rfl
              · exact .inl rfl

theorem sendDataRequest_handler (r : Requests) (sendId : String) (spd : SendPendingData) :
    (sendDataRequest r sendId spd).1.handler = r.handler := by
  unfold sendDataRequest
  split
  · rfl
  · rfl

/-! ### Consent -/

/-- What holds of the files and the print jobs as long as none is downgraded. -/
structure Consenting (t : Transfers) : Prop where
  files : t.requests.handler.settings.FilesAsk → ∀ c ∈ t.created, c.accepted = true ∨
    (c.printit = true ∧ ¬ t.requests.handler.settings.PrintingAsk)
  created : t.requests.handler.settings.PrintingAsk →
    ∀ c ∈ t.created, c.printit = true → c.accepted = true
  unprinted : t.requests.handler.settings.PrintingAsk → Unprinted t.requests.handler

variable {t t' : Transfers}

theorem Consenting.of_step (consenting : Consenting t)
    (settings : t'.requests.handler.settings = t.requests.handler.settings)
    (created : t'.created = t.created)
    (unprinted : Unprinted t.requests.handler → Unprinted t'.requests.handler) : Consenting t' := by
  constructor
  · rw [settings, created]
    exact consenting.files
  · rw [settings, created]
    exact consenting.created
  · rw [settings]
    exact fun asks => unprinted (consenting.unprinted asks)

theorem Consenting.of_untouched (consenting : Consenting t)
    (untouched : Untouched t.requests.handler t'.requests.handler) (created : t'.created = t.created) :
    Consenting t' := by
  apply consenting.of_step untouched.settings created
  intro unprinted
  exact unprinted.of_same untouched.receiving untouched.downloads

theorem gains_self (disk : Disk) : disk.gains disk = false := by
  rw [Disk.gains, List.any_eq_false]
  intro entry member all
  have other := List.all_eq_true.mp all entry member
  simp at other

theorem mem_creations {basefilename mimetype : String} {printit openit : Bool}
    {filesize : Nat} {fileData : Bytes} {options : Options} {sendId : String} {handler : Handler}
    {c : Creation} (member : c ∈ t.creations handler
      (.sendFile basefilename mimetype printit openit filesize fileData options sendId)) :
    t.requests.handler.disk.gains handler.disk = true ∧
      c = ⟨sendId, printit, (Dict.get t.requests.handler.filesAccepted sendId).isSome⟩ := by
  dsimp only [Transfers.creations] at member
  split at member
  · next gains => exact ⟨gains, List.mem_singleton.mp member⟩
  · cases member

/-- A packet that creates a file, or has one printed, does so with consent. -/
theorem processSendFile_consenting (consenting : Consenting t) {os : Os}
    {basefilename mimetype : String} {printit openit : Bool} {filesize : Nat} {fileData : Bytes}
    {options : Options} {sendId : String}
    (current : ¬ Downgraded t (.packet os
      (.sendFile basefilename mimetype printit openit filesize fileData options sendId))) :
    Consenting (t.act o (.packet os
      (.sendFile basefilename mimetype printit openit filesize fileData options sendId))) := by
  rcases processSendFile_cases o os t.requests.handler basefilename mimetype printit openit filesize
    fileData options sendId with ⟨disk, receiving, downloads, settings⟩ |
    ⟨filled, small, readable, accepted, enabled, fd, descriptors, filename, opened, same⟩
  · have nothing : t.creations (processSendFile o os t.requests.handler basefilename mimetype printit
        openit filesize fileData options sendId)
        (.sendFile basefilename mimetype printit openit filesize fileData options sendId) = [] := by
      rw [List.eq_nil_iff_forall_not_mem]
      intro c member
      have gains := (mem_creations member).1
      rw [disk, gains_self] at gains
      cases gains
    apply consenting.of_untouched ⟨settings, receiving, downloads⟩
    simp only [Transfers.act, process]
    rw [nothing, List.append_nil]
  · have settings : (processSendFile o os t.requests.handler basefilename mimetype printit openit
        filesize fileData options sendId).settings = t.requests.handler.settings := by
      rw [same, receiveFile_settings]
      exact acceptData_settings _ _ _ _
    -- without a prompt, a print job that is not printed would be one that is downgraded
    have plain (asks : t.requests.handler.settings.PrintingAsk) :
        (acceptData t.requests.handler sendId printit openit).2.2.1 = false := by
      by_contra prints
      rw [Bool.not_eq_false] at prints
      exact (acceptData_printit _ _ prints).2 asks
    have undropped (asks : t.requests.handler.settings.PrintingAsk) (job : printit = true) :
        (Dict.get t.requests.handler.filesAccepted sendId).isSome = true := by
      cases known : Dict.get t.requests.handler.filesAccepted sendId with
      | some openit => rfl
      | none =>
          exact absurd ⟨job, asks, known, enabled (plain asks), filled, small, readable,
            by rw [opened, Option.isSome_some]⟩ current
    constructor
    · intro asks c member
      replace asks : t.requests.handler.settings.FilesAsk := settings ▸ asks
      rcases List.mem_append.mp member with old | new
      · rcases consenting.files asks c old with accepted | ⟨job, prints⟩
        · exact .inl accepted
        · exact .inr ⟨job, fun prompts => prints (settings ▸ prompts)⟩
      · rw [(mem_creations new).2]
        cases known : Dict.get t.requests.handler.filesAccepted sendId with
        | some openit => exact .inl rfl
        | none =>
            have job := acceptData_unaccepted _ _ accepted known asks
            refine .inr ⟨job, ?_⟩
            intro prompts
            have there := undropped (settings ▸ prompts) job
            rw [known] at there
            cases there
    · intro asks c member
      replace asks : t.requests.handler.settings.PrintingAsk := settings ▸ asks
      rcases List.mem_append.mp member with old | new
      · exact consenting.created asks c old
      · rw [(mem_creations new).2]
        exact undropped asks
    · intro asks
      replace asks : t.requests.handler.settings.PrintingAsk := settings ▸ asks
      have frame := acceptData_untouched t.requests.handler sendId printit openit
      have started := (consenting.unprinted asks).of_same frame.receiving frame.downloads
      have ready (disk : Disk) : Unprinted
          { (acceptData t.requests.handler sendId printit openit).1.writeDisk disk with
            fileDescriptors := descriptors } := started.of_same rfl rfl
      change Unprinted (processSendFile o os t.requests.handler _ _ _ _ _ _ _ _)
      rw [same]
      exact (ready _).receiveFile filename mimetype (plain asks) _ filesize fileData options sendId fd

/-- Every step keeps to what was consented, unless it downgrades a print job. -/
theorem step_consenting {a : PeerAction} (consenting : Consenting t) (current : ¬ Downgraded t a) :
    Consenting (t.act o a) := by
  cases a with
  | packet os p =>
      cases p with
      | sendFile => exact processSendFile_consenting consenting current
      | sendFileChunk chunkId chunk fileData hasMore =>
          apply consenting.of_step
          · exact processSendFileChunk_settings _ _ _ _ _
          · exact List.append_nil _
          · exact fun unprinted => unprinted.processSendFileChunk _ _ _ _
      | ackFileChunk chunkId state message chunk =>
          apply consenting.of_step
          · exact processAckFileChunk_settings _ _ _ _
          · exact List.append_nil _
          · exact fun unprinted => unprinted.processAckFileChunk _ _ _
  | sendDataRequest dtype sendId filesize printit openit options =>
      exact consenting.of_untouched (processSendDataRequest_untouched _ _ _ _ _ _ _) rfl
  | sendDataResponse chunkId sendId answer =>
      have sends := processSendDataResponse_sends (o := o) t.requests chunkId sendId answer
      apply consenting.of_step
      · simp only [Transfers.act]
        rcases sends with same | ⟨spd, same⟩
        · rw [same]
        · rw [same, doSendFile_settings]
      · rfl
      · intro unprinted
        simp only [Transfers.act]
        rcases sends with same | ⟨spd, same⟩
        · rw [same]
          exact unprinted
        · rw [same]
          exact unprinted.doSendFile _ _ _ _ _ _ _ _ _
  | openUrl url sendId => exact consenting.of_untouched (processOpenUrl_untouched _ _ _) rfl
  | requestFile filename openit => exact consenting.of_untouched ⟨rfl, rfl, rfl⟩ rfl
  | approve sendId openit => exact consenting.of_untouched ⟨rfl, rfl, rfl⟩ rfl
  | cancel sendId message =>
      apply consenting.of_step
      · simp only [Transfers.act, Transfers.withHandler, cancelDownload]
        split
        · exact cancelFile_settings _ _ _ _
        · rfl
      · rfl
      · exact fun unprinted => unprinted.cancelDownload _ _
  | sendFile chunkId filename mimetype data filesize printit openit options sendId =>
      apply consenting.of_step
      · exact doSendFile_settings _ _ _ _ _ _ _ _ _ _
      · rfl
      · exact fun unprinted => unprinted.doSendFile _ _ _ _ _ _ _ _ _
  | askPeer sendId spd =>
      apply consenting.of_untouched
      · simp only [Transfers.act]
        rw [sendDataRequest_handler]
        exact ⟨rfl, rfl, rfl⟩
      · rfl
  | fire timer callback =>
      apply consenting.of_step
      · exact fire_settings _ _ _
      · rfl
      · exact fun unprinted => unprinted.fire _ _
  | askTimeout timer sendId => exact consenting.of_untouched ⟨rfl, rfl, rfl⟩ rfl

/-- As long as no print job is downgraded, files are only created, and only printed, with the
consent that the settings ask for. -/
theorem transfers_consented
    (reachable : Reachable Transfers.initial (fun t a t' => ¬ Downgraded t a ∧ t.step o a t') t) :
    Consented t := by
  have consenting : Consenting t := by
    apply reachable.invariant
    · rintro t ⟨receiving, downloads, created⟩
      constructor
      · rw [created]
        exact fun _ c member => absurd member List.not_mem_nil
      · rw [created]
        exact fun _ c member => absurd member List.not_mem_nil
      · intro _
        constructor
        · rw [receiving]
          exact fun entry member => absurd member List.not_mem_nil
        · rw [downloads]
          exact fun download member => absurd member List.not_mem_nil
    · rintro t a t' consenting ⟨current, _, rfl⟩
      exact step_consenting consenting current
  constructor
  · exact consenting.files
  · exact fun asks => ⟨consenting.created asks, (consenting.unprinted asks).downloads⟩

/-- Files need a prompt, and printing is disabled. -/
def unprintingHandler : Handler := { askingHandler with printing := false, printingAsk := false }

def idleTransfers : Transfers :=
  { requests := { handler := unprintingHandler, openUrl := false, openUrlAsk := false } }

def unaskedFile (printit : Bool) : PeerAction :=
  .packet ⟨some 3, some 10⟩ (.sendFile "file" "" printit false 1 [0] [] "unknown")

theorem transfers_consented_file :
    Consented (idleTransfers.act plainOutside (unaskedFile false)) := by
  have idle : Reachable Transfers.initial
      (fun t a t' => ¬ Downgraded t a ∧ t.step plainOutside a t') idleTransfers :=
    .start ⟨rfl, rfl, rfl⟩
  have refused : ¬ Downgraded idleTransfers (unaskedFile false) := by
    rintro ⟨job, _⟩
    cases job
  exact transfers_consented (idle.next (a := unaskedFile false) ⟨refused, trivial, rfl⟩)

/-- With the flag for printing, the same file is created without a prompt. -/
theorem not_transfers_consented : ¬ ∀ (o : Outside) (t : Transfers),
    Reachable Transfers.initial (fun t a t' => t.step o a t') t → Consented t := by
  intro consented
  have idle : Reachable Transfers.initial (fun t a t' => Transfers.step plainOutside t a t') idleTransfers :=
    .start ⟨rfl, rfl, rfl⟩
  have received : Reachable Transfers.initial (fun t a t' => Transfers.step plainOutside t a t')
      (idleTransfers.act plainOutside (unaskedFile true)) :=
    idle.next (a := unaskedFile true) ⟨trivial, rfl⟩
  have created : (idleTransfers.act plainOutside (unaskedFile true)).created =
      [⟨"unknown", true, false⟩] := by rfl
  have consent := (consented plainOutside _ received).files (.inl rfl) ⟨"unknown", true, false⟩ (by
    rw [created]
    exact List.mem_singleton_self _)
  rcases consent with accepted | ⟨_, prints⟩
  · cases accepted
  · exact prints (.inl rfl)

end Catlink.FileTransfer
