import Catlink.Lib.Dict
import Catlink.Lib.MainLoop
import Catlink.Python
import Mathlib.Tactic

/-! Files sent to a peer and received from it, whole or in chunks. -/

namespace Catlink.FileTransfer

open MainLoop

/-- `MAX_CONCURRENT_FILES` -/
def maxConcurrentFiles : Nat := 10

/-- What the handler has from libraries. -/
structure Outside where
  /-- `os.path.abspath(os.path.join(dd, name))`, in the download directory -/
  downloadPath : String → String
  /-- `hashlib`: the digest of the data by the name of the hash -/
  hexdigest : String → Bytes → String
  /-- `str(value)` -/
  str : PyVal → String

/-- What the operating system answers while a packet is processed. -/
structure Os where
  /-- the descriptor of `os.open`; `none` is an `OSError` -/
  opened : Option Nat
  /-- how much `os.write` can write; `none` is an `OSError` -/
  room : Option Nat

/-! ### Options -/

abbrev Options := List (String × PyVal)

/-- A dictionary stands for its entry with the empty key. -/
def unnamed : PyVal → PyVal
  | .dict entries =>
      match entries.find? fun entry : PyVal × PyVal => entry.1 matches .str "" with
      | some entry => entry.2
      | none => .dict entries
  | value => value

/-- `bytestostr` -/
def bytestostr (o : Outside) : PyVal → String
  | .bytes data => String.ofList (data.map fun byte : UInt8 => Char.ofNat byte.toNat)
  | .str text => text
  | value => o.str value

/-- `options.strget(key)` -/
def strget (o : Outside) (options : Options) (key : String) : String :=
  match Dict.get options key with
  | none => ""
  | some value => bytestostr o (unnamed value)

/-- `options.tupleget(key)` -/
def tupleget (options : Options) (key : String) : List PyVal :=
  match (Dict.get options key).map unnamed with
  | some (.list items) | some (.tuple items) => items
  | _ => []

/-! ### Names -/

/-- `text[text.rfind(sep) + 1:]` -/
def afterLast (sep : Char) (text : String) : String :=
  String.ofList ((text.toList.reverse.takeWhile (· ≠ sep)).reverse)

/-- The separators of any platform. -/
def basename (filename : String) : String := afterLast '/' (afterLast '\\' filename)

/-- `MIMETYPE_EXTS` -/
def mimetypeExts : List (String × String) :=
  [("application/postscript", "ps"), ("application/pdf", "pdf"), ("raw", "raw")]

/-- `os.path.splitext` -/
def splitext (filename : String) : String × String :=
  let text := filename.toList
  let name := (text.reverse.takeWhile (· ≠ '/')).reverse
  let stem := (name.reverse.dropWhile (· ≠ '.')).reverse.dropLast
  -- a name that begins with its only dots has no extension
  if stem.all (· = '.') then (filename, "")
  else
    let ext := name.drop stem.length
    (String.ofList (text.take (text.length - ext.length)), String.ofList ext)

/-! ### Files -/

/-- The files of the receiver, and what its descriptors are open on: a name, or a file that has
been unlinked. -/
structure Disk where
  files : List (String × Bytes) := []
  descriptors : List (Nat × Option String) := []
  /-- what `os.open` returned, and what `os.close` was called with -/
  opened : List Nat := []
  closed : List Nat := []

namespace Disk

/-- `os.open(filename, O_CREAT | O_RDWR | O_EXCL)` -/
def create (disk : Disk) (filename : String) (fd : Nat) : Disk where
  files := Dict.set disk.files filename []
  descriptors := Dict.set disk.descriptors fd (some filename)
  opened := disk.opened ++ [fd]
  closed := disk.closed

/-- `os.write(fd, data)` -/
def write (disk : Disk) (fd : Nat) (data : Bytes) : Disk :=
  match Dict.get disk.descriptors fd with
  | some (some filename) =>
      { disk with
        files := Dict.set disk.files filename ((Dict.get disk.files filename).getD [] ++ data) }
  | _ => disk

/-- `osclose(fd)`; a descriptor that is not open is an error that is only logged. -/
def osclose (disk : Disk) (fd : Nat) : Disk :=
  if fd = 0 then disk
  else
    { disk with descriptors := Dict.erase disk.descriptors fd, closed := disk.closed ++ [fd] }

/-- `os.unlink(filename)` -/
def unlink (disk : Disk) (filename : String) : Disk :=
  { disk with
    files := Dict.erase disk.files filename
    descriptors := disk.descriptors.map fun entry =>
      if entry.2 = some filename then (entry.1, none) else entry }

end Disk

/-- `while os.path.exists(filename)`, which ends when there are more names than files. -/
def untilFree (taken : List String) (root ext : String) : Nat → Nat → String → String
  | 0, _, filename => filename
  | fuel + 1, base, filename =>
      if filename ∈ taken then
        untilFree taken root ext fuel (base + 1) (root ++ "-" ++ toString (base + 1) ++ ext)
      else filename

/-- The name, with a number when it is taken. -/
def freeName (taken : List String) (filename : String) : String :=
  untilFree taken (splitext filename).1 (splitext filename).2 (taken.length + 2) 0 filename

/-- Some types have an extension that is added. -/
def withExtension (filename mimetype : String) : String :=
  match mimetypeExts.lookup mimetype with
  | some ext =>
      if ("." ++ ext).toList.isSuffixOf filename.toList then filename else filename ++ "." ++ ext
  | none => filename

/-- The name that `safe_open_download_file` uses. -/
def downloadName (o : Outside) (disk : Disk) (basefilename mimetype : String) : String :=
  freeName (disk.files.map Prod.fst)
    (withExtension (o.downloadPath (basename basefilename)) mimetype)

/-! ### The handler -/

inductive Packet
  | sendFile (basefilename mimetype : String) (printit openit : Bool) (filesize : Nat)
      (fileData : Bytes) (options : Options) (sendId : String)
  | sendFileChunk (chunkId : String) (chunk : Nat) (fileData : Bytes) (hasMore : Bool)
  | ackFileChunk (chunkId : String) (state : Bool) (message : String) (chunk : Nat)

/-- A hash by its name, and what it was updated with. -/
structure Digest where
  name : String
  data : Bytes := []

structure ReceiveChunkState where
  fd : Nat
  filename : String
  mimetype : String
  printit : Bool
  openit : Bool
  filesize : Nat
  options : Options
  digest : Option Digest
  written : Nat
  cancelled : Bool
  sendId : String
  timer : Nat
  chunk : Nat

structure SendChunkState where
  data : Bytes
  chunkSize : Nat
  timer : Nat
  chunk : Nat

inductive Timer
  /-- `_check_chunk_receiving` -/
  | receiving (chunkId : String) (chunk : Nat)
  /-- `_check_chunk_sending` -/
  | sending (chunkId : String) (chunk : Nat)
  /-- `clean_receive_state` -/
  | clean (chunkId : String)

/-- A file that was received, as it is given to `process_downloaded_file`. -/
structure Download where
  filename : String
  mimetype : String
  printit : Bool
  openit : Bool
  filesize : Nat
  options : Options

/-- What becomes of a download. -/
inductive Processed
  | callback (request : String) (download : Download)
  /-- the thread that prints or opens it -/
  | thread (download : Download)

structure Handler where
  fileTransfer : Bool
  fileTransferAsk : Bool
  printing : Bool
  printingAsk : Bool
  openFiles : Bool
  openFilesAsk : Bool
  fileSizeLimit : Nat
  fileChunks : Nat
  remoteFileSizeLimit : Int
  remoteFileChunks : Nat
  filesAccepted : List (String × Bool) := []
  /-- the requests with a callback of their own -/
  fileRequestCallback : List String := []
  sendChunksInProgress : List (String × SendChunkState) := []
  receiveChunksInProgress : List (String × ReceiveChunkState) := []
  fileDescriptors : List Nat := []
  timers : Sources Timer := .start
  disk : Disk := {}
  /-- what was sent and has not arrived -/
  outgoing : List Packet := []
  /-- the calls of `process_downloaded_file` -/
  downloads : List Download := []
  processed : List Processed := []
  /-- the exceptions that ended the processing of a packet -/
  raised : List Exn := []

namespace Handler

def send (s : Handler) (packet : Packet) : Handler := { s with outgoing := s.outgoing ++ [packet] }

def raise (s : Handler) (exn : Exn) : Handler := { s with raised := s.raised ++ [exn] }

def setReceiving (s : Handler) (chunkId : String) (state : ReceiveChunkState) : Handler :=
  { s with receiveChunksInProgress := Dict.set s.receiveChunksInProgress chunkId state }

def setSending (s : Handler) (chunkId : String) (state : SendChunkState) : Handler :=
  { s with sendChunksInProgress := Dict.set s.sendChunksInProgress chunkId state }

/-- `source_remove`, when there is a timer -/
def cancelTimer (s : Handler) (timer : Nat) : Handler :=
  { s with timers := if timer = 0 then s.timers else s.timers.remove timer }

def addTimer (s : Handler) (timer : Timer) : Handler := { s with timers := s.timers.add timer }

def writeDisk (s : Handler) (disk : Disk) : Handler := { s with disk := disk }

end Handler

/-- The bounds of `get_u32` and of `get_u64`. -/
def u32 : Nat := 2 ^ 32

def u64 : Nat := 2 ^ 64

/-! ### Receiving -/

def cancelFile (s : Handler) (chunkId message : String) (chunk : Nat) : Handler :=
  match Dict.get s.receiveChunksInProgress chunkId with
  | none => s.send (.ackFileChunk chunkId false message chunk)
  | some state =>
      let s := s.setReceiving chunkId { state with cancelled := true, timer := 0 }
      let s := s.cancelTimer state.timer
      let s := s.writeDisk (s.disk.osclose state.fd)
      -- removed after a little while, so that packets in flight are no errors
      let s := s.addTimer (.clean chunkId)
      let s := s.writeDisk (s.disk.unlink state.filename)
      s.send (.ackFileChunk chunkId false message chunk)

/-- A file is complete. -/
def processDownloadedFile (s : Handler) (download : Download) : Handler :=
  let s := { s with downloads := s.downloads ++ [download] }
  let process : Handler :=
    if download.printit = true ∨ download.openit = true then
      { s with processed := s.processed ++ [.thread download] }
    else s
  match tupleget download.options "request-file" with
  | argf :: _ :: _ =>
      match argf with
      | .list _ | .dict _ => s.raise (.typeError "unhashable type")
      | .str request =>
          if request ∈ s.fileRequestCallback then
            { s with
              fileRequestCallback := s.fileRequestCallback.filter (· ≠ request)
              processed := s.processed ++ [.callback request download] }
          else process
      | _ => process
  | _ => process

/-- Only the download itself is new. -/
theorem processDownloadedFile_eq (s : Handler) (download : Download) :
    ∃ callbacks processed raised, processDownloadedFile s download =
      { s with
        downloads := s.downloads ++ [download]
        fileRequestCallback := callbacks
        processed := processed
        raised := raised } := by
  unfold processDownloadedFile
  dsimp only
  split
  · split
    · exact ⟨_, _, _, rfl⟩
    · exact ⟨_, _, _, rfl⟩
    · split
      · exact ⟨_, _, _, rfl⟩
      · split
        · exact ⟨_, _, _, rfl⟩
        · exact ⟨_, _, _, rfl⟩
    · split
      · exact ⟨_, _, _, rfl⟩
      · exact ⟨_, _, _, rfl⟩
  · split
    · exact ⟨_, _, _, rfl⟩
    · exact ⟨_, _, _, rfl⟩

/-- `error` of `_process_send_file_chunk` -/
def chunkError (s : Handler) (chunkId message : String) (chunk : Nat)
    (state : Option ReceiveChunkState) : Handler :=
  let s := cancelFile s chunkId message chunk
  match state with
  -- `progress` reads `chunk_state.start`
  | none => s.raise (.other "'NoneType' object has no attribute 'start'")
  | some state => s.writeDisk ((s.disk.osclose state.fd).unlink state.filename)

/-- The digest of what was received is not the one that was announced. -/
def digestMismatch (o : Outside) (options : Options) (digest : Option Digest) : Bool :=
  match digest with
  | none => false
  | some digest =>
      let expected := strget o options digest.name
      expected ≠ "" && o.hexdigest digest.name digest.data ≠ expected

/-- All the chunks have been received. -/
def completeChunks (o : Outside) (s : Handler) (chunkId : String) (chunk : Nat)
    (state : ReceiveChunkState) : Handler :=
  let s := { s with receiveChunksInProgress := Dict.erase s.receiveChunksInProgress chunkId }
  let s := s.writeDisk (s.disk.osclose state.fd)
  if digestMismatch o state.options state.digest = true then
    chunkError s chunkId "checksum mismatch" chunk (some state)
  else if state.written ≠ state.filesize then
    chunkError s chunkId
      ("expected a file of " ++ toString state.filesize ++ " bytes, got " ++ toString state.written)
      chunk (some state)
  else
    processDownloadedFile s
      ⟨state.filename, state.mimetype, state.printit, state.openit, state.filesize, state.options⟩

/-- What is updated when a chunk has been written. -/
def ReceiveChunkState.wrote (state : ReceiveChunkState) (fileData : Bytes) : ReceiveChunkState :=
  { state with
    digest := state.digest.map fun digest => { digest with data := digest.data ++ fileData }
    written := state.written + fileData.length }

def processSendFileChunk (o : Outside) (os : Os) (s : Handler) (chunkId : String) (chunk : Nat)
    (fileData : Bytes) (hasMore : Bool) : Handler :=
  if u32 ≤ chunk then s.raise (.valueError ("invalid u32 value " ++ toString chunk))
  else
    match Dict.get s.receiveChunksInProgress chunkId with
    | none =>
        chunkError s chunkId ("file transfer id '" ++ chunkId ++ "' not found") chunk none
    | some state =>
        if state.cancelled = true then s
        else if state.chunk + 1 ≠ chunk then
          chunkError s chunkId "chunk number mismatch" chunk (some state)
        else
          let state := { state with chunk := chunk }
          let s := s.setReceiving chunkId state
          match os.room with
          | none => chunkError s chunkId "cannot write file chunk" chunk (some state)
          | some room =>
              let s := s.writeDisk (s.disk.write state.fd (fileData.take room))
              let state := state.wrote fileData
              let s := s.setReceiving chunkId state
              if state.filesize < state.written then
                chunkError s chunkId "more data received than specified in the file size!" chunk
                  (some state)
              else
                let s := s.send (.ackFileChunk chunkId true "" chunk)
                if hasMore = true then
                  let s := s.cancelTimer state.timer
                  let state := { state with timer := s.timers.next }
                  (s.addTimer (.receiving chunkId chunk)).setReceiving chunkId state
                else completeChunks o s chunkId chunk state

/-- What is accepted, and whether it is printed and opened. -/
def acceptData (s : Handler) (sendId : String) (printit openit : Bool) :
    Handler × Bool × Bool × Bool :=
  match Dict.get s.filesAccepted sendId with
  | some req => ({ s with filesAccepted := Dict.erase s.filesAccepted sendId }, true, false, req)
  | none =>
      if printit = false ∧ (s.fileTransfer = false ∨ s.fileTransferAsk = true) then
        (s, false, false, false)
      else
        (s, true, printit && s.printing && !s.printingAsk, openit && s.openFiles && !s.openFilesAsk)

/-- The first hash that the options name. -/
def optionsDigest (o : Outside) (options : Options) : Option Digest :=
  (["sha512", "sha384", "sha256", "sha224", "sha1"].find? fun name =>
    strget o options name ≠ "").map fun name => { name := name }

/-- `error` of `_process_send_file`, where the chunk number is known when there is a chunk id -/
def fileError (s : Handler) (chunkId message : String) (fd : Nat) : Handler :=
  let s := if chunkId = "" then s else cancelFile s chunkId message 0
  if fd = 0 then s
  else
    { s.writeDisk (s.disk.osclose fd) with
      fileDescriptors :=
        if (Dict.get s.disk.descriptors fd).isSome then s.fileDescriptors.filter (· ≠ fd)
        else s.fileDescriptors }

/-- The file has been created. -/
def receiveFile (o : Outside) (os : Os) (s : Handler) (filename mimetype : String)
    (printit openit : Bool) (filesize : Nat) (fileData : Bytes) (options : Options) (sendId : String)
    (fd : Nat) : Handler :=
  let chunkId := strget o options "file-chunk-id"
  let digest := optionsDigest o options
  if chunkId ≠ "" then
    if maxConcurrentFiles ≤ s.receiveChunksInProgress.length then
      fileError s chunkId
        ("too many file transfers in progress: " ++ toString s.receiveChunksInProgress.length) fd
    else
      let timer := s.timers.next
      let s := s.addTimer (.receiving chunkId 0)
      let s := s.setReceiving chunkId
        ⟨fd, filename, mimetype, printit, openit, filesize, options, digest, 0, false, sendId, timer, 0⟩
      s.send (.ackFileChunk chunkId true "" 0)
  else if fileData = [] then fileError s chunkId "no file data" fd
  else if fileData.length ≠ filesize then fileError s chunkId "file size" fd
  else if digestMismatch o options (digest.map fun digest => { digest with data := fileData }) = true then
    fileError s chunkId "checksum mismatch" fd
  else
    match os.room with
    | none =>
        let s := fileError s chunkId "failed to write file data" fd
        s.writeDisk (s.disk.osclose fd)
    | some room =>
        let s := s.writeDisk ((s.disk.write fd (fileData.take room)).osclose fd)
        processDownloadedFile s ⟨filename, mimetype, printit, openit, filesize, options⟩

/-- Until a logger is chosen, `cancel` fails on its first line. -/
def processSendFile (o : Outside) (os : Os) (s : Handler) (basefilename mimetype : String)
    (printit openit : Bool) (filesize : Nat) (fileData : Bytes) (options : Options) (sendId : String) :
    Handler :=
  let unassigned (name : String) : Exn :=
    .other ("cannot access free variable '" ++ name ++
      "' where it is not associated with a value in enclosing scope")
  if u64 ≤ filesize then s.raise (.valueError ("invalid u64 value " ++ toString filesize))
  else if filesize = 0 then s.raise (unassigned "log")
  else if s.fileSizeLimit < filesize then s.raise (unassigned "log")
  else
    let (s, acceptit, printit, openit) := acceptData s sendId printit openit
    if acceptit = false then s.raise (unassigned "log")
    else if (if printit = true then s.printing else s.fileTransfer) = false then
      s.raise (.assertionError "")
    else
      match os.opened with
      | none =>
          if strget o options "file-chunk-id" = "" then s else s.raise (unassigned "chunk")
      | some fd =>
          let filename := downloadName o s.disk basefilename mimetype
          let s := s.writeDisk (s.disk.create filename fd)
          let s := { s with
            fileDescriptors := if fd ∈ s.fileDescriptors then s.fileDescriptors
              else s.fileDescriptors ++ [fd] }
          receiveFile o os s filename mimetype printit openit filesize fileData options sendId fd

/-- `cancel_download`: the first transfer with this `send_id` -/
def cancelDownload (s : Handler) (sendId message : String) : Handler :=
  match s.receiveChunksInProgress.find? fun entry => entry.2.sendId = sendId with
  | some entry => cancelFile s entry.1 message 0
  | none => s

/-- `_check_chunk_receiving`, from the timer with this number. -/
def checkChunkReceiving (s : Handler) (timer : Nat) (chunkId : String) (chunk : Nat) : Handler :=
  let s := { s with timers := s.timers.remove timer }
  match Dict.get s.receiveChunksInProgress chunkId with
  | none => s
  | some state =>
      if state.cancelled = true then s
      else if state.chunk = chunk then
        { s with receiveChunksInProgress := Dict.erase s.receiveChunksInProgress chunkId }
      else s.setReceiving chunkId { state with timer := 0 }

/-- `clean_receive_state`, from the timer with this number. -/
def cleanReceiveState (s : Handler) (timer : Nat) (chunkId : String) : Handler :=
  { s with
    timers := s.timers.remove timer
    receiveChunksInProgress := Dict.erase s.receiveChunksInProgress chunkId }

/-! ### Sending -/

def cancelSending (s : Handler) (chunkId : String) : Handler :=
  match Dict.get s.sendChunksInProgress chunkId with
  | none => s
  | some state =>
      let s := { s with sendChunksInProgress := Dict.erase s.sendChunksInProgress chunkId }
      s.cancelTimer state.timer

def checkFileSize (s : Handler) (filesize : Nat) : Bool :=
  filesize ≤ s.fileSizeLimit && (filesize : Int) ≤ s.remoteFileSizeLimit

/-- `os.path.basename` -/
def osPathBasename (filename : String) : String := afterLast '/' filename

/-- `chunkId` is the new `uuid4`. -/
def doSendFile (o : Outside) (s : Handler) (chunkId filename mimetype : String) (data : Bytes)
    (filesize : Nat) (printit openit : Bool) (options : Options) (sendId : String) : Handler :=
  if checkFileSize s filesize = false then s
  else
    let options := Dict.set options "sha256" (.str (o.hexdigest "sha256" data))
    let chunkSize := min s.fileChunks s.remoteFileChunks
    if 0 < chunkSize ∧ chunkSize < filesize then
      if maxConcurrentFiles ≤ s.sendChunksInProgress.length then
        s.raise (.runtimeError
          ("too many file transfers in progress: " ++ toString s.sendChunksInProgress.length))
      else
        let options := Dict.set options "file-chunk-id" (.str chunkId)
        let timer := s.timers.next
        let s := s.addTimer (.sending chunkId 0)
        let s := s.setSending chunkId ⟨data, chunkSize, timer, 0⟩
        s.send (.sendFile (osPathBasename filename) mimetype printit openit filesize [] options sendId)
    else
      s.send (.sendFile (osPathBasename filename) mimetype printit openit filesize data options sendId)

def processAckFileChunk (s : Handler) (chunkId : String) (state : Bool) (chunk : Nat) : Handler :=
  if u32 ≤ chunk then s.raise (.valueError ("invalid u32 value " ++ toString chunk))
  else if state = false then cancelSending s chunkId
  else
    match Dict.get s.sendChunksInProgress chunkId with
    | none => s
    | some state =>
        if state.chunk ≠ chunk then cancelSending s chunkId
        else if state.data = [] then cancelSending s chunkId
        else if state.chunkSize = 0 then s.raise (.assertionError "")
        else
          let cdata := state.data.take state.chunkSize
          let data := state.data.drop state.chunkSize
          let s := s.cancelTimer state.timer
          let timer := s.timers.next
          let s := s.addTimer (.sending chunkId (chunk + 1))
          let s := s.setSending chunkId ⟨data, state.chunkSize, timer, chunk + 1⟩
          s.send (.sendFileChunk chunkId (chunk + 1) cdata (data ≠ []))

/-- `_check_chunk_sending`, from the timer with this number. -/
def checkChunkSending (s : Handler) (timer : Nat) (chunkId : String) (chunk : Nat) : Handler :=
  let s := { s with timers := s.timers.remove timer }
  match Dict.get s.sendChunksInProgress chunkId with
  | none => s
  | some state =>
      let s := s.setSending chunkId { state with timer := 0 }
      if state.chunk = chunk then cancelSending s chunkId else s

/-- A timer has fired. -/
def fire (s : Handler) (timer : Nat) : Timer → Handler
  | .receiving chunkId chunk => checkChunkReceiving s timer chunkId chunk
  | .sending chunkId chunk => checkChunkSending s timer chunkId chunk
  | .clean chunkId => cleanReceiveState s timer chunkId

/-- A packet is processed. -/
def process (o : Outside) (os : Os) (s : Handler) : Packet → Handler
  | .sendFile basefilename mimetype printit openit filesize fileData options sendId =>
      processSendFile o os s basefilename mimetype printit openit filesize fileData options sendId
  | .sendFileChunk chunkId chunk fileData hasMore =>
      processSendFileChunk o os s chunkId chunk fileData hasMore
  | .ackFileChunk chunkId state _ chunk => processAckFileChunk s chunkId state chunk

end Catlink.FileTransfer
