import Catlink.Lib.Dict
import Catlink.Lib.MainLoop
import Catlink.Python
import Mathlib

/-! The speaker of a client: its sink, the recovery from device changes, and the packets that wait
for the sink to be started. -/

namespace Catlink.Audio

open MainLoop

/-- `DEVICE_RESTART_INITIAL_MS` -/
def deviceRestartInitialMs : Nat := 1000

/-- `DEVICE_RESTART_MAX_MS` -/
def deviceRestartMaxMs : Nat := 30000

/-- `DEVICE_RECOVERY_GENERIC_FAILURES` -/
def deviceRecoveryGenericFailures : Nat := 3

/-- `MAX_SPEAKER_START_PACKETS` -/
def maxSpeakerStartPackets : Nat := 256

/-- `MAX_SPEAKER_START_BYTES` -/
def maxSpeakerStartBytes : Nat := 4 * 1024 * 1024

/-- `DELTA_THRESHOLD` -/
def deltaThreshold : Nat := 40

/-- Where packets are dispatched from a thread: `WIN32` and `OSX`. -/
structure Platform where
  win32 : Bool
  osx : Bool

def Platform.threaded (pf : Platform) : Bool := pf.win32 || pf.osx

/-! ### Packets -/

/-- `typedict(packet.get_dict(3))` -/
structure Metadata where
  startOfStream : Bool
  endOfStream : Bool
  /-- −1 when there is none -/
  sequence : Int
  codec : String

/-- What the accessors of an audio data packet return; `none` where they raise. -/
structure AudioPacket where
  /-- the packet's place among those that arrive -/
  number : Nat
  /-- `_speaker_packet_size` -/
  size : Option Nat
  codec : Option String
  data : Option Bytes
  metadata : Option Metadata
  /-- `()` without a fifth element -/
  packetMetadata : Option (List Bytes)

def AudioPacket.startOfStream (p : AudioPacket) : Option Bool :=
  p.metadata.map Metadata.startOfStream

/-- One of the stream boundaries that are retained. -/
def AudioPacket.boundary (p : AudioPacket) : Option Bool :=
  p.metadata.map fun metadata => metadata.startOfStream || metadata.endOfStream

/-- The control packets that are sent. -/
inductive Control
  | start (codec : String)
  | stop (sequence : Nat)
  | newSequence (sequence : Nat)
  | sync (value : Int)

/-! ### The client -/

structure Sink where
  id : Nat
  codec : String
  sequence : Nat

inductive Callback
  /-- `_restart_after_device_change` -/
  | restart
  /-- `_finish_device_recovery` -/
  | stable
  /-- `_retry_device_monitor` -/
  | monitorRetry
  /-- `_stop_device_monitor_on_main` -/
  | stopMonitor (monitor : Nat)
  /-- `_start_receiving_audio_on_main` -/
  | start (generation : Nat)
  /-- `_drain_speaker_start_packets` -/
  | drain (generation : Nat)
  deriving DecidableEq

inductive SinkStart
  /-- there is no sink -/
  | nothing
  /-- an exception without a sink -/
  | failed (error : String)
  /-- an exception when the sink is connected or started -/
  | broken (error : String)
  | started

inductive MonitorStart
  | started
  | failed
  /-- and it cannot be stopped either -/
  | stuck

/-- What the rest of the client and the system answer during one event. -/
structure Outside where
  /-- `audio_loop_check("speaker")` -/
  loopCheck : Bool
  sinkStart : SinkStart
  monitorStart : MonitorStart
  /-- `monitor.stop()` -/
  monitorStop : Bool
  /-- `ss.get_state()` -/
  sinkState : String
  /-- `cur` in the queue of `ss.get_info()`, or −1 -/
  queueUsed : Int

structure AudioClient where
  speakerAllowed : Bool
  speakerEnabled : Bool
  speakerCodecs : List String
  serverAudioSend : Bool
  serverAudioEncoders : List String
  exitCode : Option Int
  avSync : Bool
  serverAvSync : Bool
  avSyncDelta : Int
  queueUsedSent : Int := 0
  /-- the codec that is requested when the sink is ready -/
  onSinkReady : Option String := none
  audioSink : Option Sink := none
  nextSink : Nat := 1
  audioSinkSequence : Nat := 0
  audioInBytecount : Nat := 0
  audioResumeRestart : Bool := false
  speakerRequested : Bool := false
  audioDeviceMonitor : Option Nat := none
  nextMonitor : Nat := 1
  audioMonitorStopped : Bool := false
  audioMonitorRetryTimer : Nat := 0
  audioMonitorRetryDelay : Nat := deviceRestartInitialMs
  audioStartIdle : Nat := 0
  audioStartGeneration : Nat := 0
  speakerStartPackets : List AudioPacket := []
  speakerStartBytes : Nat := 0
  speakerStartPending : Bool := false
  audioRestartTimer : Nat := 0
  audioStableTimer : Nat := 0
  audioDeviceRecovering : Bool := false
  audioGenericFailures : Nat := 0
  audioRestartDelay : Nat := deviceRestartInitialMs
  audioRecoveryData : Bool := false
  timers : Sources Callback := .start
  sent : List Control := []

namespace AudioClient

def send (s : AudioClient) (control : Control) : AudioClient := { s with sent := s.sent ++ [control] }

def removeTimer (s : AudioClient) (timer : Nat) : AudioClient :=
  { s with timers := s.timers.remove timer }

end AudioClient

/-- `get_matching_codecs` -/
def getMatchingCodecs (localCodecs serverCodecs : List String) : List String :=
  localCodecs.filter (· ∈ serverCodecs)

/-! ### The device monitor -/

def cancelMonitorRetry (s : AudioClient) : AudioClient :=
  let s :=
    if s.audioMonitorRetryTimer = 0 then s
    else { s.removeTimer s.audioMonitorRetryTimer with audioMonitorRetryTimer := 0 }
  { s with audioMonitorRetryDelay := deviceRestartInitialMs }

/-- The monitor is started, or a retry is scheduled. -/
def runMonitor (o : Outside) (s : AudioClient) (monitor : Nat) : AudioClient :=
  match o.monitorStart with
  | .started =>
      cancelMonitorRetry { s with audioDeviceMonitor := some monitor, audioMonitorStopped := false }
  | outcome =>
      let s := match outcome with
        | .stuck => { s with audioDeviceMonitor := some monitor, audioMonitorStopped := true }
        | _ => s
      if s.audioMonitorRetryTimer ≠ 0 then s
      else
        { s with
          audioMonitorRetryDelay := min (s.audioMonitorRetryDelay * 2) deviceRestartMaxMs
          audioMonitorRetryTimer := s.timers.next
          timers := s.timers.add .monitorRetry }

def startDeviceMonitor (pf : Platform) (o : Outside) (s : AudioClient) : AudioClient :=
  if pf.threaded = true ∧ s.speakerRequested = true then
    match s.audioDeviceMonitor with
    | some monitor => if s.audioMonitorStopped = false then s else runMonitor o s monitor
    | none => runMonitor o { s with nextMonitor := s.nextMonitor + 1 } s.nextMonitor
  else s

def stopDeviceMonitorOnMain (o : Outside) (s : AudioClient) (monitor : Nat) : AudioClient :=
  if s.audioDeviceMonitor ≠ some monitor ∨ s.speakerRequested = true then s
  else if o.monitorStop = true then
    { s with audioDeviceMonitor := none, audioMonitorStopped := false }
  else { s with audioMonitorStopped := true }

/-- `main` is `is_main_thread()`. -/
def stopDeviceMonitor (pf : Platform) (o : Outside) (main : Bool) (s : AudioClient) : AudioClient :=
  let s := cancelMonitorRetry s
  match s.audioDeviceMonitor with
  | none => s
  | some monitor =>
      if pf.threaded = true ∧ main = false then
        { s with timers := s.timers.add (.stopMonitor monitor) }
      else stopDeviceMonitorOnMain o s monitor

/-! ### Stopping -/

def cancelAudioStart (s : AudioClient) : AudioClient :=
  { s with
    speakerRequested := false
    audioStartGeneration := s.audioStartGeneration + 1
    speakerStartPackets := []
    speakerStartBytes := 0
    speakerStartPending := false
    audioStartIdle := 0
    timers := if 0 < s.audioStartIdle then s.timers.remove s.audioStartIdle else s.timers }

def cancelDeviceRestart (s : AudioClient) : AudioClient :=
  let s :=
    if s.audioRestartTimer = 0 then s
    else { s.removeTimer s.audioRestartTimer with audioRestartTimer := 0 }
  if s.audioStableTimer = 0 then s
  else { s.removeTimer s.audioStableTimer with audioStableTimer := 0 }

/-- The sink is given up. -/
def dropSink (s : AudioClient) (tellServer : Bool) : AudioClient :=
  let s := { s with speakerEnabled := false }
  match s.audioSink with
  | none => s
  | some ss =>
      let s := if tellServer = true ∧ ss.sequence = s.audioSinkSequence then
          s.send (.stop s.audioSinkSequence) else s
      let s := { s with audioSinkSequence := s.audioSinkSequence + 1 }
      { s.send (.newSequence s.audioSinkSequence) with audioSink := none }

/-- `if not device_change` -/
def endRecovery (pf : Platform) (o : Outside) (main preserveStartPackets : Bool) (s : AudioClient) :
    AudioClient :=
  let s := if preserveStartPackets = true then { s with speakerRequested := false }
    else cancelAudioStart s
  let s := { s with
    audioDeviceRecovering := false
    audioGenericFailures := 0
    audioRestartDelay := deviceRestartInitialMs }
  stopDeviceMonitor pf o main (cancelDeviceRestart s)

def stopReceivingAudio (pf : Platform) (o : Outside) (main tellServer preserveStartPackets : Bool)
    (s : AudioClient) : AudioClient :=
  dropSink (endRecovery pf o main preserveStartPackets s) tellServer

/-- `stop_all_audio` of the speaker -/
def stopAllAudio (pf : Platform) (o : Outside) (s : AudioClient) : AudioClient :=
  if s.audioSink.isSome = true then stopReceivingAudio pf o true true false s else s

def cleanup (pf : Platform) (o : Outside) (s : AudioClient) : AudioClient :=
  stopAllAudio pf o (stopDeviceMonitor pf o true (cancelDeviceRestart (cancelAudioStart s)))

/-- `stop_receiving_audio(device_change=True)` -/
def stopForDeviceChange (s : AudioClient) : AudioClient := dropSink (cancelDeviceRestart s) true

/-! ### Recovering -/

def scheduleDeviceRestart (s : AudioClient) : AudioClient :=
  let s := cancelDeviceRestart s
  if s.speakerRequested = false ∨ s.exitCode ≠ none then s
  else
    { s with
      audioRestartDelay := min (s.audioRestartDelay * 2) deviceRestartMaxMs
      audioRestartTimer := s.timers.next
      timers := s.timers.add .restart }

def audioDeviceChanged (s : AudioClient) : AudioClient :=
  if s.speakerRequested = false ∨ s.exitCode ≠ none then s
  else
    let s := { s with
      audioDeviceRecovering := true
      audioGenericFailures := 0
      audioRestartDelay := deviceRestartInitialMs }
    scheduleDeviceRestart (stopForDeviceChange s)

def retryRecoveryOrNotify (s : AudioClient) (deviceError : Bool) : AudioClient :=
  if deviceError = true then scheduleDeviceRestart { s with audioGenericFailures := 0 }
  else
    let s := { s with audioGenericFailures := s.audioGenericFailures + 1 }
    if deviceRecoveryGenericFailures ≤ s.audioGenericFailures then
      -- the monitor is retained, so that a later device change can start a new recovery
      cancelDeviceRestart { s with audioDeviceRecovering := false }
    else scheduleDeviceRestart s

/-- The device is gone, or it has changed. -/
def recoverable (pf : Platform) (error : String) : Bool :=
  let estr := error.replace "gst-resource-error-quark: " ""
  mentions estr "AUDIO_DEVICE_CHANGED" ||
    (pf.win32 && ["DEVICE_INVALIDATED", "88890004"].any (mentions estr.toUpper))

/-- Errors of another sink than the current one are ignored. -/
def audioSinkError (pf : Platform) (o : Outside) (sink : Option Nat) (error : String)
    (s : AudioClient) : AudioClient :=
  if s.exitCode ≠ none ∨ sink ≠ s.audioSink.map Sink.id then s
  else if s.speakerRequested = true ∧
      (recoverable pf error = true ∨ s.audioDeviceRecovering = true) then
    let s := stopForDeviceChange { s with audioDeviceRecovering := true }
    retryRecoveryOrNotify s (recoverable pf error)
  else stopReceivingAudio pf o true true false s

/-- The sink has gone: `audio_process_stopped`, and `audio_sink_exit`, which also clears its codec. -/
def audioSinkGone (pf : Platform) (o : Outside) (sink : Option Nat) (s : AudioClient) : AudioClient :=
  if s.exitCode ≠ none ∨ sink ≠ s.audioSink.map Sink.id then s
  else if s.audioDeviceRecovering = true ∧ s.speakerRequested = true then
    retryRecoveryOrNotify (stopForDeviceChange s) false
  else stopReceivingAudio pf o true true false s

def audioProcessStopped (pf : Platform) (o : Outside) (sink : Option Nat) (s : AudioClient) :
    AudioClient := audioSinkGone pf o sink s

def audioSinkExit (pf : Platform) (o : Outside) (sink : Option Nat) (s : AudioClient) : AudioClient :=
  audioSinkGone pf o sink s

/-! ### Starting -/

inductive Outcome
  | started
  | refused
  /-- an exception -/
  | raised
  deriving DecidableEq

def withSink (s : AudioClient) (codec : String) : AudioClient :=
  { s with
    audioSink := some ⟨s.nextSink, codec, s.audioSinkSequence⟩
    nextSink := s.nextSink + 1 }

/-- An exception is taken for an error of the current sink. -/
def startAudioSink (pf : Platform) (o : Outside) (s : AudioClient) (codec : String) :
    AudioClient × Outcome :=
  if s.audioSink.isSome = true then (s, .raised)
  else
    match o.sinkStart with
    | .nothing => (s, .refused)
    | .failed error => (audioSinkError pf o none error s, .refused)
    | .broken error => (audioSinkError pf o (some s.nextSink) error (withSink s codec), .refused)
    | .started => (withSink s codec, .started)

/-- Up to the `finally`: whether the speaker is enabled. -/
def tryReceivingAudio (pf : Platform) (o : Outside) (s : AudioClient) : AudioClient × Bool :=
  if s.audioSink.isSome = true then (s, true)
  else if s.serverAudioSend = false then (s, false)
  else if o.loopCheck = false then (s, false)
  else
    match getMatchingCodecs s.speakerCodecs s.serverAudioEncoders with
    | [] => (s, false)
    | codec :: _ =>
        let s := startDeviceMonitor pf o { s with speakerRequested := true }
        let started := startAudioSink pf o { s with onSinkReady := some codec } codec
        (started.1, started.2 = .started)

/-- `start_receiving_audio` in the main thread. -/
def startReceivingAudio (pf : Platform) (o : Outside) (s : AudioClient) : AudioClient :=
  let tried := tryReceivingAudio pf o s
  let s' :=
    if tried.2 = false ∧ s.audioDeviceRecovering = false ∧ tried.1.audioDeviceRecovering = false then
      stopReceivingAudio pf o true true false tried.1
    else tried.1
  { s' with speakerEnabled := tried.2 }

/-- `start_receiving_audio` in another thread. -/
def startReceivingAudioLater (s : AudioClient) : AudioClient :=
  let s := { s with speakerRequested := true }
  if s.audioStartIdle ≠ 0 then s
  else
    { s with
      audioStartIdle := s.timers.next
      timers := s.timers.add (.start s.audioStartGeneration) }

def startReceivingAudioOnMain (pf : Platform) (o : Outside) (s : AudioClient) (generation : Nat) :
    AudioClient :=
  if generation ≠ s.audioStartGeneration then s
  else
    let s := { s with audioStartIdle := 0 }
    if s.speakerRequested = true ∧ s.exitCode = none then startReceivingAudio pf o s else s

def restartAfterDeviceChange (pf : Platform) (o : Outside) (s : AudioClient) : AudioClient :=
  let s := { s with audioRestartTimer := 0 }
  if s.speakerRequested = false ∨ s.exitCode ≠ none then s
  else if s.serverAudioSend = false ∨
      getMatchingCodecs s.speakerCodecs s.serverAudioEncoders = [] then
    stopReceivingAudio pf o true true false s
  else
    let s := startReceivingAudio pf o { s with audioRecoveryData := false }
    if s.audioDeviceRecovering = false then s
    else if s.audioSink.isNone = true ∨ s.speakerEnabled = false then
      if s.audioRestartTimer = 0 then retryRecoveryOrNotify s false else s
    else
      { s with
        audioStableTimer := s.timers.next
        timers := s.timers.add .stable }

def finishDeviceRecovery (o : Outside) (s : AudioClient) : AudioClient :=
  let s := { s with audioStableTimer := 0 }
  if s.audioDeviceRecovering = false ∨ s.speakerRequested = false then s
  else
    let state := if s.audioSink.isSome = true ∧ s.speakerEnabled = true then o.sinkState else "stopped"
    if state = "active" then
      { s with
        audioDeviceRecovering := false
        audioGenericFailures := 0
        audioRestartDelay := deviceRestartInitialMs }
    else if (state = "paused" ∨ state = "ready") ∧ s.audioRecoveryData = false then
      -- the sink may await its first sample
      { s with
        audioStableTimer := s.timers.next
        timers := s.timers.add .stable }
    else retryRecoveryOrNotify (stopForDeviceChange s) false

def retryDeviceMonitor (pf : Platform) (o : Outside) (s : AudioClient) : AudioClient :=
  let s := { s with audioMonitorRetryTimer := 0 }
  if s.speakerRequested = true ∧ s.exitCode = none then startDeviceMonitor pf o s else s

def suspend (pf : Platform) (o : Outside) (s : AudioClient) : AudioClient :=
  let s := { s with audioResumeRestart := s.speakerRequested || s.audioSink.isSome }
  if s.audioResumeRestart = true then stopReceivingAudio pf o true true false s else s

def resume (pf : Platform) (o : Outside) (s : AudioClient) : AudioClient :=
  if s.audioResumeRestart = true then
    startReceivingAudio pf o { s with audioResumeRestart := false }
  else s

/-- `main` is `is_main_thread()`. -/
def parseServerCapabilities (pf : Platform) (o : Outside) (main : Bool) (s : AudioClient)
    (serverAudioSend : Bool) (serverAudioEncoders : List String) (serverAvSync : Bool) : AudioClient :=
  let s := { s with serverAudioSend, serverAudioEncoders, serverAvSync }
  if s.serverAudioSend = true ∧ s.speakerEnabled = true then
    if pf.threaded = true ∧ main = false then startReceivingAudioLater s
    else startReceivingAudio pf o s
  else s

def audioSinkStateChanged (s : AudioClient) (sink : Option Nat) (state : String) : AudioClient :=
  if sink ≠ s.audioSink.map Sink.id then s
  else if state = "ready" then
    match s.onSinkReady with
    | some codec => { s.send (.start codec) with onSinkReady := none }
    | none => s
  else s

/-! ### The main loop -/

/-- What happens outside of the packets. -/
inductive Event
  | deviceChanged
  | sinkError (sink : Option Nat) (error : String)
  | sinkExit (sink : Option Nat)
  | processStopped (sink : Option Nat)
  | sinkState (sink : Option Nat) (state : String)
  | start
  /-- from another thread -/
  | startLater
  | stop
  | suspend
  | resume
  | capabilities (main serverAudioSend : Bool) (serverAudioEncoders : List String)
      (serverAvSync : Bool)
  | setAvSync (delta : Option Int)
  /-- the exit code is set early -/
  | exit (code : Int)
  | quit (code : Int)
  /-- a source of the main loop is due -/
  | fire (source : Nat)

/-- The packets of a drain are handled one by one. -/
def runCallback (pf : Platform) (o : Outside) (s : AudioClient) : Callback → AudioClient
  | .restart => restartAfterDeviceChange pf o s
  | .stable => finishDeviceRecovery o s
  | .monitorRetry => retryDeviceMonitor pf o s
  | .stopMonitor monitor => stopDeviceMonitorOnMain o s monitor
  | .start generation => startReceivingAudioOnMain pf o s generation
  | .drain _ => s

/-- None of the callbacks asks to be called again. -/
def fire (pf : Platform) (o : Outside) (s : AudioClient) (source : Nat) : AudioClient :=
  match Dict.get s.timers.sources source with
  | none => s
  | some callback => runCallback pf o (s.removeTimer source) callback

def handle (pf : Platform) (o : Outside) (s : AudioClient) : Event → AudioClient
  | .deviceChanged => audioDeviceChanged s
  | .sinkError sink error => audioSinkError pf o sink error s
  | .sinkExit sink => audioSinkExit pf o sink s
  | .processStopped sink => audioProcessStopped pf o sink s
  | .sinkState sink state => audioSinkStateChanged s sink state
  | .start => startReceivingAudio pf o s
  | .startLater => startReceivingAudioLater s
  | .stop => stopReceivingAudio pf o true true false s
  | .suspend => suspend pf o s
  | .resume => resume pf o s
  | .capabilities main serverAudioSend serverAudioEncoders serverAvSync =>
      parseServerCapabilities pf o main s serverAudioSend serverAudioEncoders serverAvSync
  | .setAvSync none => { s.send (.sync 0) with avSync := false }
  | .setAvSync (some delta) => { s with avSync := true, avSyncDelta := delta }
  | .exit code => { s with exitCode := some (s.exitCode.getD code) }
  | .quit code => cleanup pf o { s with exitCode := some (s.exitCode.getD code) }
  | .fire source => fire pf o s source

/-! ### Packets -/

/-- Drops the first packet that is no stream boundary; none when all of them are, or where an
exception stops the search. -/
def evict : List AudioPacket → Option (AudioPacket × List AudioPacket)
  | [] => none
  | p :: queue =>
      match p.boundary with
      | none => none
      | some false => some (p, queue)
      | some true => (evict queue).map fun dropped => (dropped.1, p :: dropped.2)

/-- The loop that makes room for a packet of this size: the queue and its bytes, and whether there is
room. What was dropped by then stays dropped. -/
def makeRoom (size : Nat) : Nat → List AudioPacket → Nat → List AudioPacket × Nat × Bool
  | 0, queue, bytes => (queue, bytes, false)
  | fuel + 1, queue, bytes =>
      if queue ≠ [] ∧ (maxSpeakerStartPackets ≤ queue.length ∨ maxSpeakerStartBytes < bytes + size) then
        match evict queue with
        | none => (queue, bytes, false)
        | some (dropped, queue) => makeRoom size fuel queue (bytes - dropped.size.getD 0)
      else (queue, bytes, true)

/-- Whether the packet is queued. -/
def queueSpeakerStartPacket (s : AudioClient) (p : AudioPacket) : AudioClient × Bool :=
  match p.size with
  | none => (s, false)
  | some size =>
      if maxSpeakerStartBytes < size then (s, false)
      else
        match makeRoom size (s.speakerStartPackets.length + 1) s.speakerStartPackets
          s.speakerStartBytes with
        | (queue, bytes, false) =>
            ({ s with speakerStartPackets := queue, speakerStartBytes := bytes }, false)
        | (queue, bytes, true) =>
            ({ s with speakerStartPackets := queue ++ [p], speakerStartBytes := bytes + size }, true)

/-- What `_process_audio_data` does first in the network thread, and whether it goes on. -/
def arriveAudioData (s : AudioClient) (p : AudioPacket) : AudioClient × Bool :=
  match if s.speakerEnabled = true then some false else p.startOfStream with
  | none => (s, false)
  | some start =>
      if s.speakerStartPending = true ∨ start = true then
        let (s', queued) := queueSpeakerStartPacket s p
        if queued = true ∧ s'.speakerStartPending = false then
          ({ s' with
            speakerStartPending := true
            timers := s'.timers.add (.drain s'.audioStartGeneration) }, false)
        else (s', false)
      else (s, true)

/-- The part of `_drain_speaker_start_packets` that holds the lock: the packet to process next. -/
def popSpeakerStartPacket (s : AudioClient) (generation : Nat) : AudioClient × Option AudioPacket :=
  if generation ≠ s.audioStartGeneration then (s, none)
  else
    match s.speakerStartPackets with
    | [] => ({ s with speakerStartPending := false }, none)
    | p :: queue =>
        ({ s with
          speakerStartPackets := queue
          speakerStartBytes := s.speakerStartBytes - p.size.getD 0 }, some p)

def startSpeakerFromServer (pf : Platform) (o : Outside) (main : Bool) (s : AudioClient)
    (codec : String) (generation : Option Nat) : AudioClient × Outcome :=
  if generation ≠ none ∧ generation ≠ some s.audioStartGeneration then (s, .refused)
  else if s.speakerAllowed = false then (stopReceivingAudio pf o main true false s, .refused)
  else
    let s := startDeviceMonitor pf o { s with speakerEnabled := true, speakerRequested := true }
    let started := startAudioSink pf o { s with onSinkReady := none } codec
    if started.2 = .refused ∧ s.audioDeviceRecovering = false ∧
        started.1.audioDeviceRecovering = false then
      (stopReceivingAudio pf o main true false started.1, .refused)
    else started

/-- The sink is told, and the server of what the sink has queued. -/
def playAudioData (pf : Platform) (o : Outside) (main : Bool) (s : AudioClient) (ss : Sink)
    (codec : String) (data : Bytes) (metadata : Metadata) (packetMetadata : List Bytes)
    (startGeneration : Option Nat) : AudioClient :=
  if metadata.endOfStream = true then
    stopReceivingAudio pf o main false (startGeneration ≠ none) s
  else if codec ≠ ss.codec then stopReceivingAudio pf o main true false s
  else if o.sinkState = "stopped" then stopReceivingAudio pf o main true false s
  else
    let s :=
      if (data ≠ [] ∨ packetMetadata ≠ []) ∧ s.audioDeviceRecovering = true then
        { s with audioRecoveryData := true }
      else s
    if s.avSync = true ∧ s.serverAvSync = true ∧ 0 ≤ o.queueUsed ∧
        deltaThreshold ≤ (s.queueUsedSent - o.queueUsed).natAbs then
      { s.send (.sync (o.queueUsed + s.avSyncDelta)) with queueUsedSent := o.queueUsed }
    else s

/-- `_process_audio_data`, once it is decided that the packet is not queued. -/
def processAudioData (pf : Platform) (o : Outside) (main : Bool) (s : AudioClient) (p : AudioPacket)
    (startGeneration : Option Nat) : AudioClient × Outcome :=
  match p.codec, p.data, p.metadata, p.packetMetadata with
  | some codec, some data, some metadata, some packetMetadata =>
      let s := { s with audioInBytecount := s.audioInBytecount + data.length }
      if 0 < s.audioSinkSequence ∧ 0 ≤ metadata.sequence ∧
          metadata.sequence < s.audioSinkSequence then (s, .refused)
      else
        let started : AudioClient × Outcome :=
          if s.speakerEnabled = true then (s, .started)
          else if metadata.startOfStream = true then
            startSpeakerFromServer pf o main s metadata.codec startGeneration
          else (s, .refused)
        match started.2 with
        | .started =>
            match started.1.audioSink with
            | none => (started.1, .refused)
            | some ss =>
                (playAudioData pf o main started.1 ss codec data metadata packetMetadata startGeneration,
                  .started)
        | outcome => (started.1, outcome)
  | _, _, _, _ => (s, .raised)

end Catlink.Audio
