import FlvDemux.Engine.Config
import FlvDemux.Engine.Session
import FlvDemux.Engine.ByteStream
import FlvDemux.Engine.Track
import FlvDemux.Engine.Survey

/-!
# The state of a demuxer

A demuxer is one `Source` record, and every step of the engine is an action on it in `Step`, a
state monad whose failures keep the changes made before them. Reads never complete at once:
`issueRead` queues a `Task.read` with the session ticket, and the bytes are taken when the task
runs. Queued tasks run in no fixed order (`runAt`).
-/

namespace FlvDemux.Engine

open Flv

/-- The phase of a demuxer. -/
inductive Phase where
  | invalid
  | opening
  | stopped
  | started
  | paused
  | shutdown
  deriving DecidableEq, Repr

def Phase.name : Phase → String
  | .invalid => "Invalid"
  | .opening => "Opening"
  | .stopped => "Stopped"
  | .started => "Started"
  | .paused => "Paused"
  | .shutdown => "Shutdown"

/-- What the bytes of an outstanding read are for. -/
inductive ReadStep where
  | fileHeader
  | tagHeader
  | scriptPayload (tag : TagHeader)
  | audioHeader (tag : TagHeader)
  | aacPacketType (packet : AudioPacket)
  | audioPayload (packet : AudioPacket)
  | videoHeader (tag : TagHeader)
  | avcPacketHeader (packet : VideoPacket)
  | videoPayload (packet : VideoPacket)
  deriving DecidableEq, Repr

/-- Queued work. -/
inductive Task where
  /-- Read `length` bytes, issued in session `ticket` at stream position `offset`. -/
  | read (ticket : UInt64) (offset : Nat) (length : Nat)
  /-- Start the selected tracks. -/
  | start (selection : List TrackKind) (position : StartPosition)
  | pause
  | stop
  deriving DecidableEq, Repr

/-- Everything a demuxer holds. -/
structure Source where
  config : SourceConfig
  phase : Phase := .invalid
  stream : Option ByteStream := none
  survey : Survey := {}
  video : Option Track := none
  audio : Option Track := none
  presentation : Option Presentation := none
  readInFlight : Bool := false
  pending : Option ReadStep := none
  /-- A control operation is queued and not yet run. -/
  pendingOp : Bool := false
  /-- The next tag read starts at the first media tag. -/
  rewindPending : Bool := false
  /-- The next tag read first passes over the size of the previous tag. -/
  skipPrefix : Bool := true
  /-- The AVC configuration in force while streaming. -/
  avcConfig : Option Avc.Config := none
  /-- The configuration in force has gone out before a NAL unit sample. -/
  avcConfigSent : Bool := false
  /-- Selected tracks whose end of stream is still to come. -/
  pendingEos : Nat := 0
  eopSent : Bool := false
  /-- An open waits for its answer. -/
  awaitingOpen : Bool := false
  openResult : Option (Except SourceError Presentation) := none
  scannedTags : Nat := 0
  session : Session := {}
  /-- Events reported so far, oldest first. -/
  events : List Event := []
  /-- Queued tasks, next first. -/
  tasks : List Task := []

namespace Source

/-- A demuxer that has not been opened. -/
def create (config : SourceConfig) : Source := { config }

/-- The track of a kind, if the file has one. -/
def track (s : Source) : TrackKind → Option Track
  | .video => s.video
  | .audio => s.audio

/-- The record with the track of a kind replaced. -/
def setTrack (s : Source) : TrackKind → Track → Source
  | .video, t => { s with video := some t }
  | .audio, t => { s with audio := some t }

/-- Whether the track of a kind exists and is selected. -/
def isActive (s : Source) (k : TrackKind) : Bool := (s.track k).any (·.active)

/-- Whether some track wants more data. -/
def wantsData (s : Source) : Bool := s.video.any Track.needsData || s.audio.any Track.needsData

/-- Whether the demuxer is open: stopped, started or paused. -/
def isOpen (s : Source) : Bool :=
  s.phase = .stopped || s.phase = .started || s.phase = .paused

end Source

/-- A step of the engine that may fail. -/
abbrev Step := ExceptT SourceError (StateM Source)

def emit (evs : List Event) : StateM Source Unit :=
  modify fun s => { s with events := s.events ++ evs }

def spawn (t : Task) : StateM Source Unit :=
  modify fun s => { s with tasks := s.tasks ++ [t] }

/-- A framing result as a step; a format error fails the step. -/
def ofFormat {α : Type} : Except FormatError α → Step α
  | .ok a => pure a
  | .error e => throw (.format e)

/-- A seek of the stream; the demuxer must still hold one. -/
def seekStream (target : SeekTarget) : Step Unit := do
  let s ← get
  let some stream := s.stream | throw .shutdown
  match stream.seek target with
  | .ok (_, moved) => set { s with stream := some moved }
  | .error f => throw (.io f)

/-- Positions the stream when asked, then queues a read of `length` bytes for `step`. -/
def issueRead (step : ReadStep) (target : Option SeekTarget) (length : Nat) : Step Unit := do
  if let some t := target then seekStream t
  let s ← get
  let some stream := s.stream | throw .shutdown
  set { s with readInFlight := true, pending := some step }
  spawn (.read s.session.ticket stream.position length)

/-- Queues the read of the next tag header. After a stop it starts at the first media tag;
otherwise, except right after open, it first passes over the size of the previous tag. -/
def readNextTag : Step Unit := do
  let s ← get
  let target : Option SeekTarget :=
    if s.rewindPending then some (.start s.survey.firstMediaOffset)
    else if s.skipPrefix then some (.current previousTagSizeLength)
    else none
  set { s with rewindPending := false, skipPrefix := true }
  issueRead .tagHeader target tagHeaderLength

/-- Passes over `n` bytes of the current tag. -/
def skipBytes (n : Nat) : Step Unit := seekStream (.current n)

/-- Shuts the demuxer down: tracks, stream and scan are dropped, a waiting open is refused,
and later reads are stale. Shutting down twice changes nothing. -/
def shutdownNow : StateM Source Unit := modify fun s =>
  if s.phase = .shutdown then s else
  let s := { s with
    session := s.session.shutdown
    phase := .shutdown
    video := s.video.map Track.shutdown
    audio := s.audio.map Track.shutdown
    stream := none
    survey := {}
    pending := none
    avcConfig := none }
  if s.awaitingOpen then { s with awaitingOpen := false, openResult := some (.error .shutdown) }
  else s

/-- Reports a failure, to a waiting open or as an event, and shuts down. -/
def fail (e : SourceError) : StateM Source Unit := do
  let s ← get
  if s.awaitingOpen then set { s with awaitingOpen := false, openResult := some (.error e) }
  else emit [.error e]
  shutdownNow

/-- Runs a step; a failure is reported and shuts the demuxer down. -/
def guarded (step : Step Unit) : StateM Source Unit := do
  match ← step.run with
  | .ok () => pure ()
  | .error e => fail e

/-- Counts a track that has ended; the last selected track to end ends the presentation. -/
def onSignal (sig : Signal) : StateM Source Unit := modify fun s =>
  if sig ≠ .endOfStream || s.pendingEos = 0 then s else
  let s := { s with pendingEos := s.pendingEos - 1 }
  if s.pendingEos = 0 && !s.eopSent then
    { s with eopSent := true, events := s.events ++ [.endOfPresentation] }
  else s

/-- Applies a track operation to the track of a kind, reporting its events; no track, no
signal. -/
def onTrack (k : TrackKind) (f : Track → Track × List Event × Signal) : StateM Source Signal := do
  let s ← get
  match s.track k with
  | none => pure .none
  | some t =>
    let (t, evs, sig) := f t
    set (s.setTrack k t)
    emit evs
    pure sig

/-- Starts reading the next tag when the demuxer streams, no read is outstanding, and some
track wants data. -/
def pump : StateM Source Unit := do
  let s ← get
  if (s.phase = .started || s.phase = .paused) && !s.readInFlight && s.wantsData then
    guarded readNextTag

end FlvDemux.Engine
