import FlvDemux.Engine.Discovery
import FlvDemux.Engine.Demux

/-!
# Control of a demuxer

`start`, `pause` and `stop` are checked and queued, one at a time; `requestSample` answers or
queues a request and reads on; `beginOpen` queues the read of the file header and answers through
`openResult`. A completed read with a stale session ticket is dropped.
-/

namespace FlvDemux.Engine

/-- Handles the outcome of a completed read: its bytes, or the fault that stopped it, which
fails the demuxer unless the read is stale. -/
def resume (ticket : UInt64) (offset : Nat) (result : Except Fault (List UInt8)) :
    StateM Source Unit := do
  let s ← get
  set { s with readInFlight := false, pending := none }
  if !s.session.isCurrent ticket then
    pump
  else
    match s.pending, result with
    | none, _ => pure ()
    | some _, .error f => fail (.io f)
    | some step, .ok data =>
      match s.phase with
      | .opening => guarded (scanStep step data offset)
      | .started | .paused => guarded (streamStep step data offset)
      | _ => pure ()

/-- Starts the track of a kind for a start with `selection`; a track left out is deselected.
Returns the track's signal when it is started. -/
def startTrack (selection : List TrackKind) (pos : StartPosition) (k : TrackKind) :
    StateM Source (Option Signal) := do
  let s ← get
  match s.track k with
  | none => pure none
  | some t =>
    let selected := selection.contains k
    let t' := t.activate selected
    if !selected then
      let s := s.setTrack k t'
      set (if t.active && k = .video then { s with avcConfigSent := false } else s)
      pure none
    else
      let s := s.setTrack k t'
      set (if t'.eosSent then s else { s with pendingEos := s.pendingEos + 1 })
      emit [if t.active then .updatedStream k else .newStream k]
      some <$> onTrack k (·.start pos)

def runStart (selection : List TrackKind) (pos : StartPosition) : StateM Source Unit := do
  modify fun s => { s with pendingOp := false }
  if (← get).phase ≠ .shutdown then
    modify fun s => { s with pendingEos := 0, eopSent := false }
    let signals ← TrackKind.all.filterMapM (startTrack selection pos)
    modify fun s => { s with phase := .started }
    emit [.sourceStarted]
    signals.forM onSignal
    pump

/-- The events of a track operation without a signal, applied to the track of a kind. -/
def onTrackQuietly (k : TrackKind) (f : Track → Track × List Event) : StateM Source Unit := do
  let _ ← onTrack k fun t => let (t, evs) := f t; (t, evs, .none)

def runPause : StateM Source Unit := do
  modify fun s => { s with pendingOp := false }
  if (← get).phase = .started then
    modify fun s => { s with phase := .paused }
    TrackKind.all.forM fun k => onTrackQuietly k Track.pause
    emit [.sourcePaused]

/-- The queued work of a stop: rewinds, makes outstanding reads stale and clears the tracks. -/
def runStop : StateM Source Unit := do
  modify fun s => { s with pendingOp := false }
  if (← get).phase ≠ .shutdown then
    let s ← get
    let rewound : Except Fault (Option ByteStream) := match s.stream with
      | some st => (fun r => some r.2) <$> st.seek (.start 0)
      | none => .ok none
    match rewound with
    | .error f => fail (.io f)
    | .ok stream =>
      set { s with stream, session := s.session.restart }
      TrackKind.all.forM fun k => onTrackQuietly k Track.stop
      modify fun s => { s with
        rewindPending := true
        avcConfig := s.survey.avcConfig
        avcConfigSent := false
        pendingEos := 0
        eopSent := false
        phase := .stopped }
      emit [.sourceStopped]

/-- Runs one queued task. A read takes its bytes from the stream as it stands now. -/
def runTask : Task → StateM Source Unit
  | .read ticket offset length => do
    let s ← get
    let result ← match s.stream with
      | some st =>
        match st.read length with
        | .ok (bytes, st) =>
          set { s with stream := some st }
          pure (.ok bytes)
        | .error f => pure (.error f)
      | none => pure (.ok [])
    resume ticket offset result
  | .start selection pos => runStart selection pos
  | .pause => runPause
  | .stop => runStop

/-- Runs the queued task at place `i`, if there is one; says whether there was. Queued tasks are
spawned work that runs in no fixed order, so any of them may be the next to run. -/
def runAt (i : Nat) : StateM Source Bool := do
  match (← get).tasks[i]? with
  | none => pure false
  | some t =>
    modify fun s => { s with tasks := s.tasks.eraseIdx i }
    runTask t
    pure true

/-- Runs the oldest queued task, if there is one; says whether there was. -/
def runNext : StateM Source Bool := runAt 0

/-- Claims the single slot for a queued control operation. -/
def beginOperation : Step Unit := do
  if (← get).pendingOp then throw .notAccepting
  modify fun s => { s with pendingOp := true }

/-- Fails unless the demuxer is open; a shut-down demuxer fails with `shutdown`. -/
def requireOpen : Step Unit := do
  let s ← get
  if s.phase = .shutdown then throw .shutdown
  if !s.isOpen then throw (.invalidRequest .notOpen)

/-- Takes a byte stream and queues the read of the file header. -/
def beginOpen (stream : ByteStream) : Step Unit := do
  let s ← get
  match s.phase with
  | .invalid => pure ()
  | .shutdown => throw .shutdown
  | _ => throw (.invalidRequest .alreadyOpen)
  if !stream.seekable || !stream.readable then
    shutdownNow
    throw (.invalidRequest .streamNotUsable)
  set { s with phase := .opening, stream := some stream, awaitingOpen := true }
  guarded (issueRead .fileHeader (some (.start 0)) Flv.fileHeaderLength)

/-- Checks a start and queues it. Only a start from the beginning in the stopped phase may give
a time, and that time must be 0. -/
def start (given : Presentation) (pos : StartPosition) : Step Unit := do
  requireOpen
  let s ← get
  if !s.presentation.any (·.sameStreams given) then
    throw (.invalidRequest .foreignPresentation)
  let selection := given.selected
  if selection.isEmpty then throw (.invalidRequest .nothingSelected)
  if let .at t := pos then
    if t ≠ 0 || s.phase ≠ .stopped then throw (.invalidRequest .seekUnsupported)
  beginOperation
  spawn (.start selection pos)

def pause : Step Unit := do
  let s ← get
  if s.phase = .shutdown then throw .shutdown
  if s.phase ≠ .started then throw (.invalidRequest .pauseNeedsStarted)
  beginOperation
  spawn .pause

def stop : Step Unit := do
  requireOpen
  beginOperation
  spawn .stop

/-- Asks the track of a kind for a sample, answered now or later with `token`. -/
def requestSample (k : TrackKind) (token : Option UInt64) : Step Unit := do
  let s ← get
  if s.phase = .shutdown then throw .shutdown
  let some t := s.track k | throw (.invalidRequest .noSuchStream)
  match t.request token with
  | .error e => throw e
  | .ok (t, evs, sig) =>
    set (s.setTrack k t)
    emit evs
    onSignal sig
    pump

/-- The presentation of an open demuxer. -/
def presentationOf (s : Source) : Except SourceError Presentation :=
  if s.phase = .shutdown then .error .shutdown
  else match s.presentation with
    | some p => .ok p
    | none => .error (.invalidRequest .notOpen)

/-- The description of the stream of a kind, unless the demuxer is shut down. -/
def streamOf (s : Source) (k : TrackKind) : Option StreamDescriptor :=
  if s.phase = .shutdown then none else s.presentation.bind (·.stream? k)

/-- Whether the demuxer can still be asked about what it can do. -/
def characteristicsOf (s : Source) : Except SourceError Unit :=
  if s.phase = .shutdown then .error .shutdown else .ok ()

end FlvDemux.Engine
