import FlvDemux.Engine.Control

/-!
# A client driving a demuxer

A client gives its demuxer one order at a time and then settles it, running the queued tasks
oldest first until none is left; a `nowait` order leaves its work to a later one. A successful
open hands out one handle per track, and dropping the demuxer shuts it down. Each order is
answered with a `Report`.
-/

namespace FlvDemux.Engine

/-- An order to a demuxer. -/
inductive Command where
  /-- Open the demuxer on the client's bytes, or on the given ones. -/
  | open (file : Option (List UInt8))
  /-- Start, at a time or where it stands; `select` replaces the selection of the presentation
  open gave, and `foreign` starts with an empty presentation instead. -/
  | start (time : Option UInt64) (select : Option (List TrackKind)) (foreign : Bool)
  | pause
  | stop
  | shutdown
  /-- Ask the handle of a track for a sample. -/
  | request (track : TrackKind) (token : Option UInt64)
  | characteristics
  | presentation
  | stream (track : TrackKind)
  | metadata
  | state
  | settle
  | drop
  deriving Repr

/-- An order, and whether it leaves its queued work unsettled. -/
structure Order where
  command : Command
  nowait : Bool := false
  deriving Repr

/-- What an order gives back when it succeeds. -/
inductive Answer where
  | nothing
  | presentation (p : Presentation)
  | characteristics (canPause canSeek : Bool)
  | stream (d : Option StreamDescriptor)
  | metadata (m : Option Script.Metadata)

/-- Why an order failed: the demuxer refused it, the client holds no handle for the track, or
the demuxer was dropped. -/
inductive ClientError where
  | source (e : SourceError)
  | noHandle (track : TrackKind)
  | dropped
  deriving DecidableEq, Repr

namespace ClientError

def name : ClientError → String
  | .source e => e.name
  | .noHandle _ => "NoHandle"
  | .dropped => "Dropped"

def message : ClientError → String
  | .source e => e.message
  | .noHandle k => s!"no {k.name} stream handle"
  | .dropped => "the source was dropped"

end ClientError

/-- The answer to one order. -/
structure Report where
  result : Except ClientError Answer
  events : List Event
  /-- The phase after the order, or `"Dropped"`. -/
  state : String

/-- A client and its demuxer. -/
structure Client where
  source : Source
  file : List UInt8
  backing : Backing := .memory
  readable : Bool := true
  seekable : Bool := true
  /-- The presentation the last successful open gave. -/
  opened : Option Presentation := none
  /-- The tracks the client holds handles for. -/
  handles : List TrackKind := []
  dropped : Bool := false

/-- Runs queued tasks until none is left or `fuel` tasks have run. -/
def settleWith : Nat → StateM Source Unit
  | 0 => pure ()
  | fuel + 1 => do
    if ← runNext then settleWith fuel

/-- Runs queued tasks until the open has its answer, or none is left, or `fuel` have run. -/
def awaitOpenWith : Nat → StateM Source Unit
  | 0 => pure ()
  | fuel + 1 => do
    if (← get).openResult.isNone then
      if ← runNext then awaitOpenWith fuel

/-- A bound on the tasks one settle runs. Within one session each tag costs at most four reads
and moves the stream forward by at least fifteen bytes; every queued control task may start a
new session. -/
def taskBound (s : Source) : Nat :=
  (s.tasks.length + 1) * (4 * ((s.stream.map (·.data.length)).getD 0 + 1) + 8)

def settle : StateM Source Unit := do
  settleWith (taskBound (← get))

/-- Opens the demuxer on a stream and waits for the scan to answer. -/
def openOn (stream : ByteStream) : StateM Source (Except SourceError Presentation) := do
  match ← (beginOpen stream).run with
  | .error e => pure (.error e)
  | .ok () =>
    awaitOpenWith (taskBound (← get))
    let s ← get
    set { s with openResult := none, awaitingOpen := false }
    pure (s.openResult.getD (.error .shutdown))

namespace Client

/-- A client of a new demuxer with `config`, playing `file`. -/
def create (config : SourceConfig) (file : List UInt8) : Client :=
  { source := Source.create config, file }

/-- Runs a demuxer action on the client's demuxer. -/
def onSource {α : Type} (c : Client) (act : StateM Source α) : α × Client :=
  let (a, s) := act.run c.source
  (a, { c with source := s })

/-- Runs a fallible demuxer step; its failure is the client's. -/
def onStep {α : Type} (c : Client) (step : Step α) : Except ClientError α × Client :=
  let (r, c) := c.onSource step.run
  (r.mapError .source, c)

/-- The presentation a start hands over. -/
def startPresentation (c : Client) (select : Option (List TrackKind)) (foreign : Bool) :
    Presentation :=
  let given := if foreign then {} else c.opened.getD {}
  match select with
  | some ks => given.selectOnly ks
  | none => given

/-- Carries out a command, without settling afterwards. -/
def perform (c : Client) : Command → Except ClientError Answer × Client
  | .request k token =>
    if !c.handles.contains k then (.error (.noHandle k), c)
    else if c.dropped then (.error (.source .shutdown), c)
    else
      let (r, c) := c.onStep (requestSample k token)
      (r.map fun _ => .nothing, c)
  | .state | .settle => (.ok .nothing, c)
  | cmd =>
    if c.dropped then (.error .dropped, c) else
    match cmd with
    | .open file =>
      let stream : ByteStream := {
        data := file.getD c.file
        backing := c.backing
        readable := c.readable
        seekable := c.seekable }
      let (r, c) := c.onSource (openOn stream)
      match r with
      | .ok p =>
        let c := { c with opened := some p }
        let kinds := TrackKind.all.filter fun k => (streamOf c.source k).isSome
        (.ok (.presentation p), { c with handles := kinds })
      | .error e => (.error (.source e), c)
    | .start time select foreign =>
      let pos : StartPosition := match time with
        | some t => .at t
        | none => .current
      let (r, c) := c.onStep (start (c.startPresentation select foreign) pos)
      (r.map fun _ => .nothing, c)
    | .pause =>
      let (r, c) := c.onStep pause
      (r.map fun _ => .nothing, c)
    | .stop =>
      let (r, c) := c.onStep stop
      (r.map fun _ => .nothing, c)
    | .shutdown =>
      let ((), c) := c.onSource shutdownNow
      (.ok .nothing, c)
    | .characteristics =>
      ((characteristicsOf c.source).map (fun _ => .characteristics true false) |>.mapError .source, c)
    | .presentation => ((presentationOf c.source).map .presentation |>.mapError .source, c)
    | .stream k => (.ok (.stream (streamOf c.source k)), c)
    | .metadata => (.ok (.metadata c.source.survey.metadata), c)
    | .drop =>
      let ((), c) := c.onSource shutdownNow
      (.ok .nothing, { c with dropped := true })
    | .request .. | .state | .settle => (.ok .nothing, c)

/-- Whether an order settles the demuxer after it. -/
def settles (c : Client) (o : Order) : Bool :=
  match o.command with
  | .drop => true
  | _ => !o.nowait || c.backing = .file

/-- Carries out an order, settles when it should, and reports. -/
def step (c : Client) (o : Order) : Report × Client :=
  let (result, c) := c.perform o.command
  let c := if c.settles o then (c.onSource settle).2 else c
  let report : Report := {
    result
    events := c.source.events
    state := if c.dropped then "Dropped" else c.source.phase.name }
  (report, { c with source := { c.source with events := [] } })

/-- Carries out orders in turn, one report each. -/
def run (c : Client) : List Order → List Report
  | [] => []
  | o :: os =>
    let (r, c) := c.step o
    r :: run c os

end Client

end FlvDemux.Engine
