import FlvDemux.Engine.Event

/-!
# Flow control of one track

A track holds up to `depth` samples ready, more in an overflow list, and the request tokens not
yet answered. While started it pairs ready samples with requests in order; it wants data
(`needsData`) while active, not at its end, with room and nothing in overflow, and reports its
end once its ready samples are taken.
-/

namespace FlvDemux.Engine

/-- The state of a track. -/
inductive TrackPhase where
  | stopped
  | paused
  | started
  | shutdown
  deriving DecidableEq, Repr

/-- What a track tells the demuxer after an operation. -/
inductive Signal where
  | none
  | requestData
  | endOfStream
  deriving DecidableEq, Repr

/-- The flow-control state of one track. -/
structure Track where
  kind : TrackKind
  phase : TrackPhase := .stopped
  active : Bool := false
  endOfStream : Bool := false
  eosSent : Bool := false
  depth : Nat
  samples : List Sample := []
  overflow : List Sample := []
  requests : List (Option UInt64) := []
  deriving DecidableEq, Repr

namespace Track

/-- A new track of kind `kind` holding up to `depth` samples ready. -/
def new (kind : TrackKind) (depth : Nat) : Track := { kind, depth }

def needsData (t : Track) : Bool :=
  t.active && !t.endOfStream && t.overflow.isEmpty && t.samples.length < t.depth

/-- The track with its ready samples topped up from the overflow. -/
def refill (t : Track) : Track :=
  let k := t.depth - t.samples.length
  { t with samples := t.samples ++ t.overflow.take k, overflow := t.overflow.drop k }

/-- Pairs ready samples with requests, in order, topping up after each pair. -/
def serve (t : Track) : List (Option UInt64) → Track × List Event
  | [] => ({ t with requests := [] }, [])
  | r :: rs =>
    match t.samples with
    | [] => ({ t with requests := r :: rs }, [])
    | s :: ss =>
      let (t', evs) := serve (refill { t with samples := ss }) rs
      (t', .sample t.kind s r :: evs)

/-- Answers what can be answered, then says whether the track ended or wants data. -/
def dispatch (t : Track) : Track × List Event × Signal :=
  if t.phase ≠ .started then (t, [], .none) else
  let (t, evs) := serve (refill t) t.requests
  if t.samples.isEmpty && t.endOfStream then
    if t.eosSent then (t, evs, .none)
    else ({ t with eosSent := true }, evs ++ [.endOfStream t.kind], .endOfStream)
  else (t, evs, if t.needsData then .requestData else .none)

/-- Selects or deselects the track; deselecting drops its samples and requests. -/
def activate (t : Track) (on : Bool) : Track :=
  if t.active = on then t
  else if on then { t with active := true }
  else { t with active := false, samples := [], overflow := [], requests := [] }

/-- Starts the track; a start at a time drops its samples. -/
def start (t : Track) (pos : StartPosition) : Track × List Event × Signal :=
  let t := { t with phase := .started }
  let t := match pos with
    | .at _ => { t with samples := [], overflow := [] }
    | .current => t
  let (t, evs, sig) := dispatch t
  (t, .streamStarted t.kind :: evs, sig)

def pause (t : Track) : Track × List Event :=
  ({ t with phase := .paused }, if t.active then [.streamPaused t.kind] else [])

/-- Stops the track, dropping samples and requests and forgetting the end of the stream. -/
def stop (t : Track) : Track × List Event :=
  let t' := { t with phase := .stopped, samples := [], overflow := [], requests := [] }
  ({ t' with endOfStream := false, eosSent := false },
    if t.active then [.streamStopped t.kind] else [])

def shutdown (t : Track) : Track :=
  { t with phase := .shutdown, active := false, samples := [], overflow := [], requests := [] }

def markEnd (t : Track) : Track × List Event × Signal :=
  dispatch { t with endOfStream := true }

def request (t : Track) (token : Option UInt64) :
    Except SourceError (Track × List Event × Signal) :=
  match t.phase with
  | .shutdown => .error .shutdown
  | .stopped => .error (.invalidRequest .streamStopped)
  | .paused | .started =>
    if !t.active then .error (.invalidRequest .streamNotSelected)
    else if t.endOfStream && t.samples.isEmpty && t.overflow.isEmpty then .error .endOfStream
    else .ok (dispatch { t with requests := t.requests ++ [token] })

/-- Takes a sample: ready if there is room and nothing waits in overflow, else into overflow.
An inactive track drops it. -/
def deliver (t : Track) (s : Sample) : Track × List Event × Signal :=
  if !t.active then (t, [], .none)
  else if t.samples.length < t.depth && t.overflow.isEmpty then
    dispatch { t with samples := t.samples ++ [s] }
  else dispatch { t with overflow := t.overflow ++ [s] }

end Track

end FlvDemux.Engine
