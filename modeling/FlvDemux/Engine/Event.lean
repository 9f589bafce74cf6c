import FlvDemux.Engine.Descriptor
import FlvDemux.Engine.Error

/-!
# Samples and events

A `Sample` is what a track delivers: one or more buffers, a presentation time and a composition
offset in units of 100 ns, and whether it is a key frame. A demuxer reports what happens on a
list of `Event`s, in order: tracks announced and started, paused and stopped, samples paired
with the request tokens they answer, the end of each track and of the whole presentation, and
failures while streaming.
-/

namespace FlvDemux.Engine

/-- A unit of media delivered by a track. -/
structure Sample where
  buffers : List (List UInt8)
  timestampHns : UInt64
  compositionOffsetHns : Int := 0
  keyFrame : Bool := false
  deriving DecidableEq, Repr

/-- The total number of bytes of a sample. -/
def Sample.length (s : Sample) : Nat := (s.buffers.map List.length).foldl (· + ·) 0

/-- Where a start begins: where the tracks are, or at a time. -/
inductive StartPosition where
  | current
  | at (timeHns : UInt64)
  deriving DecidableEq, Repr

/-- What a demuxer reports. -/
inductive Event where
  | newStream (track : TrackKind)
  | updatedStream (track : TrackKind)
  | sourceStarted
  | sourcePaused
  | sourceStopped
  | streamStarted (track : TrackKind)
  | streamPaused (track : TrackKind)
  | streamStopped (track : TrackKind)
  | sample (track : TrackKind) (sample : Sample) (token : Option UInt64)
  | endOfStream (track : TrackKind)
  | endOfPresentation
  | error (error : SourceError)
  deriving DecidableEq, Repr

end FlvDemux.Engine
