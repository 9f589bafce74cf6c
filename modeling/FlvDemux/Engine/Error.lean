import FlvDemux.Flv.Error

/-!
# Failures of a demuxer

A `SourceError` says why a demuxer operation failed: malformed FLV data, a byte stream fault,
no playable track, a request that does not fit the demuxer's state (`Refusal` says which),
another control operation still waiting, the end of a track, or a demuxer that has been shut
down. Each has a `name` for its kind and a `message`.
-/

namespace FlvDemux.Engine

/-- Why a request does not fit the demuxer's state. -/
inductive Refusal where
  | noSuchStream
  | streamStopped
  | streamNotSelected
  | alreadyOpen
  | streamNotUsable
  | notOpen
  | foreignPresentation
  | nothingSelected
  | seekUnsupported
  | pauseNeedsStarted
  deriving DecidableEq, Repr

def Refusal.reason : Refusal → String
  | .noSuchStream => "no such stream"
  | .streamStopped => "stream is stopped"
  | .streamNotSelected => "stream is not selected"
  | .alreadyOpen => "source is already open"
  | .streamNotUsable => "byte stream must be seekable and readable"
  | .notOpen => "source is not open"
  | .foreignPresentation => "presentation does not belong to this source"
  | .nothingSelected => "no stream selected"
  | .seekUnsupported => "seeking is only supported to the start from the stopped state"
  | .pauseNeedsStarted => "pause requires a started source"

/-- Why a demuxer operation failed. -/
inductive SourceError where
  | format (error : Flv.FormatError)
  | io (fault : Fault)
  | noStreams
  | invalidRequest (refusal : Refusal)
  | notAccepting
  | endOfStream
  | shutdown
  deriving DecidableEq, Repr

namespace SourceError

/-- The name of the kind of a demuxer failure. -/
def name : SourceError → String
  | .format _ => "Format"
  | .io _ => "Io"
  | .noStreams => "NoStreams"
  | .invalidRequest _ => "InvalidRequest"
  | .notAccepting => "NotAccepting"
  | .endOfStream => "EndOfStream"
  | .shutdown => "Shutdown"

def message : SourceError → String
  | .format e => s!"Malformed FLV data: {e.message}"
  | .io fault => s!"I/O error: {fault.message}"
  | .noStreams => "No playable audio or video stream"
  | .invalidRequest r => s!"Invalid request: {r.reason}"
  | .notAccepting => "Another operation is still pending"
  | .endOfStream => "End of stream"
  | .shutdown => "Source has been shut down"

end SourceError

end FlvDemux.Engine
