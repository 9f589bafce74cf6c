/-!
# Configuration of a demuxer

How many samples each track holds ready (1 to 4; a configured depth is moved into that range),
how many tags the scan at open may look at before it describes what it has seen, and whether a
file without `onMetaData` is refused.
-/

namespace FlvDemux.Engine

/-- The largest number of samples a track holds ready. -/
def maxQueueDepth : Nat := 4

/-- The settings of a demuxer. -/
structure SourceConfig where
  queueDepth : Nat := maxQueueDepth
  tagLimit : Option Nat := none
  requireMetadata : Bool := false
  deriving DecidableEq, Repr

namespace SourceConfig

/-- A depth moved into 1 to `maxQueueDepth`. -/
def clampDepth (d : Nat) : Nat := min (max d 1) maxQueueDepth

/-- The settings with the queue depth `d`, moved into range. -/
def withDepth (c : SourceConfig) (d : Nat) : SourceConfig := { c with queueDepth := clampDepth d }

/-- The settings with a limit on the tags scanned at open. -/
def withTagLimit (c : SourceConfig) (n : Nat) : SourceConfig := { c with tagLimit := some n }

/-- The settings with metadata required or not. -/
def withRequireMetadata (c : SourceConfig) (b : Bool) : SourceConfig :=
  { c with requireMetadata := b }

/-- A one-line description of the settings. -/
def describe (c : SourceConfig) : String :=
  let limit := match c.tagLimit with
    | some n => s!"{n} tags"
    | none => "unlimited"
  s!"SourceConfig \x7b sample_queue_depth: {c.queueDepth}, discovery_tag_limit: {limit}, " ++
    s!"require_metadata: {c.requireMetadata} \x7d"

end SourceConfig

end FlvDemux.Engine
