/-!
# Keyframe index

File positions paired with times and sorted stably by time; `lookup t` finds the last keyframe at
or before `t`, or the first when every keyframe comes later.
-/

namespace FlvDemux.Script

/-- A keyframe: where it is in the file and when it is shown. -/
structure Keyframe where
  position : UInt64
  timeHns : UInt64
  deriving DecidableEq, Repr

/-- The time of a keyframe in milliseconds. -/
def Keyframe.timeMs (k : Keyframe) : Nat := k.timeHns.toNat / 10000

/-- Keyframes sorted by time. -/
structure KeyframeIndex where
  entries : List Keyframe := []
  deriving DecidableEq, Repr

namespace KeyframeIndex

/-- The index of positions and times paired in order, up to the shorter list, sorted stably by
time. -/
def ofLists (positions timesHns : List UInt64) : KeyframeIndex :=
  ⟨((timesHns.zip positions).map fun (t, p) => ⟨p, t⟩).mergeSort
    fun a b => a.timeHns ≤ b.timeHns⟩

def positions (i : KeyframeIndex) : List UInt64 := i.entries.map (·.position)

def timesHns (i : KeyframeIndex) : List UInt64 := i.entries.map (·.timeHns)

/-- The keyframe to start from for time `t`: the last at or before `t`, else the first. -/
def lookup (i : KeyframeIndex) (t : UInt64) : Option Keyframe :=
  if i.entries.isEmpty then none
  else i.entries[(i.entries.takeWhile (·.timeHns ≤ t)).length - 1]?

end KeyframeIndex

end FlvDemux.Script
