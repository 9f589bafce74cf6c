import FlvDemux.Amf.Decode
import FlvDemux.Flv.Error
import FlvDemux.Flv.Audio
import FlvDemux.Script.KeyframeIndex

/-!
# Stream metadata from `onMetaData`

`Metadata.decode` reads the map of an `onMetaData` script tag into a `Metadata` record, property
by property in the order written, a later property replacing an earlier one of the same name. A
value of an unexpected type, or of an unknown name, is passed over; numbers become whole numbers
as `Binary64.truncate` says, and seconds become units of 100 ns.
-/

namespace FlvDemux.Script

open Amf

/-- Seconds as units of 100 ns: negative and NaN give zero. -/
def secondsToHns (seconds : UInt64) : Nat :=
  Binary64.roundHalfAway (Binary64.scale (Binary64.clampNonneg seconds) 10000000) (Nat.pow 2 64 - 1)

/-- Kilobits per second as bits per second: negative and NaN give zero. -/
def kilobitsToBits (rate : UInt64) : Nat :=
  Binary64.truncate (Binary64.scale (Binary64.clampNonneg rate) 1000) (Nat.pow 2 32 - 1)

/-- A number read as an unsigned word of `bits` bits. -/
def toWord (v : UInt64) (bits : Nat) : Nat := Binary64.truncate v (Nat.pow 2 bits - 1)

/-- What `onMetaData` says about a stream. -/
structure Metadata where
  duration : UInt64 := 0
  width : Nat := 0
  height : Nat := 0
  frameRate : UInt64 := 0
  videoDataRate : UInt64 := 0
  videoCodecId : Option Nat := none
  audioCodecId : Option Nat := none
  audioSampleRate : Nat := 0
  audioSampleSize : Nat := 0
  audioDataRate : UInt64 := 0
  stereo : Bool := false
  fileSize : Nat := 0
  dataSize : Nat := 0
  audioSize : Nat := 0
  audioDelay : UInt64 := 0
  lastTimestamp : UInt64 := 0
  lastKeyframeTimestamp : UInt64 := 0
  keyframes : KeyframeIndex := {}
  hasAudio : Bool := false
  hasVideo : Bool := false
  hasMetadata : Bool := false
  canSeekToEnd : Bool := false
  /-- The number of properties stored. -/
  recognized : Nat := 0
  deriving Repr

/-- A number, if the next value is one; otherwise the value is passed over. -/
def readNumber : Decoder (Option UInt64) := do
  if (← Decoder.peekMarker) = .number then return (← decode).asNumber
  skip
  return none

/-- A truth value, if the next value is a boolean or a number; otherwise it is passed over. -/
def readFlag : Decoder (Option Bool) := do
  let m ← Decoder.peekMarker
  if m = .boolean ∨ m = .number then return (← decode).asBool
  skip
  return none

/-- The numbers of a strict array, booleans as 0 and 1; anything else is passed over. -/
def readNumbers : Decoder (List UInt64) := do
  if (← Decoder.peekMarker) ≠ .strictArray then
    skip
    return []
  match ← decode with
  | .strictArray vs => return vs.filterMap Value.asNumber
  | _ => return []

/-- The lists of positions and times of a keyframe map, at most `bound` properties; the last
list of each name wins. -/
def keyframeListsUpTo : Nat → List UInt64 → List UInt64 → Decoder (List UInt64 × List UInt64)
  | 0, ps, ts => pure (ps, ts)
  | bound + 1, ps, ts => do
    match ← Decoder.nextKey with
    | none => pure (ps, ts)
    | some "filepositions" => keyframeListsUpTo bound (← readNumbers) ts
    | some "times" => keyframeListsUpTo bound ps (← readNumbers)
    | some _ =>
      skip
      keyframeListsUpTo bound ps ts

/-- The keyframe index of lists of positions and times: positions are clamped at zero, times
are seconds. -/
def keyframeIndexOf (ps ts : List UInt64) : KeyframeIndex :=
  KeyframeIndex.ofLists (ps.map fun p => (toWord (Binary64.clampNonneg p) 64).toUInt64)
    (ts.map fun t => (secondsToHns t).toUInt64)

/-- A keyframe index, if the next value is a map; otherwise it is passed over. -/
def readKeyframes : Decoder (Option KeyframeIndex) := do
  let m ← Decoder.peekMarker
  if m ≠ .object ∧ m ≠ .ecmaArray then
    skip
    return none
  let _ ← mapHeader
  let (ps, ts) ← keyframeListsUpTo (← Reader.remaining) [] []
  return some (keyframeIndexOf ps ts)

/-- The audio sample rate of a metadata value: below 4 it is a rate code. -/
def sampleRateOf (v : Nat) : Nat := if v < 4 then Flv.SoundRate.hzOfCode v else v

/-- How the value of a well-known property is read, and where it is stored. -/
inductive Slot where
  /-- A number, stored by `set`. -/
  | number (set : Metadata → UInt64 → Metadata)
  /-- A boolean or a number, as a truth value, stored by `set`. -/
  | flag (set : Metadata → Bool → Metadata)
  /-- A map of keyframe positions and times. -/
  | keyframes

namespace Metadata

/-- The slot of each of the 22 well-known properties; `none` for any other name. -/
def slot? : String → Option Slot
  | "duration" => some (.number fun m v => { m with duration := v })
  | "width" => some (.number fun m v => { m with width := toWord v 32 })
  | "height" => some (.number fun m v => { m with height := toWord v 32 })
  | "framerate" => some (.number fun m v => { m with frameRate := v })
  | "videodatarate" => some (.number fun m v => { m with videoDataRate := v })
  | "videocodecid" => some (.number fun m v => { m with videoCodecId := toWord v 8 })
  | "audiocodecid" => some (.number fun m v => { m with audioCodecId := toWord v 8 })
  | "audiosamplerate" =>
    some (.number fun m v => { m with audioSampleRate := sampleRateOf (toWord v 32) })
  | "audiosamplesize" => some (.number fun m v => { m with audioSampleSize := toWord v 32 })
  | "audiodatarate" => some (.number fun m v => { m with audioDataRate := v })
  | "stereo" => some (.flag fun m v => { m with stereo := v })
  | "filesize" => some (.number fun m v => { m with fileSize := toWord v 64 })
  | "datasize" => some (.number fun m v => { m with dataSize := toWord v 64 })
  | "audiosize" => some (.number fun m v => { m with audioSize := toWord v 64 })
  | "audiodelay" => some (.number fun m v => { m with audioDelay := v })
  | "lasttimestamp" => some (.number fun m v => { m with lastTimestamp := v })
  | "lastkeyframetimestamp" => some (.number fun m v => { m with lastKeyframeTimestamp := v })
  | "keyframes" => some .keyframes
  | "hasAudio" => some (.flag fun m v => { m with hasAudio := v })
  | "hasVideo" => some (.flag fun m v => { m with hasVideo := v })
  | "hasMetadata" => some (.flag fun m v => { m with hasMetadata := v })
  | "canSeekToEnd" => some (.flag fun m v => { m with canSeekToEnd := v })
  | _ => none

/-- Reads the value of the property `key` into `m`; `none` when the value is passed over. -/
def readProperty (m : Metadata) (key : String) : Decoder (Option Metadata) :=
  match slot? key with
  | some (.number set) => return (← readNumber).map (set m)
  | some (.flag set) => return (← readFlag).map (set m)
  | some .keyframes => return (← readKeyframes).map fun v => { m with keyframes := v }
  | none => do
    skip
    return none

/-- Reads at most `bound` properties into `m`, counting those stored. -/
def readPropertiesUpTo (m : Metadata) : Nat → Decoder Metadata
  | 0 => pure m
  | bound + 1 => do
    match ← Decoder.nextKey with
    | none => pure m
    | some key =>
      match ← m.readProperty key with
      | some m' => readPropertiesUpTo { m' with recognized := m'.recognized + 1 } bound
      | none => readPropertiesUpTo m bound

/-- The metadata of a script tag body; `none` when its name is not `onMetaData`. -/
def read : Decoder (Option Metadata) := do
  let name ← decodeExpecting .string
  if name.asText ≠ some "onMetaData" then return none
  let _ ← mapHeader
  return some (← readPropertiesUpTo {} (← Reader.remaining))

/-- The metadata of a script tag body, or why it is malformed. -/
def decode (payload : List UInt8) : Except Flv.FormatError (Option Metadata) :=
  match read.run payload with
  | .ok (m, _) => .ok m
  | .error e => .error (.script e)

def durationHns (m : Metadata) : Nat := secondsToHns m.duration

/-- The video bit rate in bits per second. -/
def videoBitrate (m : Metadata) : Nat := kilobitsToBits m.videoDataRate

/-- The audio bit rate in bits per second. -/
def audioBitrate (m : Metadata) : Nat := kilobitsToBits m.audioDataRate

end Metadata

end FlvDemux.Script
