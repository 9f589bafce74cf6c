import FlvDemux.Bytes.Reader

/-!
# The AVC decoder configuration record

The record that opens an H.264 stream: version, profile, compatibility, level, the size of the NAL
length fields, and the sequence and picture parameter sets with 16-bit lengths. Reading ignores
the reserved bits, writing sets them. From a record follow `privateData` and `sequenceHeader`.
-/

namespace FlvDemux.Avc

/-- An AVC decoder configuration record. -/
structure Config where
  version : UInt8
  profile : UInt8
  compatibility : UInt8
  level : UInt8
  nalLengthSize : UInt8
  sps : List (List UInt8)
  pps : List (List UInt8)
  deriving DecidableEq, Repr

def startCode : List UInt8 := [0, 0, 0, 1]

def shortStartCode : List UInt8 := [0, 0, 1]

namespace Config

/-- `n` parameter sets, each with a 16-bit length. -/
def parameterSets : Nat → Reader Fault (List (List UInt8))
  | 0 => pure []
  | n + 1 => do
    let len ← Reader.u16
    let set ← Reader.counted len.toNat
    return set :: (← parameterSets n)

def parse : Reader Fault Config := do
  let version ← Reader.byte
  let profile ← Reader.byte
  let compatibility ← Reader.byte
  let level ← Reader.byte
  let nalLengthSize := ((← Reader.byte) &&& 0x03) + 1
  let spsCount := (← Reader.byte) &&& 0x1F
  let sps ← parameterSets spsCount.toNat
  let ppsCount ← Reader.byte
  let pps ← parameterSets ppsCount.toNat
  return { version, profile, compatibility, level, nalLengthSize, sps, pps }

def size (c : Config) : Nat :=
  6 + (c.sps.map (2 + ·.length)).foldl (· + ·) 0 + 1 + (c.pps.map (2 + ·.length)).foldl (· + ·) 0

/-- Parameter sets with their 16-bit lengths; a set of more than 65535 bytes is refused. -/
def writeSets : List (List UInt8) → Except Fault (List UInt8)
  | [] => .ok []
  | s :: rest => do
    if s.length > 65535 then throw .parameterSetTooLarge
    return Bytes.ofNat 2 s.length ++ s ++ (← writeSets rest)

/-- The bytes of a record, with the reserved bits set. Refused when the NAL length size is
outside 1 to 4, when there are more than 31 sequence or 255 picture parameter sets, or when a
set is longer than 65535 bytes. -/
def build (c : Config) : Except Fault (List UInt8) := do
  if c.nalLengthSize < 1 || c.nalLengthSize > 4 then throw (.nalLengthSize c.nalLengthSize)
  if c.sps.length > 31 || c.pps.length > 255 then throw .tooManyParameterSets
  let sps ← writeSets c.sps
  let pps ← writeSets c.pps
  return [c.version, c.profile, c.compatibility, c.level, 0xFC ||| (c.nalLengthSize - 1),
    0xE0 ||| c.sps.length.toUInt8] ++ sps ++ [c.pps.length.toUInt8] ++ pps

/-- The start code that goes with the NAL length size: three bytes below 4, else four. -/
def startCodeFor (c : Config) : List UInt8 :=
  if c.nalLengthSize < 4 then shortStartCode else startCode

/-- The first sequence and picture parameter sets, each behind a start code. -/
def privateData (c : Config) : Option (List UInt8) := do
  let sps ← c.sps.head?
  let pps ← c.pps.head?
  let code := c.startCodeFor
  return code ++ sps ++ code ++ pps

/-- The first sequence and picture parameter sets, each behind its 16-bit length. -/
def sequenceHeader (c : Config) : Option (List UInt8) := do
  let sps ← c.sps.head?
  let pps ← c.pps.head?
  return Bytes.ofNat 2 sps.length ++ sps ++ Bytes.ofNat 2 pps.length ++ pps

end Config

end FlvDemux.Avc
