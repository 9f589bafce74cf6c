import FlvDemux.Bytes.Fault

/-!
# The start of an AAC AudioSpecificConfig

The bit string, most significant bit first, begins with a five-bit object type (31 escapes to
32 plus six more bits), a four-bit sampling frequency index (15 escapes to an explicit 24-bit
frequency; 13 and 14 are reserved) and a four-bit channel configuration. Only this prefix is
read; later bits are ignored. The bits are taken by a cursor over the bytes, which checks that a
field fits before it reads it.
-/

namespace FlvDemux.Aac

/-- The AAC object type. -/
inductive ObjectType where
  | aacMain
  | aacLowComplexity
  | aacScalableSampleRate
  | aacLongTermPrediction
  | sbr
  | parametricStereo
  | unknown (code : UInt16)
  deriving DecidableEq, Repr

namespace ObjectType

def ofCode (c : UInt16) : ObjectType :=
  match c.toNat with
  | 1 => .aacMain | 2 => .aacLowComplexity | 3 => .aacScalableSampleRate
  | 4 => .aacLongTermPrediction | 5 => .sbr | 29 => .parametricStereo | _ => .unknown c

def code : ObjectType → UInt16
  | .aacMain => 1 | .aacLowComplexity => 2 | .aacScalableSampleRate => 3
  | .aacLongTermPrediction => 4 | .sbr => 5 | .parametricStereo => 29 | .unknown c => c

def name : ObjectType → String
  | .aacMain => "AacMain" | .aacLowComplexity => "AacLowComplexity"
  | .aacScalableSampleRate => "AacScalableSampleRate"
  | .aacLongTermPrediction => "AacLongTermPrediction" | .sbr => "Sbr"
  | .parametricStereo => "ParametricStereo" | .unknown c => s!"Unknown({c})"

end ObjectType

/-- The sampling frequencies of the indices 0 to 12. -/
def samplingFrequencies : List Nat :=
  [96000, 88200, 64000, 48000, 44100, 32000, 24000, 22050, 16000, 12000, 11025, 8000, 7350]

/-- The sampling frequency of an index, if the index has one. -/
def frequencyOfIndex (i : Nat) : Option Nat := samplingFrequencies[i]?

/-- The sampling frequency the table gives an index; an index it has no entry for is reserved. -/
def tableFrequency (index : Nat) : Except Fault Nat :=
  match frequencyOfIndex index with
  | some f => .ok f
  | none => .error (.reservedFrequency index)

/-- A reader of the bits of a byte string, most significant bit of each byte first: the bytes
and the index of the next bit. -/
structure BitCursor where
  data : List UInt8
  bit : Nat := 0
  deriving DecidableEq, Repr

namespace BitCursor

/-- Bit `i` of `data`, as 0 or 1: bit `7 - i % 8` of byte `i / 8`. -/
def bitAt (data : List UInt8) (i : Nat) (h : i / 8 < data.length) : Nat :=
  ((data[i / 8] >>> (7 - i % 8).toUInt8) &&& 1).toNat

/-- The `n` bits of `data` from bit `i` appended to the digits of `acc`, the first most
significant. The bound makes every byte it reads lie within `data`. -/
def gather (data : List UInt8) : (i n acc : Nat) → i + n ≤ data.length * 8 → Nat
  | _, 0, acc, _ => acc
  | i, n + 1, acc, h => gather data (i + 1) n (2 * acc + bitAt data i (by omega)) (by omega)

/-- The next `count` bits as a number (at most 24 are read at once, so the value fits the 32 bits
it is kept in); bits that run past the end of the bytes fail and leave the cursor alone. -/
def take (count : Nat) : StateT BitCursor (Except Fault) Nat := fun c =>
  if h : c.bit + count ≤ c.data.length * 8 then
    .ok (gather c.data c.bit count 0 h, { c with bit := c.bit + count })
  else .error .configTooShort

end BitCursor

/-- The start of an AudioSpecificConfig. -/
structure AudioConfig where
  objectType : ObjectType
  frequency : Nat
  channelConfiguration : Nat
  deriving DecidableEq, Repr

namespace AudioConfig

/-- Reads the object type, frequency and channel configuration. -/
def read : StateT BitCursor (Except Fault) AudioConfig := do
  let t ← BitCursor.take 5
  let t ← if t = 31 then (32 + ·) <$> BitCursor.take 6 else pure t
  let index ← BitCursor.take 4
  let frequency ← if index = 15 then BitCursor.take 24 else tableFrequency index
  let channels ← BitCursor.take 4
  return { objectType := .ofCode t.toUInt16, frequency, channelConfiguration := channels }

/-- Reads the start of an AudioSpecificConfig from its bytes. -/
def parse (bs : List UInt8) : Except Fault AudioConfig :=
  (read.run { data := bs }).map (·.1)

/-- The number of channels of the configuration: 1 to 6 as they are, 7 means 8. -/
def channelCount (c : AudioConfig) : Option Nat :=
  if 1 ≤ c.channelConfiguration ∧ c.channelConfiguration ≤ 6 then some c.channelConfiguration
  else if c.channelConfiguration = 7 then some 8
  else none

end AudioConfig

end FlvDemux.Aac
