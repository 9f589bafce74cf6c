import FlvDemux.Amf.Marker
import FlvDemux.Numeric.Binary64

/-!
# AMF0 values

The values the decoder produces and the encoder takes, numbers kept as their binary64 bits and
ECMA arrays read back as objects. The views `asNumber`, `asBool` and `asText` read a value as a
number, a truth value or a text where that makes sense.
-/

namespace FlvDemux.Amf

/-- An AMF0 value. -/
inductive Value where
  | number (bits : UInt64)
  | boolean (value : Bool)
  | string (value : String)
  | object (properties : List (String × Value))
  | null
  | undefined
  | reference (index : UInt16)
  | strictArray (items : List Value)
  | date (millis : UInt64) (timeZone : Int16)
  | longString (value : String)
  deriving Repr

namespace Value

/-- The marker a value is written with. -/
def marker : Value → Marker
  | .number _ => .number
  | .boolean _ => .boolean
  | .string _ => .string
  | .object _ => .object
  | .null => .null
  | .undefined => .undefined
  | .reference _ => .reference
  | .strictArray _ => .strictArray
  | .date .. => .date
  | .longString _ => .longString

/-- The value as a number: numbers as they are, booleans as 0 or 1. -/
def asNumber : Value → Option UInt64
  | .number b => some b
  | .boolean b => some (if b then Binary64.one else Binary64.zero)
  | _ => none

/-- The value as a truth value: booleans as they are, numbers by whether they differ from zero. -/
def asBool : Value → Option Bool
  | .boolean b => some b
  | .number b => some (Binary64.isNonzero b)
  | _ => none

/-- The value as text: either kind of string. -/
def asText : Value → Option String
  | .string s | .longString s => some s
  | _ => none

end Value

end FlvDemux.Amf
