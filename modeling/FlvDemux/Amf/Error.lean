import FlvDemux.Amf.Marker
import FlvDemux.Bytes.Fault
import FlvDemux.Text.Utf8

/-!
# Failures of AMF0 reading and writing

`ReadError` says why a byte string is not the AMF0 value a reader expected, `WriteError` why a
value cannot be written. Each has a `name` for its kind and a `message`.
-/

namespace FlvDemux.Amf

/-- The deepest nesting of objects and arrays a reader accepts. -/
def maxNesting : Nat := 64

/-- Why reading AMF0 failed. -/
inductive ReadError where
  /-- A type byte above `11`. -/
  | unknownMarker (code : UInt8)
  /-- A marker the reader does not read. -/
  | unsupportedType (marker : Marker)
  /-- A string whose bytes are not UTF-8. -/
  | badText (fault : Utf8Error)
  /-- The bytes ran out, or a count did not fit. -/
  | io (fault : Fault)
  /-- A value of another type than the one expected. -/
  | wrongType (expected got : Marker)
  /-- An empty property name not followed by the object-end marker. -/
  | missingObjectEnd (code : UInt8)
  /-- Objects and arrays nested deeper than the limit. -/
  | nestingTooDeep (limit : Nat)
  deriving DecidableEq, Repr

/-- Two lowercase hexadecimal digits of a byte. -/
def hexByte (b : UInt8) : String :=
  let digit (n : Nat) : Char := if n < 10 then Char.ofNat (48 + n) else Char.ofNat (87 + n)
  String.ofList [digit (b.toNat / 16), digit (b.toNat % 16)]

namespace ReadError

/-- The name of the kind of a read failure. -/
def name : ReadError → String
  | .unknownMarker _ => "UnknownMarker"
  | .unsupportedType _ => "UnsupportedType"
  | .badText _ => "StringParseError"
  | .io _ => "Io"
  | .wrongType .. => "WrongType"
  | .missingObjectEnd _ => "MissingObjectEnd"
  | .nestingTooDeep _ => "NestingTooDeep"

def message : ReadError → String
  | .unknownMarker code => s!"unknown marker: {code}"
  | .unsupportedType m => s!"unsupported type: {m.name}"
  | .badText fault => s!"string parse error: {fault.message}"
  | .io fault => s!"io error: {fault.message}"
  | .wrongType expected got => s!"wrong type: expected {expected.name}, got {got.name}"
  | .missingObjectEnd code => s!"missing object end marker, got 0x{hexByte code}"
  | .nestingTooDeep limit => s!"nesting deeper than {limit} levels"

end ReadError

/-- Why writing AMF0 failed. -/
inductive WriteError where
  /-- A string or property name of more than 65535 bytes. -/
  | stringTooLong
  /-- A value of a type the writer does not write. -/
  | unsupportedType (marker : Marker)
  deriving DecidableEq, Repr

namespace WriteError

/-- The name of the kind of a write failure. -/
def name : WriteError → String
  | .stringTooLong => "NormalStringTooLong"
  | .unsupportedType _ => "UnsupportedType"

def message : WriteError → String
  | .stringTooLong => "normal string too long"
  | .unsupportedType m => s!"unsupported type: {m.name}"

end WriteError

end FlvDemux.Amf
