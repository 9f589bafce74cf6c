/-!
# Faults of byte-level reads and framing checks

Every low-level failure of the library is one `Fault`: a fixed-width field that runs past the
end of its input, a counted run of bytes that does not fit, or a field whose value a format
rejects. A fault falls into one of three kinds (`FaultKind`), and its text is given by
`Fault.message`, in one place.
-/

namespace FlvDemux

/-- The three kinds of low-level failure. -/
inductive FaultKind where
  | unexpectedEof
  | invalidData
  | invalidInput
  deriving DecidableEq, Repr

def FaultKind.name : FaultKind → String
  | .unexpectedEof => "UnexpectedEof"
  | .invalidData => "InvalidData"
  | .invalidInput => "InvalidInput"

/-- Why a byte-level read or a framing check failed. -/
inductive Fault where
  /-- A fixed-width field runs past the end of the input. -/
  | truncated
  /-- A counted run of `want` bytes is longer than the `left` bytes that remain. -/
  | needBytes (want left : Nat)
  /-- A skip of `want` bytes is longer than the `left` bytes that remain. -/
  | cannotSkip (want left : Nat)
  /-- An AAC packet type other than 0 and 1. -/
  | aacPacketType (value : UInt8)
  /-- An AVC packet type above 2. -/
  | avcPacketType (value : UInt8)
  /-- `left` trailing bytes are too few for a NAL length field of `size` bytes. -/
  | nalLengthCut (left size : Nat)
  /-- A NAL unit of `length` bytes runs past the end of its payload. -/
  | nalOverrun (length : Nat)
  /-- A NAL length size outside 1 to 4. -/
  | nalLengthSize (size : UInt8)
  /-- More than 31 sequence or 255 picture parameter sets. -/
  | tooManyParameterSets
  /-- A parameter set longer than 65535 bytes. -/
  | parameterSetTooLarge
  /-- A sampling frequency index of 13 or 14. -/
  | reservedFrequency (index : Nat)
  /-- An AudioSpecificConfig whose bits end before its last field. -/
  | configTooShort
  /-- A seek to a position below zero, or past the largest position. -/
  | seekBeforeStart
  /-- A file read at a position past the largest offset the file system allows. -/
  | fileOffsetTooLarge
  deriving DecidableEq, Repr

namespace Fault

def kind : Fault → FaultKind
  | .truncated | .needBytes .. | .cannotSkip .. | .configTooShort => .unexpectedEof
  | .aacPacketType _ | .avcPacketType _ | .nalLengthCut .. | .nalOverrun _
  | .reservedFrequency _ => .invalidData
  | .nalLengthSize _ | .tooManyParameterSets | .parameterSetTooLarge
  | .seekBeforeStart | .fileOffsetTooLarge => .invalidInput

def message : Fault → String
  | .truncated => "failed to fill whole buffer"
  | .needBytes want left => s!"need {want} bytes, {left} left"
  | .cannotSkip want left => s!"cannot skip {want} bytes, {left} left"
  | .aacPacketType value => s!"Invalid AAC packet type: {value}"
  | .avcPacketType value => s!"Invalid AVC packet type: {value}"
  | .nalLengthCut left size => s!"{left} trailing bytes cannot hold a {size} byte NAL length"
  | .nalOverrun length => s!"NAL unit of {length} bytes overruns the payload"
  | .nalLengthSize size => s!"NAL length size {size} out of range"
  | .tooManyParameterSets => "too many parameter sets"
  | .parameterSetTooLarge => "parameter set too large"
  | .reservedFrequency index => s!"reserved sampling frequency index {index}"
  | .configTooShort => "audio specific config too short"
  | .seekBeforeStart => "seek before the start of the stream"
  | .fileOffsetTooLarge => "Invalid argument (os error 22)"

end Fault

end FlvDemux
