import FlvDemux.Bytes.Fault
import FlvDemux.Amf.Error

/-!
# Failures of reading an FLV file

A `FormatError` says which piece of an FLV file is malformed. Each has a `name` for its kind and
a `message`; faults of the pieces below (byte reads, script data, codec configuration, NAL
framing) are carried inside.
-/

namespace FlvDemux.Flv

def fileHeaderLength : Nat := 9

/-- Why a piece of an FLV file could not be read. -/
inductive FormatError where
  /-- A file header whose length field is not 9. -/
  | invalidHeader (length : UInt32)
  /-- A byte-level fault. -/
  | io (fault : Fault)
  /-- A read returned another number of bytes than the piece needs. -/
  | shortRead (expected actual : Nat)
  /-- A tag too small for the sub-header its first byte announces. -/
  | subHeaderTooLarge (dataSize : UInt32) (subHeader : Nat)
  /-- Malformed script data. -/
  | script (error : Amf.ReadError)
  /-- A malformed AVC decoder configuration record. -/
  | avcConfig (fault : Fault)
  /-- Malformed length-prefixed NAL units. -/
  | nalu (fault : Fault)
  /-- No `onMetaData` before the first media tag, where one is required. -/
  | missingMetadata
  deriving DecidableEq, Repr

namespace FormatError

/-- The name of the kind of a format error. -/
def name : FormatError → String
  | .invalidHeader _ => "InvalidHeader"
  | .io _ => "Io"
  | .shortRead .. => "ShortRead"
  | .subHeaderTooLarge .. => "SubHeaderTooLarge"
  | .script _ => "Script"
  | .avcConfig _ => "AvcConfig"
  | .nalu _ => "Nalu"
  | .missingMetadata => "MissingMetadata"

def message : FormatError → String
  | .invalidHeader length =>
    s!"Invalid FLV header: header length {length}, expected {fileHeaderLength}"
  | .io fault => s!"I/O error: {fault.message}"
  | .shortRead expected actual => s!"Short read: expected {expected} bytes, got {actual}"
  | .subHeaderTooLarge dataSize subHeader =>
    s!"Tag data size {dataSize} is smaller than its {subHeader} byte sub-header"
  | .script error => s!"Error parsing script data: {error.message}"
  | .avcConfig fault => s!"Invalid AVC decoder configuration: {fault.message}"
  | .nalu fault => s!"Invalid NAL unit framing: {fault.message}"
  | .missingMetadata => "No onMetaData script tag before the first media tag"

end FormatError

end FlvDemux.Flv
