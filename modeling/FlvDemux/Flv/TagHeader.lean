import FlvDemux.Flv.Error
import FlvDemux.Bytes.Reader

/-!
# FLV tag headers

An 11-byte tag header holds the tag type and filter flag, the 24-bit data size, a timestamp in
milliseconds split into 24 low bits and a high byte, and a 24-bit stream id. Times are kept in
units of 100 ns. A header of type 0 and size 0, or nothing read where a header should be, marks
the end of the file (`TagHeader.endOfFile`).
-/

namespace FlvDemux.Flv

def tagHeaderLength : Nat := 11

/-- The length of the field that follows each tag with the size of that tag. -/
def previousTagSizeLength : Nat := 4

def hnsPerMs : Nat := 10000

/-- The type of a tag. -/
inductive TagKind where
  | audio
  | video
  | scriptData
  /-- The end of the file: type 0 with no data. -/
  | endOfFile
  | other (code : UInt8)
  deriving DecidableEq, Repr

namespace TagKind

/-- The type of a tag from its five type bits and its data size. -/
def ofCode (code : UInt8) (dataSize : UInt32) : TagKind :=
  match code.toNat with
  | 8 => .audio
  | 9 => .video
  | 18 => .scriptData
  | 0 => if dataSize = 0 then .endOfFile else .other 0
  | _ => .other code

def code : TagKind → UInt8
  | .audio => 8
  | .video => 9
  | .scriptData => 18
  | .endOfFile => 0
  | .other c => c

def name : TagKind → String
  | .audio => "Audio"
  | .video => "Video"
  | .scriptData => "ScriptData"
  | .endOfFile => "Eof"
  | .other c => s!"Other({c})"

end TagKind

/-- The header of an FLV tag. -/
structure TagHeader where
  kind : TagKind
  filter : Bool
  dataSize : UInt32
  timestampHns : UInt64
  streamId : UInt32
  /-- The offset in the file of the tag's data. -/
  payloadOffset : UInt64
  deriving DecidableEq, Repr

namespace TagHeader

/-- The header that stands for the end of the file. -/
def endOfFile (payloadOffset : UInt64) : TagHeader :=
  { kind := .endOfFile, filter := false, dataSize := 0, timestampHns := 0, streamId := 0,
    payloadOffset }

/-- Reads a tag header whose data starts at `payloadOffset`. -/
def parse (payloadOffset : UInt64) : Reader Fault TagHeader := do
  let flags ← Reader.byte
  let dataSize ← Reader.u24
  let low ← Reader.u24
  let high ← Reader.byte
  let streamId ← Reader.u24
  let ms := low.toNat + high.toNat * Nat.pow 2 24
  return { kind := TagKind.ofCode (flags &&& 0x1F) dataSize, filter := flags &&& 0x20 != 0,
           dataSize, timestampHns := (ms * hnsPerMs).toUInt64, streamId, payloadOffset }

/-- The timestamp in milliseconds, kept to 32 bits. -/
def timestampMs (h : TagHeader) : UInt32 := (h.timestampHns.toNat / hnsPerMs).toUInt32

/-- The offset in the file of the header itself. -/
def tagOffset (h : TagHeader) : UInt64 :=
  if h.payloadOffset.toNat < tagHeaderLength then 0 else h.payloadOffset - 11

/-- Whether the header marks the end of the file. -/
def isEndOfFile (h : TagHeader) : Bool := h.kind == .endOfFile

def encode (h : TagHeader) : List UInt8 :=
  let flags := (h.kind.code &&& 0x1F) ||| (if h.filter then 0x20 else 0)
  let ms := h.timestampMs.toNat
  [flags] ++ Bytes.ofNat 3 h.dataSize.toNat ++ Bytes.ofNat 3 ms ++ [(ms / Nat.pow 2 24).toUInt8] ++
    Bytes.ofNat 3 h.streamId.toNat

/-- A one-line description of a header. -/
def describe (h : TagHeader) : String :=
  s!"{h.kind.name} tag @{h.tagOffset} [{h.dataSize} bytes, {h.timestampMs}ms]"

end TagHeader

end FlvDemux.Flv
