import FlvDemux.Flv.TagHeader

/-!
# Video tags

The first byte of a video tag's data gives the frame type and codec; AVC adds the packet type and
a signed 24-bit composition time. A `VideoPacket` can only be built for a tag whose data holds its
sub-header.
-/

namespace FlvDemux.Flv

/-- The kind of a video frame. -/
inductive FrameType where
  | keyFrame
  | interFrame
  | disposableInterFrame
  | generatedKeyFrame
  | videoInfoFrame
  | unknown (code : UInt8)
  deriving DecidableEq, Repr

namespace FrameType

def ofCode (c : UInt8) : FrameType :=
  match c.toNat with
  | 1 => .keyFrame | 2 => .interFrame | 3 => .disposableInterFrame
  | 4 => .generatedKeyFrame | 5 => .videoInfoFrame | _ => .unknown c

def code : FrameType → UInt8
  | .keyFrame => 1 | .interFrame => 2 | .disposableInterFrame => 3
  | .generatedKeyFrame => 4 | .videoInfoFrame => 5 | .unknown c => c

def name : FrameType → String
  | .keyFrame => "KeyFrame" | .interFrame => "InterFrame"
  | .disposableInterFrame => "DisposableInterFrame" | .generatedKeyFrame => "GeneratedKeyFrame"
  | .videoInfoFrame => "VideoInfoFrame" | .unknown c => s!"Unknown({c})"

end FrameType

/-- The video codec. -/
inductive CodecId where
  | jpeg
  | sorensonH263
  | screenVideo
  | on2Vp6
  | on2Vp6Alpha
  | screenVideo2
  | avc
  | unknown (code : UInt8)
  deriving DecidableEq, Repr

namespace CodecId

def ofCode (c : UInt8) : CodecId :=
  match c.toNat with
  | 1 => .jpeg | 2 => .sorensonH263 | 3 => .screenVideo | 4 => .on2Vp6
  | 5 => .on2Vp6Alpha | 6 => .screenVideo2 | 7 => .avc | _ => .unknown c

def code : CodecId → UInt8
  | .jpeg => 1 | .sorensonH263 => 2 | .screenVideo => 3 | .on2Vp6 => 4
  | .on2Vp6Alpha => 5 | .screenVideo2 => 6 | .avc => 7 | .unknown c => c

def name : CodecId → String
  | .jpeg => "Jpeg" | .sorensonH263 => "SorensonH263" | .screenVideo => "ScreenVideo"
  | .on2Vp6 => "On2VP6" | .on2Vp6Alpha => "On2VP6Alpha" | .screenVideo2 => "ScreenVideo2"
  | .avc => "Avc" | .unknown c => s!"Unknown({c})"

end CodecId

/-- The description of the video in a video tag's first byte. -/
structure VideoHeader where
  frameType : FrameType
  codec : CodecId
  deriving DecidableEq, Repr

namespace VideoHeader

def ofByte (b : UInt8) : VideoHeader :=
  { frameType := FrameType.ofCode (b >>> 4), codec := CodecId.ofCode (b &&& 0x0F) }

def toByte (h : VideoHeader) : UInt8 := (h.frameType.code <<< 4) ||| (h.codec.code &&& 0x0F)

def isAvc (h : VideoHeader) : Bool := h.codec == .avc

def isKeyFrame (h : VideoHeader) : Bool := h.frameType == .keyFrame

def describe (h : VideoHeader) : String := s!"{h.codec.name} {h.frameType.name}"

end VideoHeader

/-- The kind of an AVC packet. -/
inductive AvcPacketType where
  | sequenceHeader
  | nalu
  | endOfSequence
  deriving DecidableEq, Repr

namespace AvcPacketType

/-- The packet type of a byte; only 0 to 2 are packet types. -/
def ofByte (b : UInt8) : Except Fault AvcPacketType :=
  match b.toNat with
  | 0 => .ok .sequenceHeader
  | 1 => .ok .nalu
  | 2 => .ok .endOfSequence
  | _ => .error (.avcPacketType b)

def code : AvcPacketType → UInt8
  | .sequenceHeader => 0 | .nalu => 1 | .endOfSequence => 2

def name : AvcPacketType → String
  | .sequenceHeader => "SequenceHeader" | .nalu => "Nalu" | .endOfSequence => "EndOfSequence"

end AvcPacketType

/-- The four bytes that follow the first byte of an AVC video tag. -/
structure AvcPacketHeader where
  packetType : AvcPacketType
  compositionTimeMs : Int32
  deriving DecidableEq, Repr

namespace AvcPacketHeader

/-- The length of an AVC packet header. -/
def length : Nat := 4

/-- Reads an AVC packet header; the type is checked before the time is read. -/
def parse : Reader Fault AvcPacketHeader := do
  let code ← Reader.byte
  let packetType ← Reader.ofExcept (AvcPacketType.ofByte code)
  let compositionTimeMs ← Reader.i24
  return { packetType, compositionTimeMs }

/-- The four bytes of a header; the time keeps its low 24 bits. -/
def encode (h : AvcPacketHeader) : List UInt8 :=
  h.packetType.code :: Bytes.ofNat 3 h.compositionTimeMs.toUInt32.toNat

/-- The composition time offset in units of 100 ns. -/
def compositionOffsetHns (h : AvcPacketHeader) : Int := h.compositionTimeMs.toInt * hnsPerMs

end AvcPacketHeader

/-- A video tag: its header, its video description and, for AVC, its packet header. -/
structure VideoPacket where
  tag : TagHeader
  video : VideoHeader
  avc : Option AvcPacketHeader := none
  deriving DecidableEq, Repr

namespace VideoPacket

/-- The length of the sub-header: five bytes for AVC, one otherwise. -/
def subHeaderLengthOf (video : VideoHeader) : Nat := if video.isAvc then 5 else 1

/-- A video packet; refused when the tag is too small for its sub-header. -/
def make (tag : TagHeader) (video : VideoHeader) : Except FormatError VideoPacket :=
  if tag.dataSize.toNat < subHeaderLengthOf video then
    .error (.subHeaderTooLarge tag.dataSize (subHeaderLengthOf video))
  else .ok { tag, video }

def subHeaderLength (p : VideoPacket) : Nat := subHeaderLengthOf p.video

/-- The length of the data after the sub-header. -/
def payloadLength (p : VideoPacket) : Nat := p.tag.dataSize.toNat - p.subHeaderLength

/-- The offset in the file of the data after the sub-header, modulo `2 ^ 64` as the 64-bit
offset field wraps. -/
def payloadOffset (p : VideoPacket) : UInt64 := p.tag.payloadOffset + p.subHeaderLength.toUInt64

/-- The AVC packet type, if the packet has an AVC header. -/
def packetType (p : VideoPacket) : Option AvcPacketType := p.avc.map (·.packetType)

/-- The composition time offset in units of 100 ns; zero without an AVC header. -/
def compositionOffsetHns (p : VideoPacket) : Int :=
  match p.avc with
  | some a => a.compositionOffsetHns
  | none => 0

end VideoPacket

end FlvDemux.Flv
