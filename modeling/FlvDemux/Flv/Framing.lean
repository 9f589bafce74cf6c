import FlvDemux.Flv.FileHeader
import FlvDemux.Flv.Audio
import FlvDemux.Flv.Video
import FlvDemux.Avc.Config
import FlvDemux.Avc.NalUnits

/-!
# The pieces of an FLV file, one read each

A demuxer reads an FLV file piece by piece: the file header, a tag header, the first byte of a
tag's data, the AAC packet type or the AVC packet header, the rest of the data. Each function
here turns the bytes of one such read into the piece, and first checks that the read returned
exactly as many bytes as the piece takes (`shortRead` otherwise). An empty read where a tag
header should be is the end of the file.
-/

namespace FlvDemux.Flv

/-- Checks that a read returned the number of bytes the piece takes. -/
def expectLength (expected actual : Nat) : Except FormatError Unit :=
  if expected = actual then .ok () else .error (.shortRead expected actual)

/-- The file header from a read of its nine bytes. -/
def readFileHeader (data : List UInt8) : Except FormatError FileHeader := do
  expectLength fileHeaderLength data.length
  return (← FileHeader.parse.run data).1

/-- A tag header from a read of its eleven bytes; an empty read is the end of the file. -/
def readTagHeader (data : List UInt8) (payloadOffset : UInt64) : Except FormatError TagHeader := do
  if data.isEmpty then return TagHeader.endOfFile payloadOffset
  expectLength tagHeaderLength data.length
  match (TagHeader.parse payloadOffset).run data with
  | .ok (h, _) => return h
  | .error f => throw (.io f)

/-- The audio packet of a tag from a read of the first byte of its data. -/
def readAudioHeader (tag : TagHeader) (data : List UInt8) : Except FormatError AudioPacket := do
  expectLength 1 data.length
  AudioPacket.make tag (AudioHeader.ofByte (data.headD 0))

/-- The video packet of a tag from a read of the first byte of its data. -/
def readVideoHeader (tag : TagHeader) (data : List UInt8) : Except FormatError VideoPacket := do
  expectLength 1 data.length
  VideoPacket.make tag (VideoHeader.ofByte (data.headD 0))

/-- An audio packet with its AAC packet type, from a read of one byte. -/
def readAacPacketType (p : AudioPacket) (data : List UInt8) : Except FormatError AudioPacket := do
  expectLength 1 data.length
  match AacPacketType.ofByte (data.headD 0) with
  | .ok t => return { p with aacPacketType := some t }
  | .error f => throw (.io f)

/-- A video packet with its AVC packet header, from a read of four bytes. -/
def readAvcPacketHeader (p : VideoPacket) (data : List UInt8) :
    Except FormatError VideoPacket := do
  expectLength AvcPacketHeader.length data.length
  match AvcPacketHeader.parse.run data with
  | .ok (h, _) => return { p with avc := some h }
  | .error f => throw (.io f)

/-- The data of a piece, from a read of `expected` bytes. -/
def readPayload (data : List UInt8) (expected : Nat) : Except FormatError (List UInt8) := do
  expectLength expected data.length
  return data

/-- An AVC decoder configuration record from the data of a sequence header. -/
def readAvcConfig (data : List UInt8) : Except FormatError Avc.Config :=
  match Avc.Config.parse.run data with
  | .ok (c, _) => .ok c
  | .error f => .error (.avcConfig f)

/-- NAL units in start-code form, from length-prefixed data framed as `c` says. -/
def readNalUnits (c : Avc.Config) (data : List UInt8) : Except FormatError (List UInt8) :=
  match Avc.toStartCodes (Avc.clampLengthSize c.nalLengthSize) data with
  | .ok bs => .ok bs
  | .error f => .error (.nalu f)

end FlvDemux.Flv
