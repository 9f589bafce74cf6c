import FlvDemux.Flv.TagHeader

/-!
# Audio tags

The first byte of an audio tag's data gives the format, rate code, sample size and channel
layout; AAC adds the packet type. An `AudioPacket` can only be built for a tag whose data holds
its sub-header.
-/

namespace FlvDemux.Flv

/-- The coding of the sound. -/
inductive SoundFormat where
  | pcm
  | adPcm
  | mp3
  | pcmLe
  | nellymoser16khzMono
  | nellymoser8khzMono
  | nellymoser
  | g711ALaw
  | g711MuLaw
  | reserved9
  | aac
  | speex
  | reserved12
  | reserved13
  | mp38k
  | deviceSpecific
  deriving DecidableEq, Repr

namespace SoundFormat

/-- The formats in the order of their codes 0 to 15. -/
def all : List SoundFormat :=
  [.pcm, .adPcm, .mp3, .pcmLe, .nellymoser16khzMono, .nellymoser8khzMono, .nellymoser,
    .g711ALaw, .g711MuLaw, .reserved9, .aac, .speex, .reserved12, .reserved13, .mp38k,
    .deviceSpecific]

def ofCode (code : UInt8) : SoundFormat := all.getD (code &&& 0x0F).toNat .deviceSpecific

def code : SoundFormat → UInt8
  | .pcm => 0 | .adPcm => 1 | .mp3 => 2 | .pcmLe => 3 | .nellymoser16khzMono => 4
  | .nellymoser8khzMono => 5 | .nellymoser => 6 | .g711ALaw => 7 | .g711MuLaw => 8
  | .reserved9 => 9 | .aac => 10 | .speex => 11 | .reserved12 => 12 | .reserved13 => 13
  | .mp38k => 14 | .deviceSpecific => 15

def name : SoundFormat → String
  | .pcm => "Pcm" | .adPcm => "AdPcm" | .mp3 => "Mp3" | .pcmLe => "PcmLe"
  | .nellymoser16khzMono => "Nellymoser16khzMono" | .nellymoser8khzMono => "Nellymoser8khzMono"
  | .nellymoser => "Nellymoser" | .g711ALaw => "G711ALaw" | .g711MuLaw => "G711MuLaw"
  | .reserved9 => "Reserved9" | .aac => "Aac" | .speex => "Speex" | .reserved12 => "Reserved12"
  | .reserved13 => "Reserved13" | .mp38k => "Mp38k" | .deviceSpecific => "DeviceSpecific"

end SoundFormat

/-- The sample rate code: 5.5, 11, 22 or 44 kHz. -/
inductive SoundRate where
  | hz5512
  | hz11025
  | hz22050
  | hz44100
  deriving DecidableEq, Repr

namespace SoundRate

def ofCode (code : UInt8) : SoundRate :=
  match (code &&& 3).toNat with
  | 0 => .hz5512
  | 1 => .hz11025
  | 2 => .hz22050
  | _ => .hz44100

def code : SoundRate → UInt8
  | .hz5512 => 0 | .hz11025 => 1 | .hz22050 => 2 | .hz44100 => 3

/-- The rate of a rate code `c`: `44100 * 2 ^ c / 8` Hz. -/
def hzOfCode (c : Nat) : Nat := 44100 * Nat.pow 2 c / 8

def hz (r : SoundRate) : Nat := hzOfCode r.code.toNat

def name : SoundRate → String
  | .hz5512 => "Hz5512" | .hz11025 => "Hz11025" | .hz22050 => "Hz22050" | .hz44100 => "Hz44100"

end SoundRate

/-- The description of the sound in an audio tag's first byte. -/
structure AudioHeader where
  format : SoundFormat
  rate : SoundRate
  sixteenBit : Bool
  stereo : Bool
  deriving DecidableEq, Repr

namespace AudioHeader

def ofByte (b : UInt8) : AudioHeader :=
  { format := SoundFormat.ofCode (b >>> 4), rate := SoundRate.ofCode (b >>> 2),
    sixteenBit := (b >>> 1) &&& 1 == 1, stereo := b &&& 1 == 1 }

def toByte (h : AudioHeader) : UInt8 :=
  (h.format.code <<< 4) ||| (h.rate.code <<< 2) ||| (if h.sixteenBit then 2 else 0) |||
    (if h.stereo then 1 else 0)

def bits (h : AudioHeader) : Nat := if h.sixteenBit then 16 else 8

def channels (h : AudioHeader) : Nat := if h.stereo then 2 else 1

def isAac (h : AudioHeader) : Bool := h.format == .aac

def describe (h : AudioHeader) : String :=
  s!"{h.format.name} {h.rate.hz}Hz {h.bits}bit {h.channels}ch"

end AudioHeader

/-- The kind of an AAC packet. -/
inductive AacPacketType where
  | sequenceHeader
  | raw
  deriving DecidableEq, Repr

namespace AacPacketType

/-- The packet type of a byte; only 0 and 1 are packet types. -/
def ofByte (b : UInt8) : Except Fault AacPacketType :=
  match b.toNat with
  | 0 => .ok .sequenceHeader
  | 1 => .ok .raw
  | _ => .error (.aacPacketType b)

def name : AacPacketType → String
  | .sequenceHeader => "SequenceHeader"
  | .raw => "Raw"

end AacPacketType

/-- An audio tag: its header, its sound description and, for AAC, its packet type. -/
structure AudioPacket where
  tag : TagHeader
  audio : AudioHeader
  aacPacketType : Option AacPacketType := none
  deriving DecidableEq, Repr

namespace AudioPacket

/-- The length of the sub-header: two bytes for AAC, one otherwise. -/
def subHeaderLengthOf (audio : AudioHeader) : Nat := if audio.isAac then 2 else 1

/-- An audio packet; refused when the tag is too small for its sub-header. -/
def make (tag : TagHeader) (audio : AudioHeader) : Except FormatError AudioPacket :=
  if tag.dataSize.toNat < subHeaderLengthOf audio then
    .error (.subHeaderTooLarge tag.dataSize (subHeaderLengthOf audio))
  else .ok { tag, audio }

def subHeaderLength (p : AudioPacket) : Nat := subHeaderLengthOf p.audio

/-- The length of the data after the sub-header. -/
def payloadLength (p : AudioPacket) : Nat := p.tag.dataSize.toNat - p.subHeaderLength

/-- The offset in the file of the data after the sub-header, modulo `2 ^ 64` as the 64-bit
offset field wraps. -/
def payloadOffset (p : AudioPacket) : UInt64 := p.tag.payloadOffset + p.subHeaderLength.toUInt64

/-- The sample rate in Hz; the 8 kHz MP3 format fixes it. -/
def sampleRate (p : AudioPacket) : Nat :=
  if p.audio.format == .mp38k then 8000 else p.audio.rate.hz

/-- Whether the packet is an AAC sequence header. -/
def isSequenceHeader (p : AudioPacket) : Bool := p.aacPacketType == some .sequenceHeader

end AudioPacket

end FlvDemux.Flv
