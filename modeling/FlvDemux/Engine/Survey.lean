import FlvDemux.Flv.Framing
import FlvDemux.Script.Metadata
import FlvDemux.Aac.AudioConfig
import FlvDemux.Engine.Descriptor

/-!
# What the scan at open has learned

A `Survey` keeps what the scan has seen: the file header, `onMetaData`, the first audio and video
packets, the AVC and AAC configurations, and where the first media tag is. A track is expected
when the header, the metadata or a tag announces it, and ready once its first packet (and
configuration) was seen; the tracks are described from the survey.
-/

namespace FlvDemux.Engine

open Flv Script

/-- What the scan at open has learned about the file. -/
structure Survey where
  fileHeader : Option FileHeader := none
  metadata : Option Metadata := none
  /-- No further `onMetaData` is waited for. -/
  metaSettled : Bool := false
  hasScriptData : Bool := false
  firstAudio : Option AudioPacket := none
  firstVideo : Option VideoPacket := none
  avcConfig : Option Avc.Config := none
  aacConfig : Option (List UInt8) := none
  firstMediaTagOffset : Option UInt64 := none
  deriving Repr

namespace Survey

/-- The offset of the first media tag, or of the first tag when none was seen. -/
def firstMediaOffset (s : Survey) : Nat :=
  match s.firstMediaTagOffset with
  | some o => o.toNat
  | none => fileHeaderLength + previousTagSizeLength

def expectsVideo (s : Survey) : Bool :=
  s.firstVideo.isSome || s.fileHeader.any (·.hasVideo) ||
    s.metadata.any fun m => m.hasVideo || m.videoCodecId.isSome

/-- Whether an audio track is expected. -/
def expectsAudio (s : Survey) : Bool :=
  s.firstAudio.isSome || s.fileHeader.any (·.hasAudio) ||
    s.metadata.any fun m => m.hasAudio || m.audioCodecId.isSome

/-- Whether the video track has its first packet and, for AVC, its configuration. -/
def videoReady (s : Survey) : Bool :=
  s.firstVideo.any fun p => !p.video.isAvc || s.avcConfig.isSome

/-- Whether the audio track has its first packet and, for AAC, its configuration. -/
def audioReady (s : Survey) : Bool :=
  s.firstAudio.any fun p => !p.audio.isAac || s.aacConfig.isSome

/-- Whether the scan has seen enough to describe every expected track. -/
def isReady (s : Survey) : Bool :=
  s.metaSettled && s.firstMediaTagOffset.isSome && (!s.expectsVideo || s.videoReady) &&
    (!s.expectsAudio || s.audioReady)

/-- The description of the video track, if the first video packet allows one. -/
def videoDescriptor (s : Survey) (first : VideoPacket) : Option StreamDescriptor := do
  if !first.video.isAvc then none
  let c ← s.avcConfig
  let m := s.metadata.getD {}
  return .video { width := m.width, height := m.height, frameRate := m.frameRate,
                  bitrate := m.videoBitrate, profile := c.profile, level := c.level,
                  nalLengthSize := c.nalLengthSize, sequenceHeader := c.sequenceHeader.getD [] }

/-- The audio codec of a sound format, if it is one a demuxer plays. -/
def audioCodecOf : SoundFormat → Option AudioCodec
  | .aac => some .aac
  | .mp3 | .mp38k => some .mp3
  | .pcm => some .pcm
  | .pcmLe => some .pcmLe
  | _ => none

/-- The description of the audio track, if the first audio packet allows one. -/
def audioDescriptor (s : Survey) (first : AudioPacket) : Option StreamDescriptor := do
  let codec ← audioCodecOf first.audio.format
  let asc := if codec = .aac then s.aacConfig else none
  let (rate, channels) := match asc.map Aac.AudioConfig.parse with
    | some (.ok c) => (c.frequency, c.channelCount.getD first.audio.channels)
    | _ => (first.sampleRate, first.audio.channels)
  return .audio { codec, sampleRate := rate, channels, bitsPerSample := first.audio.bits,
                  bitrate := (s.metadata.map Metadata.audioBitrate).getD 0,
                  audioSpecificConfig := asc }

/-- The descriptions of the tracks that can be played, video first. -/
def descriptors (s : Survey) : List StreamDescriptor :=
  (s.firstVideo.bind s.videoDescriptor).toList ++ (s.firstAudio.bind s.audioDescriptor).toList

end Survey

end FlvDemux.Engine
