/-!
# Tracks and their descriptions

A demuxer has at most two tracks, video and audio, with the stream ids 0 and 1. A
`StreamDescriptor` says what a track carries: AVC video with its picture size, rate, profile,
level, NAL length size and parameter sets, or audio with its codec, rate, channels, sample size
and, for AAC, its AudioSpecificConfig. A `Presentation` lists the descriptors, video first, each
marked selected or not, with the duration of the whole.
-/

namespace FlvDemux.Engine

/-- A track of a demuxer. -/
inductive TrackKind where
  | video
  | audio
  deriving DecidableEq, Repr

namespace TrackKind

def all : List TrackKind := [.video, .audio]

def streamId : TrackKind → Nat
  | .video => 0
  | .audio => 1

def name : TrackKind → String
  | .video => "video"
  | .audio => "audio"

end TrackKind

/-- What a video track carries. -/
structure VideoFormat where
  width : Nat
  height : Nat
  frameRate : UInt64
  bitrate : Nat
  profile : UInt8
  level : UInt8
  nalLengthSize : UInt8
  sequenceHeader : List UInt8
  deriving DecidableEq, Repr

/-- The audio codecs a demuxer plays. -/
inductive AudioCodec where
  | aac
  | mp3
  | pcm
  | pcmLe
  deriving DecidableEq, Repr

def AudioCodec.name : AudioCodec → String
  | .aac => "Aac"
  | .mp3 => "Mp3"
  | .pcm => "Pcm"
  | .pcmLe => "PcmLe"

/-- What an audio track carries. -/
structure AudioFormat where
  codec : AudioCodec
  sampleRate : Nat
  channels : Nat
  bitsPerSample : Nat
  bitrate : Nat
  audioSpecificConfig : Option (List UInt8)
  deriving DecidableEq, Repr

/-- The description of a track. -/
inductive StreamDescriptor where
  | video (format : VideoFormat)
  | audio (format : AudioFormat)
  deriving DecidableEq, Repr

def StreamDescriptor.kind : StreamDescriptor → TrackKind
  | .video _ => .video
  | .audio _ => .audio

/-- The descriptions of a demuxer's tracks, each selected or not, and the duration. -/
structure Presentation where
  streams : List (StreamDescriptor × Bool) := []
  durationHns : Nat := 0
  deriving DecidableEq, Repr

namespace Presentation

/-- A presentation with every track selected. -/
def ofStreams (streams : List StreamDescriptor) (durationHns : Nat) : Presentation :=
  ⟨streams.map (·, true), durationHns⟩

/-- The description of a track, if the presentation has it. -/
def stream? (p : Presentation) (k : TrackKind) : Option StreamDescriptor :=
  (p.streams.find? (·.1.kind == k)).map (·.1)

/-- The selected tracks, in the order of the presentation. -/
def selected (p : Presentation) : List TrackKind :=
  p.streams.filterMap fun (d, sel) => if sel then some d.kind else none

/-- The presentation with exactly the tracks of `ks` selected. -/
def selectOnly (p : Presentation) (ks : List TrackKind) : Presentation :=
  { p with streams := p.streams.map fun (d, _) => (d, ks.contains d.kind) }

/-- Puts a stream id into an increasing list of them, ahead of the first that is not smaller. -/
def insertId (i : Nat) : List Nat → List Nat
  | [] => [i]
  | j :: js => if i ≤ j then i :: j :: js else j :: insertId i js

/-- The stream ids of a presentation, in increasing order. -/
def ids (p : Presentation) : List Nat :=
  (p.streams.map (·.1.kind.streamId)).foldr insertId []

/-- Whether two presentations describe the same tracks. -/
def sameStreams (p q : Presentation) : Bool := p.ids == q.ids

end Presentation

end FlvDemux.Engine
