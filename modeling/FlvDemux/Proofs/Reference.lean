import FlvDemux.Proofs.FileSurvey

/-!
# What a demuxer plays from a file

Said of the file alone, a track plays the walk of the chain of tags from the first media tag
(`Flv.demuxFrom`), each tag giving it at most one sample (`Flv.tagSample`). Only video carries a
state from tag to tag, so the walk is a fold (`Flv.demuxTags`), and its first tags give what the
whole walk gives first (`Flv.demuxTags_prefix`).
-/

namespace FlvDemux

open Engine

/-- The tag kind whose tags feed the track of a kind. -/
def Engine.TrackKind.tagKind : TrackKind → Flv.TagKind
  | .audio => .audio
  | .video => .video

namespace Flv

/-- The AVC configuration in force while a demuxer plays, and whether its parameter sets have
gone out ahead of a picture since it came into force. -/
structure AvcState where
  config : Option Avc.Config
  sent : Bool
  deriving DecidableEq, Repr

section Tag

variable (f : List UInt8) (o : Nat) (h : TagHeader)

/-- The AVC packet of the tag of `f` at `o` with header `h`, when it is a non-empty AVC video tag:
its video packet with the packet header that follows the sub-header byte. -/
def avcPacketAt : Option VideoPacket :=
  (videoPacketAt f o h).bind fun p =>
    if p.video.isAvc then
      (readAvcPacketHeader p ((f.drop (o + tagHeaderLength + 1)).take AvcPacketHeader.length)).toOption
    else none

/-- The audio sample of the tag of `f` at `o` with header `h`, when it is a non-empty audio tag:
the data after its sub-header, at the tag's time. -/
def audioSampleAt : Option Sample :=
  (audioPacketAt f o h).map fun p =>
    { buffers := [(f.drop (o + tagHeaderLength + p.subHeaderLength)).take p.payloadLength]
      timestampHns := h.timestampHns }

/-- The picture of an AVC packet `p` of the tag of `f` at `o` with header `h`, as a sample: its
NAL units `units`, led by the parameter sets of the configuration `cfg` unless they went out. -/
def pictureOf (p : VideoPacket) (cfg : Avc.Config) (sent : Bool) (units : List UInt8) : Sample :=
  { buffers := (if sent then [] else cfg.privateData.toList) ++ [units]
    timestampHns := h.timestampHns
    compositionOffsetHns := p.compositionOffsetHns
    keyFrame := p.video.isKeyFrame }

/-- What the tag of `f` at `o` with header `h` gives the video track from the configuration state
`c`. A sequence header puts its configuration in force, to go out again when it differs from the
one in force; a picture becomes a sample, led by the configuration when that has not gone out,
and gives nothing when no configuration is in force; every other tag gives nothing. A part that
cannot be read gives nothing either. -/
def videoStep (c : AvcState) : Option Sample × AvcState :=
  match avcPacketAt f o h with
  | none => (none, c)
  | some p =>
    let data := (f.drop (o + tagHeaderLength + p.subHeaderLength)).take p.payloadLength
    if p.packetType = some .sequenceHeader then
      match readAvcConfig data with
      | .ok cfg => (none, if c.config = some cfg then c else ⟨some cfg, false⟩)
      | .error _ => (none, c)
    else if p.packetType = some .nalu then
      match c.config with
      | none => (none, c)
      | some cfg =>
        match readNalUnits cfg data with
        | .ok units => (some (pictureOf h p cfg c.sent units), ⟨c.config, true⟩)
        | .error _ => (none, c)
    else (none, c)

/-- What the tag of `f` at `o` with header `h` gives the track of a kind, from the configuration
state `c`, and the configuration state after it. -/
def tagSample : TrackKind → AvcState → Option Sample × AvcState
  | .audio, c => (audioSampleAt f o h, c)
  | .video, c => videoStep f o h c

end Tag

set_option linter.unusedVariables false in
/-- The samples of the track of kind `k` that the chain of `f` gives from the tag at `o` on,
from the configuration state `c`. -/
def demuxFrom (f : List UInt8) (k : TrackKind) (o : Nat) (c : AvcState) : List Sample :=
  match ht : tagAt f o with
  | none => []
  | some h =>
    if h.isEndOfFile then []
    else (tagSample f o h k c).1.toList ++ demuxFrom f k (nextTagOffset o h) (tagSample f o h k c).2
termination_by f.length + 1 - o
decreasing_by
  have := tagAt_le ht
  simp only [nextTagOffset, tagHeaderLength, previousTagSizeLength] at this ⊢
  omega

/-- The samples a demuxer that opened `f` with the survey `v` plays on the track of kind `k`: the
walk of the chain from the first media tag, with the configuration the survey found in force and
not gone out yet. -/
def demux (f : List UInt8) (v : Survey) (k : TrackKind) : List Sample :=
  demuxFrom f k v.firstMediaOffset ⟨v.avcConfig, false⟩

/-- The samples of the track of kind `k` that the tags `tags` give in turn from the configuration
state `c`, and the configuration state after them. -/
def demuxTags (f : List UInt8) (k : TrackKind) (tags : List (Nat × TagHeader)) (c : AvcState) :
    List Sample × AvcState :=
  tags.foldl (fun r t => (r.1 ++ (tagSample f t.1 t.2 k r.2).1.toList, (tagSample f t.1 t.2 k r.2).2))
    ([], c)

/-- The tags of the chain of `f` from the tag at `o` are `tags`, in order, none marking the end of
the file, and the chain goes on at `e`. -/
inductive ChainFrom (f : List UInt8) (o : Nat) : List (Nat × TagHeader) → Nat → Prop
  | nil : ChainFrom f o [] o
  | snoc {tags : List (Nat × TagHeader)} {e : Nat} {h : TagHeader} : ChainFrom f o tags e →
      tagAt f e = some h → h.isEndOfFile = false → ChainFrom f o (tags ++ [(e, h)]) (nextTagOffset e h)

section Walk

variable {f : List UInt8} {k : TrackKind} {o e : Nat} {h : TagHeader} {c : AvcState}
  {tags : List (Nat × TagHeader)}

theorem demuxFrom_of_tag (ht : tagAt f o = some h) (hk : h.isEndOfFile = false) :
    demuxFrom f k o c =
      (tagSample f o h k c).1.toList ++ demuxFrom f k (nextTagOffset o h) (tagSample f o h k c).2 := by
  rw [demuxFrom]
  split
  · rename_i hn
    rw [ht] at hn
    cases hn
  · rename_i h' ht'
    rw [ht] at ht'
    cases ht'
    simp [hk]

@[simp] theorem demuxTags_nil (f : List UInt8) (k : TrackKind) (c : AvcState) :
    demuxTags f k [] c = ([], c) := rfl

theorem demuxTags_concat (f : List UInt8) (k : TrackKind) (tags : List (Nat × TagHeader))
    (o : Nat) (h : TagHeader) (c : AvcState) :
    demuxTags f k (tags ++ [(o, h)]) c =
      ((demuxTags f k tags c).1 ++ (tagSample f o h k (demuxTags f k tags c).2).1.toList,
        (tagSample f o h k (demuxTags f k tags c).2).2) := by
  simp [demuxTags, List.foldl_append]

theorem demuxFrom_chain (hc : ChainFrom f o tags e) :
    demuxFrom f k o c = (demuxTags f k tags c).1 ++ demuxFrom f k e (demuxTags f k tags c).2 := by
  induction hc with
  | nil => simp
  | snoc hc ht hk ih =>
    rw [ih, demuxFrom_of_tag ht hk, demuxTags_concat]
    simp

theorem demuxTags_prefix (hc : ChainFrom f o tags e) :
    (demuxTags f k tags c).1 <+: demuxFrom f k o c := by
  rw [demuxFrom_chain hc]
  exact List.prefix_append _ _

end Walk

section Nothing

variable {f : List UInt8} {o : Nat} {h : TagHeader} {c : AvcState}

theorem avcPacketAt_of_kind (hk : ¬(h.kind = .video ∧ 0 < h.dataSize.toNat)) :
    avcPacketAt f o h = none := by
  simp [avcPacketAt, videoPacketAt, hk]

theorem tagSample_of_kind {k : TrackKind} (hk : ¬(h.kind = k.tagKind ∧ 0 < h.dataSize.toNat)) :
    tagSample f o h k c = (none, c) := by
  cases k with
  | audio =>
    have hnone : audioPacketAt f o h = none := if_neg hk
    simp [tagSample, audioSampleAt, hnone]
  | video =>
    have hnone : avcPacketAt f o h = none := avcPacketAt_of_kind hk
    simp [tagSample, videoStep, hnone]

theorem videoStep_of_none (hp : avcPacketAt f o h = none) : videoStep f o h c = (none, c) := by
  simp [videoStep, hp]

theorem videoStep_of_other {p : VideoPacket} (hp : avcPacketAt f o h = some p)
    (ht : ¬(p.packetType = some .sequenceHeader ∨ p.packetType = some .nalu)) :
    videoStep f o h c = (none, c) := by
  rw [not_or] at ht
  simp [videoStep, hp, ht.1, ht.2]

end Nothing

end Flv

end FlvDemux
