import Mathlib.Data.List.Induction
import FlvDemux.Proofs.Chain
import FlvDemux.Engine.Discovery

/-!
# What the scan at open learns from a file

Read all at once, the scan is a fold over the first tags of the file: `Survey.learnTag` is what
one tag teaches and `Survey.ofTags` what the header and a run of first tags teach. Where each part
of such a survey comes from is said of the tags alone (`Survey.Sources`, `Survey.ofTags_sources`).
-/

namespace FlvDemux

open Flv Script Engine

namespace Flv

/-- The first tags of the chain of `f` are `tags`, each with its offset and none marking the end
of the file, and the next tag of the chain starts at the offset the index gives. -/
inductive FirstTags (f : List UInt8) : List (Nat × TagHeader) → Nat → Prop
  | nil : FirstTags f [] (fileHeaderLength + previousTagSizeLength)
  | snoc {tags : List (Nat × TagHeader)} {o : Nat} {h : TagHeader} : FirstTags f tags o →
      tagAt f o = some h → h.isEndOfFile = false →
      FirstTags f (tags ++ [(o, h)]) (nextTagOffset o h)

section Pieces

variable (f : List UInt8) (o : Nat) (h : TagHeader)

/-- The `onMetaData` record of the tag of `f` at `o` with header `h`, when it is a non-empty
script tag whose data holds one. -/
def metadataAt : Option Metadata :=
  if h.kind = .scriptData ∧ 0 < h.dataSize.toNat then
    match Metadata.decode ((f.drop (o + tagHeaderLength)).take h.dataSize.toNat) with
    | .ok m => m
    | .error _ => none
  else none

/-- The audio packet of the tag of `f` at `o` with header `h`, when it is a non-empty audio
tag: its sub-header, read from the first byte of its data. -/
def audioPacketAt : Option AudioPacket :=
  if h.kind = .audio ∧ 0 < h.dataSize.toNat then
    (readAudioHeader h ((f.drop (o + tagHeaderLength)).take 1)).toOption
  else none

/-- The video packet of the tag of `f` at `o` with header `h`, when it is a non-empty video
tag. -/
def videoPacketAt : Option VideoPacket :=
  if h.kind = .video ∧ 0 < h.dataSize.toNat then
    (readVideoHeader h ((f.drop (o + tagHeaderLength)).take 1)).toOption
  else none

/-- The data after the sub-header of an AAC packet `p` of `f` whose tag's data starts at `q`,
when its packet type says sequence header: an AudioSpecificConfig. -/
def aacSequenceData (q : Nat) (p : AudioPacket) : Option (List UInt8) :=
  match readAacPacketType p ((f.drop (q + 1)).take 1) with
  | .ok p => if p.isSequenceHeader then some ((f.drop (q + p.subHeaderLength)).take p.payloadLength)
    else none
  | .error _ => none

/-- The data after the sub-header of an AVC packet `p` of `f` whose tag's data starts at `q`,
when its packet type says sequence header: a decoder configuration record. -/
def avcSequenceData (q : Nat) (p : VideoPacket) : Option (List UInt8) :=
  match readAvcPacketHeader p ((f.drop (q + 1)).take AvcPacketHeader.length) with
  | .ok p =>
    if p.packetType = some .sequenceHeader then
      some ((f.drop (q + p.subHeaderLength)).take p.payloadLength)
    else none
  | .error _ => none

/-- The AudioSpecificConfig of the tag of `f` at `o` with header `h`, when it is an AAC sequence
header. -/
def aacSequenceHeaderAt : Option (List UInt8) :=
  (audioPacketAt f o h).bind fun p =>
    if p.audio.isAac then aacSequenceData f (o + tagHeaderLength) p else none

/-- The AVC decoder configuration record of the tag of `f` at `o` with header `h`, when it is an
AVC sequence header. -/
def avcSequenceHeaderAt : Option (List UInt8) :=
  (videoPacketAt f o h).bind fun p =>
    if p.video.isAvc then avcSequenceData f (o + tagHeaderLength) p else none

variable {f o h}

theorem metadataAt_of_kind (hk : h.kind ≠ .scriptData) : metadataAt f o h = none := by
  simp [metadataAt, hk]

theorem audioPacketAt_of_kind (hk : h.kind ≠ .audio) : audioPacketAt f o h = none := by
  simp [audioPacketAt, hk]

theorem videoPacketAt_of_kind (hk : h.kind ≠ .video) : videoPacketAt f o h = none := by
  simp [videoPacketAt, hk]

theorem aacSequenceHeaderAt_of_none (ha : audioPacketAt f o h = none) :
    aacSequenceHeaderAt f o h = none := by
  simp [aacSequenceHeaderAt, ha]

theorem avcSequenceHeaderAt_of_none (hv : videoPacketAt f o h = none) :
    avcSequenceHeaderAt f o h = none := by
  simp [avcSequenceHeaderAt, hv]

theorem pieces_of_empty (hs : h.dataSize.toNat = 0) :
    metadataAt f o h = none ∧ audioPacketAt f o h = none ∧ videoPacketAt f o h = none := by
  simp [metadataAt, audioPacketAt, videoPacketAt, hs]

theorem metadataAt_eq {r : Option Metadata} (hk : h.kind = .scriptData) (hs : 0 < h.dataSize.toNat)
    (hr : Metadata.decode ((f.drop (o + tagHeaderLength)).take h.dataSize.toNat) = .ok r) :
    metadataAt f o h = r := by
  simp [metadataAt, hk, hs, hr]

theorem audioPacketAt_eq {p : AudioPacket} (hk : h.kind = .audio) (hs : 0 < h.dataSize.toNat)
    (hp : readAudioHeader h ((f.drop (o + tagHeaderLength)).take 1) = .ok p) :
    audioPacketAt f o h = some p := by
  simp [audioPacketAt, hk, hs, hp, Except.toOption]

theorem videoPacketAt_eq {p : VideoPacket} (hk : h.kind = .video) (hs : 0 < h.dataSize.toNat)
    (hp : readVideoHeader h ((f.drop (o + tagHeaderLength)).take 1) = .ok p) :
    videoPacketAt f o h = some p := by
  simp [videoPacketAt, hk, hs, hp, Except.toOption]

end Pieces

end Flv

/-- The tag a read for `step` fetches a piece of. -/
def Engine.ReadStep.tag? : ReadStep → Option TagHeader
  | .fileHeader | .tagHeader => none
  | .scriptPayload t | .audioHeader t | .videoHeader t => some t
  | .aacPacketType p | .audioPayload p => some p.tag
  | .avcPacketHeader p | .videoPayload p => some p.tag

/-- How many more reads of its tag may follow a read for `step`. -/
def Engine.ReadStep.rank : ReadStep → Nat
  | .audioHeader _ | .videoHeader _ => 2
  | .aacPacketType _ | .avcPacketHeader _ => 1
  | _ => 0

theorem exists_of_bind_eq_ok {ε α β : Type} {x : Except ε α} {g : α → Except ε β} {b : β}
    (h : x >>= g = .ok b) : ∃ a, x = .ok a ∧ g a = .ok b := by
  cases x with
  | error e => cases h
  | ok a => exact ⟨a, rfl, h⟩

namespace Engine.Survey

/-- What the scan learns from the rest of a tag of `f` whose data starts at `q`, from the read
for `step` on, with the survey `v`: the pieces `scanStep` reads, each where the tag holds it. -/
def resume (f : List UInt8) (q : Nat) (v : Survey) (step : ReadStep) :
    Except FormatError Survey :=
  match step with
  | .scriptPayload tag => do
    let payload ← readPayload ((f.drop q).take tag.dataSize.toNat) tag.dataSize.toNat
    match ← Metadata.decode payload with
    | some m => return { v with metadata := some m, metaSettled := true }
    | none => return v
  | .audioHeader tag => do
    let p ← readAudioHeader tag ((f.drop q).take 1)
    let v := { v with firstAudio := some (v.firstAudio.getD p) }
    if p.audio.isAac && v.aacConfig.isNone then resume f q v (.aacPacketType p) else return v
  | .aacPacketType p => do
    let p ← readAacPacketType p ((f.drop (q + 1)).take 1)
    if p.isSequenceHeader then resume f q v (.audioPayload p) else return v
  | .audioPayload p => do
    let payload ←
      readPayload ((f.drop (q + p.subHeaderLength)).take p.payloadLength) p.payloadLength
    return { v with aacConfig := some payload }
  | .videoHeader tag => do
    let p ← readVideoHeader tag ((f.drop q).take 1)
    let v := { v with firstVideo := some (v.firstVideo.getD p) }
    if p.video.isAvc && v.avcConfig.isNone then resume f q v (.avcPacketHeader p) else return v
  | .avcPacketHeader p => do
    let p ← readAvcPacketHeader p ((f.drop (q + 1)).take AvcPacketHeader.length)
    if p.packetType = some .sequenceHeader then resume f q v (.videoPayload p) else return v
  | .videoPayload p => do
    let payload ←
      readPayload ((f.drop (q + p.subHeaderLength)).take p.payloadLength) p.payloadLength
    let c ← readAvcConfig payload
    return { v with avcConfig := some c }
  | .fileHeader | .tagHeader => return v
termination_by step.rank
decreasing_by all_goals simp [ReadStep.rank]

/-- What the scan learns from the tag of `f` at `o` with header `h`, with the survey `v`: as
`scanTag` does, the data of a non-empty script tag while no metadata is known, and the pieces of
a non-empty media tag while its track is not ready. -/
def learnTag (f : List UInt8) (o : Nat) (h : TagHeader) (v : Survey) :
    Except FormatError Survey :=
  let size := h.dataSize.toNat
  match h.kind with
  | .scriptData =>
    if v.metadata.isNone && size > 0 then
      resume f (o + tagHeaderLength) { v with hasScriptData := true } (.scriptPayload h)
    else .ok v
  | .audio | .video =>
    if size > 0 then
      let v := { v with firstMediaTagOffset := some (v.firstMediaTagOffset.getD h.tagOffset),
                        metaSettled := true }
      let isAudio := h.kind = .audio
      let wanted := if isAudio then !v.audioReady else !v.videoReady
      if wanted then
        resume f (o + tagHeaderLength) v (if isAudio then .audioHeader h else .videoHeader h)
      else .ok v
    else .ok v
  | _ => .ok v

/-- What the scan learns from the file header of `f` and then the tags `tags`, in order. -/
def ofTags (f : List UInt8) (tags : List (Nat × TagHeader)) : Except FormatError Survey := do
  let fh ← readFileHeader (f.take fileHeaderLength)
  tags.foldlM (fun v t => v.learnTag f t.1 t.2) { fileHeader := some fh }

section Resume

variable {f : List UInt8} {q : Nat} {v v' : Survey}

theorem resume_audioPayload_ok {p : AudioPacket} (h : resume f q v (.audioPayload p) = .ok v') :
    v' = { v with aacConfig := some ((f.drop (q + p.subHeaderLength)).take p.payloadLength) } := by
  simp only [resume] at h
  obtain ⟨x, hx, h⟩ := exists_of_bind_eq_ok h
  obtain ⟨-, rfl⟩ := readPayload_ok hx
  cases h
  rfl

theorem resume_aacPacketType_ok {p : AudioPacket} (h : resume f q v (.aacPacketType p) = .ok v') :
    v' = { v with aacConfig := (aacSequenceData f q p).or v.aacConfig } := by
  rw [resume] at h
  obtain ⟨p', hp, h⟩ := exists_of_bind_eq_ok h
  unfold aacSequenceData
  rw [hp]
  dsimp only
  by_cases hseq : p'.isSequenceHeader = true
  · rw [if_pos hseq] at h ⊢
    rw [resume_audioPayload_ok h]
    rfl
  · rw [if_neg hseq] at h ⊢
    cases h
    rfl

theorem resume_audioHeader_ok {t : TagHeader} (h : resume f q v (.audioHeader t) = .ok v') :
    ∃ p, readAudioHeader t ((f.drop q).take 1) = .ok p ∧
      v' = { v with firstAudio := some (v.firstAudio.getD p),
                    aacConfig := if p.audio.isAac && v.aacConfig.isNone then aacSequenceData f q p
                      else v.aacConfig } := by
  rw [resume] at h
  obtain ⟨p, hp, h⟩ := exists_of_bind_eq_ok h
  refine ⟨p, hp, ?_⟩
  dsimp only at h
  by_cases haac : (p.audio.isAac && v.aacConfig.isNone) = true
  · rw [if_pos haac] at h ⊢
    have hnone : v.aacConfig = none := Option.isNone_iff_eq_none.1 (Bool.and_eq_true _ _ ▸ haac).2
    rw [resume_aacPacketType_ok h]
    simp [hnone]
  · rw [if_neg haac] at h ⊢
    cases h
    rfl

theorem resume_videoPayload_ok {p : VideoPacket} (h : resume f q v (.videoPayload p) = .ok v') :
    ∃ c, readAvcConfig ((f.drop (q + p.subHeaderLength)).take p.payloadLength) = .ok c ∧
      v' = { v with avcConfig := some c } := by
  rw [resume] at h
  obtain ⟨x, hx, h⟩ := exists_of_bind_eq_ok h
  obtain ⟨-, rfl⟩ := readPayload_ok hx
  obtain ⟨c, hc, h⟩ := exists_of_bind_eq_ok h
  cases h
  exact ⟨c, hc, rfl⟩

theorem resume_avcPacketHeader_ok {p : VideoPacket} (h : resume f q v (.avcPacketHeader p) = .ok v') :
    ∃ a, v' = { v with avcConfig := a } ∧
      a.map .ok = ((avcSequenceData f q p).map readAvcConfig).or (v.avcConfig.map .ok) := by
  rw [resume] at h
  obtain ⟨p', hp, h⟩ := exists_of_bind_eq_ok h
  unfold avcSequenceData
  rw [hp]
  dsimp only
  by_cases hseq : p'.packetType = some .sequenceHeader
  · rw [if_pos hseq] at h ⊢
    obtain ⟨c, hc, rfl⟩ := resume_videoPayload_ok h
    exact ⟨some c, rfl, by simp [hc]⟩
  · rw [if_neg hseq] at h ⊢
    cases h
    exact ⟨v.avcConfig, rfl, by simp⟩

theorem resume_videoHeader_ok {t : TagHeader} (h : resume f q v (.videoHeader t) = .ok v') :
    ∃ p a, readVideoHeader t ((f.drop q).take 1) = .ok p ∧
      v' = { v with firstVideo := some (v.firstVideo.getD p), avcConfig := a } ∧
      a.map .ok = if p.video.isAvc && v.avcConfig.isNone then
        (avcSequenceData f q p).map readAvcConfig else v.avcConfig.map .ok := by
  rw [resume] at h
  obtain ⟨p, hp, h⟩ := exists_of_bind_eq_ok h
  dsimp only at h
  by_cases havc : (p.video.isAvc && v.avcConfig.isNone) = true
  · rw [if_pos havc] at h
    have hnone : v.avcConfig = none := Option.isNone_iff_eq_none.1 (Bool.and_eq_true _ _ ▸ havc).2
    obtain ⟨a, rfl, ha⟩ := resume_avcPacketHeader_ok h
    refine ⟨p, a, hp, rfl, ?_⟩
    rw [if_pos havc, ha]
    simp [hnone]
  · rw [if_neg havc] at h
    cases h
    exact ⟨p, v.avcConfig, hp, rfl, by rw [if_neg havc]⟩

theorem resume_scriptPayload_ok {t : TagHeader} (h : resume f q v (.scriptPayload t) = .ok v') :
    ∃ r, Metadata.decode ((f.drop q).take t.dataSize.toNat) = .ok r ∧
      v' = { v with metadata := r.or v.metadata, metaSettled := r.isSome || v.metaSettled } := by
  rw [resume] at h
  obtain ⟨x, hx, h⟩ := exists_of_bind_eq_ok h
  obtain ⟨-, rfl⟩ := readPayload_ok hx
  obtain ⟨r, hr, h⟩ := exists_of_bind_eq_ok h
  refine ⟨r, hr, ?_⟩
  cases r with
  | none =>
    cases h
    rfl
  | some m =>
    cases h
    rfl

end Resume

/-- What the tag of `f` at `o` with header `h` changes in a survey `v`, giving `v'`: the file
header stays; the metadata, the first packets and the configurations found stay, and those still
missing are taken from the tag, a configuration only while the first packet of its track asks
for one. -/
structure Learns (f : List UInt8) (o : Nat) (h : TagHeader) (v v' : Survey) : Prop where
  fileHeader : v'.fileHeader = v.fileHeader
  metadata : v'.metadata = v.metadata.or (metadataAt f o h)
  firstAudio : v'.firstAudio = v.firstAudio.or (audioPacketAt f o h)
  firstVideo : v'.firstVideo = v.firstVideo.or (videoPacketAt f o h)
  aacConfig : v'.aacConfig = v.aacConfig.or (aacSequenceHeaderAt f o h) ∨
    ∃ p, v'.firstAudio = some p ∧ p.audio.isAac = false
  avcConfig : v'.avcConfig.map .ok =
      (v.avcConfig.map .ok).or ((avcSequenceHeaderAt f o h).map readAvcConfig) ∨
    ∃ p, v'.firstVideo = some p ∧ p.video.isAvc = false

section Learning

variable {f : List UInt8} {o : Nat} {h : TagHeader} {v v' : Survey}

theorem Learns.of_none (hm : metadataAt f o h = none) (ha : audioPacketAt f o h = none)
    (hv : videoPacketAt f o h = none) : Learns f o h v v :=
  ⟨rfl, by simp [hm], by simp [ha], by simp [hv],
    .inl (by simp [aacSequenceHeaderAt_of_none ha]),
    .inl (by simp [avcSequenceHeaderAt_of_none hv])⟩

@[simp] theorem audioReady_mark (v : Survey) (x : Option UInt64) (b : Bool) :
    { v with firstMediaTagOffset := x, metaSettled := b }.audioReady = v.audioReady := rfl

@[simp] theorem videoReady_mark (v : Survey) (x : Option UInt64) (b : Bool) :
    { v with firstMediaTagOffset := x, metaSettled := b }.videoReady = v.videoReady := rfl

theorem learnTag_learns_audio (hk : h.kind = .audio) (hl : learnTag f o h v = .ok v') :
    Learns f o h v v' := by
  have hm := metadataAt_of_kind (f := f) (o := o) (by rw [hk]; decide : h.kind ≠ .scriptData)
  have hv := videoPacketAt_of_kind (f := f) (o := o) (by rw [hk]; decide : h.kind ≠ .video)
  unfold learnTag at hl
  simp only [hk, ite_true, audioReady_mark] at hl
  by_cases hs0 : h.dataSize.toNat = 0
  · rw [if_neg (by omega)] at hl
    cases hl
    obtain ⟨hm0, ha0, hv0⟩ := pieces_of_empty (f := f) (o := o) hs0
    exact Learns.of_none hm0 ha0 hv0
  have hs : 0 < h.dataSize.toNat := by omega
  rw [if_pos hs] at hl
  by_cases hready : v.audioReady = true
  · rw [hready, Bool.not_true, if_neg Bool.false_ne_true] at hl
    cases hl
    obtain ⟨p, hp, hpa⟩ := (Option.any_eq_true _ _).1 hready
    refine ⟨rfl, by simp [hm], by simp [hp], by simp [hv], ?_,
      .inl (by simp [avcSequenceHeaderAt_of_none hv])⟩
    cases haac : p.audio.isAac
    · exact .inr ⟨p, hp, haac⟩
    · obtain ⟨c, hc⟩ := Option.isSome_iff_exists.1 (by simpa [haac] using hpa)
      exact .inl (by simp [hc])
  · rw [Bool.eq_false_iff.2 hready, Bool.not_false, if_pos rfl] at hl
    obtain ⟨p, hp, rfl⟩ := resume_audioHeader_ok hl
    have hpa := audioPacketAt_eq hk hs hp
    refine ⟨rfl, by simp [hm], by simp [hpa], by simp [hv], .inl ?_,
      .inl (by simp [avcSequenceHeaderAt_of_none hv])⟩
    simp only [aacSequenceHeaderAt, hpa, Option.bind_some]
    by_cases haac : p.audio.isAac = true
    · cases v.aacConfig <;> simp [haac]
    · simp [haac]

theorem learnTag_learns_video (hk : h.kind = .video) (hl : learnTag f o h v = .ok v') :
    Learns f o h v v' := by
  have hm := metadataAt_of_kind (f := f) (o := o) (by rw [hk]; decide : h.kind ≠ .scriptData)
  have ha := audioPacketAt_of_kind (f := f) (o := o) (by rw [hk]; decide : h.kind ≠ .audio)
  unfold learnTag at hl
  simp only [hk, reduceCtorEq, ite_false, videoReady_mark] at hl
  by_cases hs0 : h.dataSize.toNat = 0
  · rw [if_neg (by omega)] at hl
    cases hl
    obtain ⟨hm0, ha0, hv0⟩ := pieces_of_empty (f := f) (o := o) hs0
    exact Learns.of_none hm0 ha0 hv0
  have hs : 0 < h.dataSize.toNat := by omega
  rw [if_pos hs] at hl
  by_cases hready : v.videoReady = true
  · rw [hready, Bool.not_true, if_neg Bool.false_ne_true] at hl
    cases hl
    obtain ⟨p, hp, hpv⟩ := (Option.any_eq_true _ _).1 hready
    refine ⟨rfl, by simp [hm], by simp [ha], by simp [hp],
      .inl (by simp [aacSequenceHeaderAt_of_none ha]), ?_⟩
    cases havc : p.video.isAvc
    · exact .inr ⟨p, hp, havc⟩
    · obtain ⟨c, hc⟩ := Option.isSome_iff_exists.1 (by simpa [havc] using hpv)
      exact .inl (by simp [hc])
  · rw [Bool.eq_false_iff.2 hready, Bool.not_false, if_pos rfl] at hl
    obtain ⟨p, a, hp, rfl, hav⟩ := resume_videoHeader_ok hl
    have hpv := videoPacketAt_eq hk hs hp
    refine ⟨rfl, by simp [hm], by simp [ha], by simp [hpv],
      .inl (by simp [aacSequenceHeaderAt_of_none ha]), .inl ?_⟩
    simp only [avcSequenceHeaderAt, hpv, Option.bind_some]
    rw [hav]
    by_cases havc : p.video.isAvc = true
    · cases v.avcConfig <;> simp [havc]
    · simp [havc]

theorem learnTag_learns_script (hk : h.kind = .scriptData) (hl : learnTag f o h v = .ok v') :
    Learns f o h v v' := by
  have ha := audioPacketAt_of_kind (f := f) (o := o) (by rw [hk]; decide : h.kind ≠ .audio)
  have hv := videoPacketAt_of_kind (f := f) (o := o) (by rw [hk]; decide : h.kind ≠ .video)
  have hmedia : ∀ {w : Survey}, w.aacConfig = w.aacConfig.or (aacSequenceHeaderAt f o h) ∧
      w.avcConfig.map Except.ok =
        (w.avcConfig.map Except.ok).or ((avcSequenceHeaderAt f o h).map readAvcConfig) := by
    simp [aacSequenceHeaderAt_of_none ha, avcSequenceHeaderAt_of_none hv]
  unfold learnTag at hl
  simp only [hk] at hl
  by_cases hread : (v.metadata.isNone && decide (h.dataSize.toNat > 0)) = true
  · rw [if_pos hread] at hl
    obtain ⟨r, hr, rfl⟩ := resume_scriptPayload_ok hl
    have hnone : v.metadata = none := Option.isNone_iff_eq_none.1 (Bool.and_eq_true _ _ ▸ hread).1
    have hs : 0 < h.dataSize.toNat := of_decide_eq_true (Bool.and_eq_true _ _ ▸ hread).2
    exact ⟨rfl, by simp [hnone, metadataAt_eq hk hs hr], by simp [ha], by simp [hv],
      .inl hmedia.1, .inl hmedia.2⟩
  · rw [if_neg hread] at hl
    cases hl
    refine ⟨rfl, ?_, by simp [ha], by simp [hv], .inl hmedia.1, .inl hmedia.2⟩
    cases hmd : v.metadata with
    | some m => rfl
    | none =>
      have hs0 : h.dataSize.toNat = 0 := by simp [hmd] at hread; omega
      simp [(pieces_of_empty (f := f) (o := o) hs0).1]

theorem learnTag_learns (hl : learnTag f o h v = .ok v') : Learns f o h v v' := by
  cases hk : h.kind with
  | audio => exact learnTag_learns_audio hk hl
  | video => exact learnTag_learns_video hk hl
  | scriptData => exact learnTag_learns_script hk hl
  | endOfFile | other c =>
    simp only [learnTag, hk] at hl
    cases hl
    exact Learns.of_none (metadataAt_of_kind (by simp [hk])) (audioPacketAt_of_kind (by simp [hk]))
      (videoPacketAt_of_kind (by simp [hk]))

end Learning

/-- Where each part of a survey `v` of `f` comes from, the scan having read the tags `tags`: the
file header of `f`; the metadata of the first non-empty script tag that holds `onMetaData`; the
first packets of the first non-empty audio and video tags; and the AAC AudioSpecificConfig and
the AVC configuration of the first sequence header of their codec, unless the first packet of
their track has another codec. -/
structure Sources (f : List UInt8) (tags : List (Nat × TagHeader)) (v : Survey) : Prop where
  fileHeader : v.fileHeader = (readFileHeader (f.take fileHeaderLength)).toOption
  metadata : v.metadata = tags.findSome? fun t => metadataAt f t.1 t.2
  firstAudio : v.firstAudio = tags.findSome? fun t => audioPacketAt f t.1 t.2
  firstVideo : v.firstVideo = tags.findSome? fun t => videoPacketAt f t.1 t.2
  aacConfig : v.aacConfig = (tags.findSome? fun t => aacSequenceHeaderAt f t.1 t.2) ∨
    ∃ p, v.firstAudio = some p ∧ p.audio.isAac = false
  avcConfig : v.avcConfig.map .ok =
      (tags.findSome? fun t => avcSequenceHeaderAt f t.1 t.2).map readAvcConfig ∨
    ∃ p, v.firstVideo = some p ∧ p.video.isAvc = false

section Sources

variable {f : List UInt8} {tags : List (Nat × TagHeader)} {v v' : Survey}

theorem ofTags_nil {fh : FileHeader} (hfh : readFileHeader (f.take fileHeaderLength) = .ok fh) :
    ofTags f [] = .ok { fileHeader := some fh } := by
  simp [ofTags, hfh, bind, Except.bind, pure, Except.pure]

theorem ofTags_append (t : Nat × TagHeader) :
    ofTags f (tags ++ [t]) = ofTags f tags >>= fun v => v.learnTag f t.1 t.2 := by
  simp [ofTags, List.foldlM_append, bind_assoc]

theorem sources_nil {fh : FileHeader} (hfh : readFileHeader (f.take fileHeaderLength) = .ok fh) :
    Sources f [] { fileHeader := some fh } :=
  ⟨by simp [hfh, Except.toOption], rfl, rfl, rfl, .inl rfl, .inl rfl⟩

theorem Sources.snoc {o : Nat} {h : TagHeader} (hs : Sources f tags v) (hl : Learns f o h v v') :
    Sources f (tags ++ [(o, h)]) v' := by
  have hfa : ∀ p, v.firstAudio = some p → v'.firstAudio = some p := fun p hp => by
    rw [hl.firstAudio, hp]
    rfl
  have hfv : ∀ p, v.firstVideo = some p → v'.firstVideo = some p := fun p hp => by
    rw [hl.firstVideo, hp]
    rfl
  refine ⟨hl.fileHeader.trans hs.fileHeader, ?_, ?_, ?_, ?_, ?_⟩
  · rw [hl.metadata, hs.metadata, List.findSome?_append]
    simp
  · rw [hl.firstAudio, hs.firstAudio, List.findSome?_append]
    simp
  · rw [hl.firstVideo, hs.firstVideo, List.findSome?_append]
    simp
  · rcases hs.aacConfig with hc | ⟨p, hp, hna⟩
    · rcases hl.aacConfig with hc' | hna'
      · refine .inl ?_
        rw [hc', hc, List.findSome?_append]
        simp
      · exact .inr hna'
    · exact .inr ⟨p, hfa p hp, hna⟩
  · rcases hs.avcConfig with hc | ⟨p, hp, hna⟩
    · rcases hl.avcConfig with hc' | hna'
      · refine .inl ?_
        rw [hc', hc, List.findSome?_append, Option.map_or]
        simp
      · exact .inr hna'
    · exact .inr ⟨p, hfv p hp, hna⟩

theorem ofTags_sources (hv : ofTags f tags = .ok v) : Sources f tags v := by
  induction tags using List.reverseRecOn generalizing v with
  | nil =>
    simp only [ofTags, List.foldlM_nil] at hv
    obtain ⟨fh, hfh, hv⟩ := exists_of_bind_eq_ok hv
    cases hv
    exact sources_nil hfh
  | append_singleton tags t ih =>
    rw [ofTags_append] at hv
    obtain ⟨w, hw, hl⟩ := exists_of_bind_eq_ok hv
    exact (ih hw).snoc (learnTag_learns hl)

end Sources

section Describing

variable {v : Survey}

theorem videoDescriptor_fields {p : VideoPacket} {fmt : VideoFormat}
    (h : v.videoDescriptor p = some (.video fmt)) :
    p.video.isAvc = true ∧ ∃ c, v.avcConfig = some c ∧ fmt.profile = c.profile ∧
      fmt.level = c.level ∧ fmt.nalLengthSize = c.nalLengthSize ∧
      fmt.sequenceHeader = c.sequenceHeader.getD [] := by
  unfold videoDescriptor at h
  cases havc : p.video.isAvc
  · simp [havc] at h
  · cases hc : v.avcConfig with
    | none => simp [havc, hc] at h
    | some c =>
      simp [havc, hc] at h
      subst h
      exact ⟨rfl, c, rfl, rfl, rfl, rfl, rfl⟩

theorem audioDescriptor_fields {p : AudioPacket} {fmt : AudioFormat}
    (h : v.audioDescriptor p = some (.audio fmt)) :
    audioCodecOf p.audio.format = some fmt.codec ∧
      fmt.audioSpecificConfig = (if fmt.codec = .aac then v.aacConfig else none) ∧
      ∀ x c, fmt.audioSpecificConfig = some x → Aac.AudioConfig.parse x = .ok c →
        fmt.sampleRate = c.frequency ∧ fmt.channels = c.channelCount.getD p.audio.channels := by
  unfold audioDescriptor at h
  cases hcodec : audioCodecOf p.audio.format with
  | none => simp [hcodec] at h
  | some codec =>
    simp only [hcodec, bind, Option.bind, pure, Option.some.injEq,
      StreamDescriptor.audio.injEq] at h
    subst h
    refine ⟨rfl, rfl, fun x c hx hc => ?_⟩
    dsimp only at hx ⊢
    rw [hx]
    simp [hc]

theorem videoDescriptor_of_avc {p : VideoPacket} {c : Avc.Config} (hp : p.video.isAvc = true)
    (hc : v.avcConfig = some c) : ∃ fmt, v.videoDescriptor p = some (.video fmt) := by
  simp [videoDescriptor, hp, hc]

theorem audioDescriptor_of_codec {p : AudioPacket} {codec : AudioCodec}
    (hc : audioCodecOf p.audio.format = some codec) :
    ∃ fmt, v.audioDescriptor p = some (.audio fmt) := by
  simp [audioDescriptor, hc, bind, Option.bind, pure]

theorem videoDescriptor_video {p : VideoPacket} {d : StreamDescriptor}
    (h : v.videoDescriptor p = some d) : ∃ fmt, d = .video fmt := by
  unfold videoDescriptor at h
  cases havc : p.video.isAvc <;> cases hc : v.avcConfig <;> simp [havc, hc] at h
  exact ⟨_, h.symm⟩

theorem audioDescriptor_audio {p : AudioPacket} {d : StreamDescriptor}
    (h : v.audioDescriptor p = some d) : ∃ fmt, d = .audio fmt := by
  unfold audioDescriptor at h
  cases hcodec : audioCodecOf p.audio.format with
  | none => simp [hcodec] at h
  | some codec =>
    simp only [hcodec, bind, Option.bind, pure, Option.some.injEq] at h
    exact ⟨_, h.symm⟩

theorem mem_descriptors_video {fmt : VideoFormat} : StreamDescriptor.video fmt ∈ v.descriptors ↔
    ∃ p, v.firstVideo = some p ∧ v.videoDescriptor p = some (.video fmt) := by
  constructor
  · intro hm
    rcases List.mem_append.1 hm with hm | hm
    · obtain ⟨p, hp, hd⟩ := Option.bind_eq_some_iff.1 (Option.mem_toList.1 hm)
      exact ⟨p, hp, hd⟩
    · obtain ⟨p, -, hd⟩ := Option.bind_eq_some_iff.1 (Option.mem_toList.1 hm)
      obtain ⟨_, h⟩ := audioDescriptor_audio hd
      cases h
  · intro hp
    obtain ⟨p, hp, hd⟩ := hp
    exact List.mem_append_left _ (Option.mem_toList.2 (Option.bind_eq_some_iff.2 ⟨p, hp, hd⟩))

theorem mem_descriptors_audio {fmt : AudioFormat} : StreamDescriptor.audio fmt ∈ v.descriptors ↔
    ∃ p, v.firstAudio = some p ∧ v.audioDescriptor p = some (.audio fmt) := by
  constructor
  · intro hm
    rcases List.mem_append.1 hm with hm | hm
    · obtain ⟨p, -, hd⟩ := Option.bind_eq_some_iff.1 (Option.mem_toList.1 hm)
      obtain ⟨_, h⟩ := videoDescriptor_video hd
      cases h
    · obtain ⟨p, hp, hd⟩ := Option.bind_eq_some_iff.1 (Option.mem_toList.1 hm)
      exact ⟨p, hp, hd⟩
  · intro hp
    obtain ⟨p, hp, hd⟩ := hp
    exact List.mem_append_right _ (Option.mem_toList.2 (Option.bind_eq_some_iff.2 ⟨p, hp, hd⟩))

theorem ready_video (hr : v.isReady = true) (he : v.expectsVideo = true) :
    ∃ p, v.firstVideo = some p ∧
      (p.video.isAvc = true ↔ ∃ fmt, StreamDescriptor.video fmt ∈ v.descriptors) := by
  have hready : v.videoReady = true := by
    simp only [isReady, he, Bool.and_eq_true, Bool.not_true, Bool.false_or] at hr
    exact hr.1.2
  obtain ⟨p, hp, hpr⟩ := (Option.any_eq_true _ _).1 hready
  refine ⟨p, hp, ⟨fun havc => ?_, fun hm => ?_⟩⟩
  · obtain ⟨c, hc⟩ := Option.isSome_iff_exists.1 (by simpa [havc] using hpr)
    obtain ⟨fmt, hd⟩ := videoDescriptor_of_avc havc hc
    exact ⟨fmt, mem_descriptors_video.2 ⟨p, hp, hd⟩⟩
  · obtain ⟨fmt, hm⟩ := hm
    obtain ⟨p', hp', hd⟩ := mem_descriptors_video.1 hm
    rw [hp] at hp'
    cases hp'
    exact (videoDescriptor_fields hd).1

theorem ready_audio (hr : v.isReady = true) (he : v.expectsAudio = true) :
    ∃ p, v.firstAudio = some p ∧
      ((audioCodecOf p.audio.format).isSome = true ↔
        ∃ fmt, StreamDescriptor.audio fmt ∈ v.descriptors) := by
  have hready : v.audioReady = true := by
    simp only [isReady, he, Bool.and_eq_true, Bool.not_true, Bool.false_or] at hr
    exact hr.2
  obtain ⟨p, hp, -⟩ := (Option.any_eq_true _ _).1 hready
  refine ⟨p, hp, ⟨fun hc => ?_, fun hm => ?_⟩⟩
  · obtain ⟨codec, hcodec⟩ := Option.isSome_iff_exists.1 hc
    obtain ⟨fmt, hd⟩ := audioDescriptor_of_codec (v := v) hcodec
    exact ⟨fmt, mem_descriptors_audio.2 ⟨p, hp, hd⟩⟩
  · obtain ⟨fmt, hm⟩ := hm
    obtain ⟨p', hp', hd⟩ := mem_descriptors_audio.1 hm
    rw [hp] at hp'
    cases hp'
    rw [(audioDescriptor_fields hd).1]
    rfl

end Describing

end Engine.Survey

namespace Engine

theorem Presentation.mem_ofStreams {ds : List StreamDescriptor} {d : StreamDescriptor} {b : Bool}
    {dur : Nat} : (d, b) ∈ (Presentation.ofStreams ds dur).streams ↔ d ∈ ds ∧ b = true := by
  simp only [Presentation.ofStreams, List.mem_map, Prod.mk.injEq]
  constructor
  · intro hm
    obtain ⟨d', hd', rfl, rfl⟩ := hm
    exact ⟨hd', rfl⟩
  · intro hm
    exact ⟨d, hm.1, rfl, hm.2.symm⟩

/-- The presentation a scan answers with, from its survey: every track the survey describes,
selected, with the duration its metadata gives. -/
def Survey.presentation (v : Survey) : Presentation :=
  Presentation.ofStreams v.descriptors ((v.metadata.map Metadata.durationHns).getD 0)

/-- What the presentation of the survey `v` of the tags `tags` of `f` says of them. When `v` is
ready, every track it expects has a first packet among the tags, and a description exactly when
that packet's codec is one a demuxer plays. An AVC description takes its profile, level, NAL
length size and parameter sets from the first AVC sequence header among the tags; an AAC
description carries the data of the first AAC sequence header among them, and where that
AudioSpecificConfig reads correctly, its rate and, for channel configurations 1 to 7, its
channels, the sub-header of the first audio packet giving them otherwise. -/
structure Survey.Presents (f : List UInt8) (tags : List (Nat × TagHeader)) (v : Survey) :
    Prop where
  readyVideo : v.isReady = true → v.expectsVideo = true →
    ∃ p, (tags.findSome? fun t => videoPacketAt f t.1 t.2) = some p ∧
      (p.video.isAvc = true ↔ ∃ fmt, (StreamDescriptor.video fmt, true) ∈ v.presentation.streams)
  readyAudio : v.isReady = true → v.expectsAudio = true →
    ∃ p, (tags.findSome? fun t => audioPacketAt f t.1 t.2) = some p ∧
      ((Survey.audioCodecOf p.audio.format).isSome = true ↔
        ∃ fmt, (StreamDescriptor.audio fmt, true) ∈ v.presentation.streams)
  avc : ∀ fmt, (StreamDescriptor.video fmt, true) ∈ v.presentation.streams →
    ∃ x c, (tags.findSome? fun t => avcSequenceHeaderAt f t.1 t.2) = some x ∧
      readAvcConfig x = .ok c ∧ fmt.profile = c.profile ∧ fmt.level = c.level ∧
      fmt.nalLengthSize = c.nalLengthSize ∧ fmt.sequenceHeader = c.sequenceHeader.getD []
  aac : ∀ fmt, (StreamDescriptor.audio fmt, true) ∈ v.presentation.streams → fmt.codec = .aac →
    fmt.audioSpecificConfig = (tags.findSome? fun t => aacSequenceHeaderAt f t.1 t.2) ∧
    ∃ p, (tags.findSome? fun t => audioPacketAt f t.1 t.2) = some p ∧
      ∀ x c, fmt.audioSpecificConfig = some x → Aac.AudioConfig.parse x = .ok c →
        fmt.sampleRate = c.frequency ∧ fmt.channels = c.channelCount.getD p.audio.channels

section Presents

variable {f : List UInt8} {tags : List (Nat × TagHeader)} {v : Survey}

theorem Survey.mem_presentation {d : StreamDescriptor} :
    (d, true) ∈ v.presentation.streams ↔ d ∈ v.descriptors := by
  simp [Survey.presentation, Presentation.mem_ofStreams]

theorem Survey.isAac_of_codec {p : AudioPacket} (h : Survey.audioCodecOf p.audio.format = some .aac) :
    p.audio.isAac = true := by
  unfold Survey.audioCodecOf at h
  unfold AudioHeader.isAac
  split at h
  · rename_i hf
    rw [hf]
    rfl
  all_goals cases h

theorem Survey.Sources.presents (hs : v.Sources f tags) : v.Presents f tags := by
  refine ⟨fun hr he => ?_, fun hr he => ?_, fun fmt hm => ?_, fun fmt hm haac => ?_⟩
  · obtain ⟨p, hp, hiff⟩ := Survey.ready_video hr he
    exact ⟨p, hs.firstVideo ▸ hp, by simpa only [Survey.mem_presentation] using hiff⟩
  · obtain ⟨p, hp, hiff⟩ := Survey.ready_audio hr he
    exact ⟨p, hs.firstAudio ▸ hp, by simpa only [Survey.mem_presentation] using hiff⟩
  · obtain ⟨p, hp, hd⟩ := Survey.mem_descriptors_video.1 (Survey.mem_presentation.1 hm)
    obtain ⟨havc, c, hc, hfields⟩ := Survey.videoDescriptor_fields hd
    rcases hs.avcConfig with hsrc | ⟨p', hp', hna⟩
    · rw [hc] at hsrc
      obtain ⟨x, hx, hxc⟩ := Option.map_eq_some_iff.1 hsrc.symm
      exact ⟨x, c, hx, hxc, hfields⟩
    · rw [hp] at hp'
      cases hp'
      rw [havc] at hna
      cases hna
  · obtain ⟨p, hp, hd⟩ := Survey.mem_descriptors_audio.1 (Survey.mem_presentation.1 hm)
    obtain ⟨hcodec, hasc, hrate⟩ := Survey.audioDescriptor_fields hd
    rw [haac] at hcodec
    have hpa := Survey.isAac_of_codec hcodec
    refine ⟨?_, p, hs.firstAudio ▸ hp, hrate⟩
    rw [hasc, if_pos haac]
    rcases hs.aacConfig with hsrc | ⟨p', hp', hna⟩
    · exact hsrc
    · rw [hp] at hp'
      cases hp'
      rw [hpa] at hna
      cases hna

end Presents

end Engine

end FlvDemux
