import FlvDemux.Proofs.Streaming

/-!
# The scan at open keeps to the chain

While opening, each completed read (`scanStep`) either issues the next piece of the tag it is
in, passes over the rest of the tag and reads the next header, or ends the scan. Ending it
(`finishOpen`) leaves the demuxer `Rewound`: stopped, with its stream at the first media tag,
which the scan has found on the chain.
-/

namespace FlvDemux.Engine

open Flv

/-- The scan or a stop has put the demuxer back: stopped, walking from its first media tag. -/
def Rewound (f : List UInt8) (s : Source) : Prop :=
  s.phase = .stopped ∧ Sound f s.survey.firstMediaOffset s

section Support

@[simp] theorem updateSurvey_run (g : Survey → Survey) (s : Source) :
    (updateSurvey g).run s = ((), { s with survey := g s.survey }) := rfl

theorem guarded_bind_ok {α : Type} {m : Step α} {k : α → Step Unit} {s s' : Source} {a : α}
    (h : Step.exec m s = (.ok a, s')) : (guarded (m >>= k)).run s = (guarded (k a)).run s' := by
  rw [guarded_run, guarded_run, Step.exec_bind, h]

variable {f : List UInt8} {q : Nat} {s : Source}

theorem Source.setTrack_quiet (s : Source) (k : TrackKind) (t : Track) : s.Quiet (s.setTrack k t) := by
  cases k <;> rfl

theorem Source.foldl_setTrack_quiet {α : Type} (g : α → TrackKind) (h : α → Track) (xs : List α)
    (s : Source) : s.Quiet (xs.foldl (fun s d => s.setTrack (g d) (h d)) s) := by
  induction xs generalizing s with
  | nil => exact .refl s
  | cons x xs ih => exact (s.setTrack_quiet _ _).trans (ih _)

theorem Idle.congr (hi : Idle f q s) {s' : Source}
    (hlive : s'.phase ≠ .shutdown ∧ s'.phase ≠ .invalid) (hsession : s'.session = s.session)
    (htasks : s'.tasks = s.tasks) (hop : s'.pendingOp = s.pendingOp)
    (hin : s'.readInFlight = s.readInFlight) (hp : s'.pending = s.pending)
    (hst : s'.stream = s.stream) (hopening : s'.phase = .opening → s'.pendingOp = false)
    (hfirst : OnChain f s'.survey.firstMediaOffset) : Idle f q s' := by
  obtain ⟨-, hw, hr, hc, hf, hpn, hs, -, -⟩ := hi
  refine ⟨hlive, ?_, ?_, ?_, ?_, ?_, ?_, hopening, hfirst⟩
  · rw [hsession]; exact hw
  · rw [htasks]; exact hr
  · rw [htasks, hop]; exact hc
  · rw [hin]; exact hf
  · rw [hp]; exact hpn
  · rw [hst]; exact hs

theorem Idle.withSurvey (hi : Idle f q s) (v : Survey) (hv : OnChain f v.firstMediaOffset) :
    Idle f q { s with survey := v } :=
  hi.congr hi.live rfl rfl rfl rfl rfl rfl hi.opening hv

theorem Idle.rewound (hi : Idle f q s) (hr : s.rewindPending = false) {st : ByteStream}
    (hs : s.stream = some st) {t : Source} (hph : t.phase = .stopped)
    (hsession : t.session = s.session) (htasks : t.tasks = s.tasks)
    (hop : t.pendingOp = s.pendingOp) (hin : t.readInFlight = s.readInFlight)
    (hp : t.pending = s.pending) (hsurvey : t.survey = s.survey)
    (hst : t.stream = some { st with position := s.survey.firstMediaOffset })
    (hr' : t.rewindPending = s.rewindPending) (hk : t.skipPrefix = false) : Rewound f t := by
  have hit : Idle f t.survey.firstMediaOffset t := by
    rw [hsurvey]
    exact (hi.move hs s.survey.firstMediaOffset).congr (by simp [hph]) hsession htasks hop hin hp hst
      (by simp [hph]) (hsurvey ▸ hi.first)
  have hnext : t.nextHeaderAt = t.survey.firstMediaOffset := by
    simp [Source.nextHeaderAt, hr', hr, hk, hit.position]
  exact ⟨hph, .inr (hit.walking ⟨by simp [hph], fun _ => ⟨rfl, hnext⟩, fun _ => .inl hnext⟩ hit.first)⟩

end Support

section Finish

variable {f : List UInt8} {q e : Nat} {s : Source}

theorem finishOpen_rewound (hi : Idle f q s) (hr : s.rewindPending = false) :
    Sound f e ((guarded finishOpen).run s).2 ∨ Rewound f ((guarded finishOpen).run s).2 := by
  rw [guarded_run]
  simp only [finishOpen, Step.exec_bind, Step.exec_get]
  by_cases hempty : s.survey.descriptors.isEmpty = true
  · simp only [if_pos hempty]
    exact .inl (fail_sound hi.live.1 _)
  simp only [if_neg hempty]
  by_cases hmeta : (s.config.requireMetadata && s.survey.metadata.isNone) = true
  · simp only [if_pos hmeta]
    exact .inl (fail_sound hi.live.1 _)
  simp only [if_neg hmeta]
  obtain ⟨st, hs, hd, -⟩ := hi.stream
  have hq1 := Source.foldl_setTrack_quiet (fun d : StreamDescriptor => d.kind)
    (fun d => Track.new d.kind (SourceConfig.clampDepth s.config.queueDepth)) s.survey.descriptors s
  simp only [Step.exec_bind, Step.exec_set, seekStream_exec, hq1.stream, hs, ByteStream.seek_start,
    Step.exec_modify]
  generalize List.foldl (fun t d => t.setTrack d.kind
    (Track.new d.kind (SourceConfig.clampDepth s.config.queueDepth))) s s.survey.descriptors = s1 at hq1 ⊢
  refine .inr ?_
  split
  · exact hi.rewound hr hs rfl hq1.session hq1.tasks hq1.pendingOp hq1.readInFlight hq1.pending
      hq1.survey rfl hq1.rewindPending rfl
  · exact hi.rewound hr hs rfl hq1.session hq1.tasks hq1.pendingOp hq1.readInFlight hq1.pending
      hq1.survey rfl hq1.rewindPending rfl

theorem continueScan_sound (hi : Idle f q s) (hph : s.phase = .opening)
    (hr : s.rewindPending = false) (hs : s.skipPrefix = true) (he : q + previousTagSizeLength = e)
    (hc : OnChain f e) :
    Sound f e ((guarded continueScan).run s).2 ∨ Rewound f ((guarded continueScan).run s).2 := by
  have hfin := finishOpen_rewound (e := e) hi hr
  have hnext := readNextTag_idle hi (.inl hph) (.inl (by rw [hi.nextHeaderAt hr hs, he])) hc
  rw [guarded_run] at hfin hnext ⊢
  simp only [continueScan, Step.exec_bind, Step.exec_get]
  split_ifs
  · exact hfin
  · exact .inl hnext

theorem scanPass_sound {k : Nat} (hi : Idle f q s) (hph : s.phase = .opening)
    (hr : s.rewindPending = false) (hs : s.skipPrefix = true)
    (he : q + k + previousTagSizeLength = e) (hc : OnChain f e) :
    Sound f e ((guarded (do skipBytes k; continueScan : Step Unit)).run s).2 ∨
      Rewound f ((guarded (do skipBytes k; continueScan : Step Unit)).run s).2 := by
  by_cases hk : q + k ≤ maxPosition
  · obtain ⟨st, hst, hskip⟩ := hi.skip hk
    rw [guarded_bind_ok hskip]
    exact continueScan_sound (hi.move hst (q + k)) hph hr hs he hc
  · rw [guarded_error (by rw [Step.exec_bind, hi.skip_past (by omega)])]
    exact .inl (fail_sound hi.live.1 _)

end Finish

section ScanTag

variable {f : List UInt8} {q o : Nat} {s : Source} {h : TagHeader}

theorem scanTag_sound (hf : f.length < Nat.pow 2 64) (hi : Idle f q s) (hph : s.phase = .opening)
    (hr : s.rewindPending = false) (hs : s.skipPrefix = true) (ht : tagAt f o = some h)
    (hq : q = o + tagHeaderLength) (ho : OnChain f o) :
    Sound f (nextTagOffset o h) ((guarded (scanTag h)).run s).2 ∨
      Rewound f ((guarded (scanTag h)).run s).2 := by
  have hc := ho.next ht
  by_cases heof : h.isEndOfFile = true
  · simp only [scanTag, heof, if_true]
    exact finishOpen_rewound hi hr
  simp only [scanTag, heof, Bool.false_eq_true, if_false]
  rw [guarded_bind_ok (Step.exec_modify _ _), guarded_bind_ok (Step.exec_get _)]
  have hi1 : Idle f q { s with scannedTags := s.scannedTags + 1 } :=
    hi.congr hi.live rfl rfl rfl rfl rfl rfl hi.opening hi.first
  have hle : q ≤ f.length := by have := tagAt_le ht; omega
  have hpass := scanPass_sound (k := h.dataSize.toNat) hi1 hph hr hs
    (by simp only [nextTagOffset, hq]) hc
  have hin : ∀ c, c + 1 ≤ h.dataSize.toNat → InTag f h 0 q (c + 1) (nextTagOffset o h) :=
    fun c hc' => ⟨o, ht, by rw [hq]; rfl, hle, by omega, rfl⟩
  cases hkind : h.kind
  case scriptData =>
    dsimp only
    split_ifs with hread
    · rw [guarded_bind_ok (Step.exec_lift _ _)]
      have hpos : 0 < h.dataSize.toNat := by simp at hread; exact hread.2
      refine .inl (issue_sound (hi1.withSurvey _ hi.first) ⟨rfl, ?_⟩ (fun h' => absurd hph h') hr hs
        (.inl hph) hc)
      have := hin (h.dataSize.toNat - 1) (by omega)
      rwa [Nat.sub_add_cancel hpos] at this
    · exact hpass
  case audio | video =>
    dsimp only
    by_cases hpos : h.dataSize.toNat > 0
    · rw [if_pos hpos, guarded_bind_ok (Step.exec_lift _ _), guarded_bind_ok (Step.exec_get _)]
      have hfirst : ∀ v : Survey,
          v.firstMediaTagOffset = some (s.survey.firstMediaTagOffset.getD h.tagOffset) →
          OnChain f v.firstMediaOffset := by
        intro v hv
        have h0 := hi.first
        unfold Survey.firstMediaOffset at h0 ⊢
        rw [hv]
        cases hfm : s.survey.firstMediaTagOffset with
        | none => simpa [tagAt_tagOffset ht hf] using ho
        | some x => simpa [hfm] using h0
      simp only [↓reduceIte, reduceCtorEq]
      split_ifs
      · refine .inl (issue_sound (hi1.withSurvey _ (hfirst _ ?_)) ?_ (fun h' => absurd hph h') hr hs
          (.inl hph) hc)
        · rfl
        · exact ⟨rfl, hin 0 (by omega)⟩
      · refine scanPass_sound (hi1.withSurvey _ (hfirst _ ?_)) hph hr hs
          (by simp only [nextTagOffset, hq]) hc
        rfl
    · rw [if_neg hpos]
      exact hpass
  all_goals exact hpass

end ScanTag


section Scanning

variable {f : List UInt8} {q o n e : Nat} {s : Source}
variable (hi : Idle f q s) (hph : s.phase = .opening) (hr : s.rewindPending = false)
  (hs : s.skipPrefix = true) (hc : OnChain f e)
include hi hph hr hs hc

theorem scanStep_fileHeader {data : List UInt8} (hfit : ReadStep.fileHeader.Fits f o n e)
    (hdata : data = (f.drop o).take n) (hq : o ≤ f.length → q = o + data.length) :
    Sound f e ((guarded (scanStep .fileHeader data o)).run s).2 ∨
      Rewound f ((guarded (scanStep .fileHeader data o)).run s).2 := by
  obtain ⟨rfl, rfl, he⟩ := hfit
  simp only [scanStep]
  rw [guarded_ofFormat_bind]
  cases hp : readFileHeader data with
  | error err => exact .inl (fail_sound hi.live.1 _)
  | ok fh =>
    have hlen := readFileHeader_ok hp
    replace hq := hq (Nat.zero_le _)
    dsimp only
    rw [guarded_bind_ok (Step.exec_lift _ _), updateSurvey_run]
    have hi2 := hi.withSurvey { s.survey with fileHeader := some fh } hi.first
    refine .inl (readNextTag_idle hi2 (.inl hph) (.inl ?_) hc)
    rw [hi2.nextHeaderAt hr hs, hq, hlen, he]
    rfl

theorem scanStep_tagHeader_full (hf : f.length < Nat.pow 2 64) {data : List UInt8}
    (hfit : ReadStep.tagHeader.Fits f o n e) (hdata : data = (f.drop o).take n)
    (hq : o ≤ f.length → q = o + data.length) (hlen : data.length = tagHeaderLength) :
    ∃ h, readTagHeader data (o + tagHeaderLength).toUInt64 = .ok h ∧ o = e ∧ tagAt f o = some h ∧
      (Sound f (nextTagOffset o h) ((guarded (scanStep .tagHeader data o)).run s).2 ∨
        Rewound f ((guarded (scanStep .tagHeader data o)).run s).2) := by
  obtain ⟨rfl, h, hread, ht⟩ := hfit.tagHeader_full hdata hlen
  replace hq := hq (by have := tagAt_le ht; omega)
  refine ⟨h, hread, rfl, ht, ?_⟩
  simp only [scanStep]
  rw [guarded_ofFormat_bind, hlen, hread]
  exact scanTag_sound hf hi hph hr hs ht (by rw [hq, hlen]) hc

omit hph hs hc in
theorem scanStep_tagHeader_short {data : List UInt8} (hlen : data.length ≠ tagHeaderLength) :
    Sound f e ((guarded (scanStep .tagHeader data o)).run s).2 ∨
      Rewound f ((guarded (scanStep .tagHeader data o)).run s).2 := by
  simp only [scanStep]
  rw [guarded_ofFormat_bind]
  cases hp : readTagHeader data (o + data.length).toUInt64 with
  | error err => exact .inl (fail_sound hi.live.1 _)
  | ok h =>
    obtain rfl := (readTagHeader_ok_length hp).resolve_right hlen
    rw [readTagHeader_nil] at hp
    cases hp
    simp only [scanTag, TagHeader.isEndOfFile_endOfFile, if_true]
    exact finishOpen_rewound hi hr

theorem scanStep_scriptPayload {tag : TagHeader} {data : List UInt8}
    (hfit : (ReadStep.scriptPayload tag).Fits f o n e) (hdata : data = (f.drop o).take n)
    (hq : o ≤ f.length → q = o + data.length) :
    Sound f e ((guarded (scanStep (.scriptPayload tag) data o)).run s).2 ∨
      Rewound f ((guarded (scanStep (.scriptPayload tag) data o)).run s).2 := by
  obtain ⟨rfl, h, ht, ho, hle, -, he⟩ := hfit
  replace hq := hq hle
  simp only [scanStep]
  rw [guarded_ofFormat_bind]
  cases hp : readPayload data tag.dataSize.toNat with
  | error err => exact .inl (fail_sound hi.live.1 _)
  | ok x =>
    obtain ⟨hlen, rfl⟩ := readPayload_ok hp
    have he' : q + previousTagSizeLength = e := by
      simp only [nextTagOffset] at he
      omega
    dsimp only
    rw [guarded_ofFormat_bind]
    cases Script.Metadata.decode x with
    | error err => exact .inl (fail_sound hi.live.1 _)
    | ok m =>
      cases m with
      | none => exact continueScan_sound hi hph hr hs he' hc
      | some m =>
        dsimp only
        rw [guarded_bind_ok (Step.exec_lift _ _), updateSurvey_run]
        exact continueScan_sound (hi.withSurvey _ hi.first) hph hr hs he' hc

theorem scanStep_audioHeader {tag : TagHeader} {data : List UInt8}
    (hfit : (ReadStep.audioHeader tag).Fits f o n e) (hdata : data = (f.drop o).take n)
    (hq : o ≤ f.length → q = o + data.length) :
    Sound f e ((guarded (scanStep (.audioHeader tag) data o)).run s).2 ∨
      Rewound f ((guarded (scanStep (.audioHeader tag) data o)).run s).2 := by
  obtain ⟨rfl, h, ht, ho, hle, hds, he⟩ := hfit
  replace hq := hq hle
  simp only [scanStep]
  rw [guarded_ofFormat_bind]
  cases hp : readAudioHeader tag data with
  | error err => exact .inl (fail_sound hi.live.1 _)
  | ok p =>
    obtain ⟨hlen, rfl, hsub⟩ := readAudioHeader_ok hp
    have hend := read_le hdata hle
    dsimp only
    rw [guarded_bind_ok (Step.exec_lift _ _), updateSurvey_run, guarded_bind_ok (Step.exec_get _)]
    have hi2 := hi.withSurvey { s.survey with firstAudio := some (s.survey.firstAudio.getD p) } hi.first
    split_ifs with haac
    · have hsub2 : p.subHeaderLength = 2 := by
        simp [AudioPacket.subHeaderLength, AudioPacket.subHeaderLengthOf, (Bool.and_eq_true _ _ ▸ haac).1]
      exact .inl (issue_sound hi2 ⟨rfl, (Bool.and_eq_true _ _ ▸ haac).1, h, ht, by omega, by omega,
        by omega, he⟩ (fun h' => absurd hph h') hr hs (.inl hph) hc)
    · refine scanPass_sound hi2 hph hr hs ?_ hc
      simp only [nextTagOffset] at he
      omega

theorem scanStep_aacPacketType {p : AudioPacket} {data : List UInt8}
    (hfit : (ReadStep.aacPacketType p).Fits f o n e) (hdata : data = (f.drop o).take n)
    (hq : o ≤ f.length → q = o + data.length) :
    Sound f e ((guarded (scanStep (.aacPacketType p) data o)).run s).2 ∨
      Rewound f ((guarded (scanStep (.aacPacketType p) data o)).run s).2 := by
  obtain ⟨rfl, haac, h, ht, ho, hle, hds, he⟩ := hfit
  replace hq := hq hle
  simp only [scanStep]
  rw [guarded_ofFormat_bind]
  cases hp : readAacPacketType p data with
  | error err => exact .inl (fail_sound hi.live.1 _)
  | ok p' =>
    obtain ⟨hlen, t, rfl⟩ := readAacPacketType_ok hp
    have hend := read_le hdata hle
    have hsub : p.subHeaderLength = 2 := by
      simp [AudioPacket.subHeaderLength, AudioPacket.subHeaderLengthOf, haac]
    dsimp only
    split_ifs
    · exact .inl (issue_sound hi ⟨rfl, by dsimp only [AudioPacket.subHeaderLength] at hsub ⊢; omega,
        h, ht, by dsimp only [AudioPacket.subHeaderLength] at hsub ⊢; omega, by omega,
        by dsimp only [AudioPacket.payloadLength, AudioPacket.subHeaderLength] at hsub ⊢; omega, he⟩
        (fun h' => absurd hph h') hr hs (.inl hph) hc)
    · refine scanPass_sound hi hph hr hs ?_ hc
      dsimp only [AudioPacket.payloadLength, AudioPacket.subHeaderLength] at hsub ⊢
      simp only [nextTagOffset] at he
      omega

theorem scanStep_audioPayload {p : AudioPacket} {data : List UInt8}
    (hfit : (ReadStep.audioPayload p).Fits f o n e) (hdata : data = (f.drop o).take n)
    (hq : o ≤ f.length → q = o + data.length) :
    Sound f e ((guarded (scanStep (.audioPayload p) data o)).run s).2 ∨
      Rewound f ((guarded (scanStep (.audioPayload p) data o)).run s).2 := by
  obtain ⟨rfl, hsub, h, ht, ho, hle, -, he⟩ := hfit
  replace hq := hq hle
  simp only [scanStep]
  rw [guarded_ofFormat_bind]
  cases hp : readPayload data p.payloadLength with
  | error err => exact .inl (fail_sound hi.live.1 _)
  | ok x =>
    obtain ⟨hlen, rfl⟩ := readPayload_ok hp
    dsimp only
    rw [guarded_bind_ok (Step.exec_lift _ _), updateSurvey_run]
    refine continueScan_sound (hi.withSurvey _ hi.first) hph hr hs ?_ hc
    simp only [AudioPacket.payloadLength] at hlen
    simp only [nextTagOffset] at he
    omega

theorem scanStep_videoHeader {tag : TagHeader} {data : List UInt8}
    (hfit : (ReadStep.videoHeader tag).Fits f o n e) (hdata : data = (f.drop o).take n)
    (hq : o ≤ f.length → q = o + data.length) :
    Sound f e ((guarded (scanStep (.videoHeader tag) data o)).run s).2 ∨
      Rewound f ((guarded (scanStep (.videoHeader tag) data o)).run s).2 := by
  obtain ⟨rfl, h, ht, ho, hle, hds, he⟩ := hfit
  replace hq := hq hle
  simp only [scanStep]
  rw [guarded_ofFormat_bind]
  cases hp : readVideoHeader tag data with
  | error err => exact .inl (fail_sound hi.live.1 _)
  | ok p =>
    obtain ⟨hlen, rfl, hsub⟩ := readVideoHeader_ok hp
    have hend := read_le hdata hle
    dsimp only
    rw [guarded_bind_ok (Step.exec_lift _ _), updateSurvey_run, guarded_bind_ok (Step.exec_get _)]
    have hi2 := hi.withSurvey { s.survey with firstVideo := some (s.survey.firstVideo.getD p) } hi.first
    split_ifs with havc
    · have havc' := (Bool.and_eq_true _ _ ▸ havc).1
      have hsub5 : p.subHeaderLength = 5 := by
        simp [VideoPacket.subHeaderLength, VideoPacket.subHeaderLengthOf, havc']
      exact .inl (issue_sound hi2 ⟨rfl, havc', h, ht, by omega, by omega,
        by simp only [AvcPacketHeader.length]; omega, he⟩ (fun h' => absurd hph h') hr hs (.inl hph) hc)
    · refine scanPass_sound hi2 hph hr hs ?_ hc
      simp only [nextTagOffset] at he
      omega

theorem scanStep_avcPacketHeader {p : VideoPacket} {data : List UInt8}
    (hfit : (ReadStep.avcPacketHeader p).Fits f o n e) (hdata : data = (f.drop o).take n)
    (hq : o ≤ f.length → q = o + data.length) :
    Sound f e ((guarded (scanStep (.avcPacketHeader p) data o)).run s).2 ∨
      Rewound f ((guarded (scanStep (.avcPacketHeader p) data o)).run s).2 := by
  obtain ⟨rfl, havc, h, ht, ho, hle, hds, he⟩ := hfit
  replace hq := hq hle
  simp only [scanStep]
  rw [guarded_ofFormat_bind]
  cases hp : readAvcPacketHeader p data with
  | error err => exact .inl (fail_sound hi.live.1 _)
  | ok p' =>
    obtain ⟨hlen, a, rfl⟩ := readAvcPacketHeader_ok hp
    have hend := read_le hdata hle
    have hsub5 : p.subHeaderLength = 5 := by
      simp [VideoPacket.subHeaderLength, VideoPacket.subHeaderLengthOf, havc]
    simp only [AvcPacketHeader.length] at hlen hds
    dsimp only
    split_ifs
    · exact .inl (issue_sound hi ⟨rfl, by dsimp only [VideoPacket.subHeaderLength] at hsub5 ⊢; omega,
        h, ht, by dsimp only [VideoPacket.subHeaderLength] at hsub5 ⊢; omega, by omega,
        by dsimp only [VideoPacket.payloadLength, VideoPacket.subHeaderLength] at hsub5 ⊢; omega, he⟩
        (fun h' => absurd hph h') hr hs (.inl hph) hc)
    · refine scanPass_sound hi hph hr hs ?_ hc
      dsimp only [VideoPacket.payloadLength, VideoPacket.subHeaderLength] at hsub5 ⊢
      simp only [nextTagOffset] at he
      omega

theorem scanStep_videoPayload {p : VideoPacket} {data : List UInt8}
    (hfit : (ReadStep.videoPayload p).Fits f o n e) (hdata : data = (f.drop o).take n)
    (hq : o ≤ f.length → q = o + data.length) :
    Sound f e ((guarded (scanStep (.videoPayload p) data o)).run s).2 ∨
      Rewound f ((guarded (scanStep (.videoPayload p) data o)).run s).2 := by
  obtain ⟨rfl, hsub, h, ht, ho, hle, -, he⟩ := hfit
  replace hq := hq hle
  simp only [scanStep]
  rw [guarded_ofFormat_bind]
  cases hp : readPayload data p.payloadLength with
  | error err => exact .inl (fail_sound hi.live.1 _)
  | ok x =>
    obtain ⟨hlen, rfl⟩ := readPayload_ok hp
    dsimp only
    rw [guarded_ofFormat_bind]
    cases readAvcConfig x with
    | error err => exact .inl (fail_sound hi.live.1 _)
    | ok c =>
      dsimp only
      rw [guarded_bind_ok (Step.exec_lift _ _), updateSurvey_run]
      refine continueScan_sound (hi.withSurvey _ hi.first) hph hr hs ?_ hc
      simp only [VideoPacket.payloadLength] at hlen
      simp only [nextTagOffset] at he
      omega

end Scanning

end FlvDemux.Engine
