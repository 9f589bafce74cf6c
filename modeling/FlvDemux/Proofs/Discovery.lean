import FlvDemux.Proofs.FileSurvey
import FlvDemux.Proofs.Walk
import FlvDemux.Proofs.Serial

/-!
# The scan at open learns what the file says

While a demuxer opens, its survey `Knows` what the read it waits for needs, and each completed
read keeps this, fails the open, or ends the scan (`Source.ScanStands`). The main result,
`open_answer_describes_tracks`: a presentation answering the open is the one the survey of the
first tags of the file gives.
-/

namespace FlvDemux.Engine

open Flv Script

/-- What the survey `v` of a scan of `f` knows while it waits for the read for `step`, the walk
going on at `e`: nothing before the file header; between two tags, what the file header and the
tags before `e` teach; inside a tag, enough that reading the rest of the tag teaches what the
tags up to it and with it teach. -/
def Survey.Knows (f : List UInt8) (e : Nat) (v : Survey) : ReadStep → Prop
  | .fileHeader => v = {}
  | .tagHeader => ∃ tags, FirstTags f tags e ∧ Survey.ofTags f tags = .ok v
  | step => ∃ tags o t, step.tag? = some t ∧ FirstTags f tags o ∧ tagAt f o = some t ∧
      t.isEndOfFile = false ∧ e = nextTagOffset o t ∧
      (Survey.ofTags f tags >>= Survey.learnTag f o t) = Survey.resume f (o + tagHeaderLength) v step

section Knowing

variable {f : List UInt8} {tags : List (Nat × TagHeader)} {o : Nat} {t : TagHeader} {v : Survey}
variable (ht : FirstTags f tags o) (htag : tagAt f o = some t) (heof : t.isEndOfFile = false)
include ht htag heof

theorem Survey.knows_next (hv : (Survey.ofTags f tags >>= Survey.learnTag f o t) = .ok v) :
    v.Knows f (nextTagOffset o t) .tagHeader :=
  ⟨tags ++ [(o, t)], ht.snoc htag heof, by rw [Survey.ofTags_append]; exact hv⟩

theorem Survey.knows_piece {step : ReadStep} (hstep : step.tag? = some t)
    (hv : (Survey.ofTags f tags >>= Survey.learnTag f o t) =
      Survey.resume f (o + tagHeaderLength) v step) :
    v.Knows f (nextTagOffset o t) step := by
  cases step
  case fileHeader | tagHeader => cases hstep
  all_goals exact ⟨tags, o, t, hstep, ht, htag, heof, rfl, hv⟩

end Knowing

namespace Source

/-- The scan failed and answered the open with an error. -/
def ScanFailed (y : Source) : Prop :=
  y.phase = .shutdown ∧ ∃ err, y.openResult = some (.error err)

/-- The scan waits for a read with the open unanswered, and its survey knows what that read
needs. -/
def ScanWaits (f : List UInt8) (e : Nat) (y : Source) : Prop :=
  y.phase = .opening ∧ y.awaitingOpen = true ∧ y.openResult = none ∧
    ∃ step, y.pending = some step ∧ y.survey.Knows f e step

/-- The scan ended, stopping the demuxer, and answered the open with the presentation of the
survey that the file header and first tags of `f` teach, which describes some track. -/
def ScanAnswered (f : List UInt8) (y : Source) : Prop :=
  y.phase = .stopped ∧ ∃ tags e v, FirstTags f tags e ∧ Survey.ofTags f tags = .ok v ∧
    v.descriptors ≠ [] ∧ y.openResult = some (.ok v.presentation)

/-- Where the scan of `f` stands after a step taken while opening, its walk going on at `e`. -/
def ScanStands (f : List UInt8) (e : Nat) (y : Source) : Prop :=
  y.ScanFailed ∨ y.ScanWaits f e ∨ y.ScanAnswered f

/-- The scan ended, stopping the demuxer with the survey that the file header and first tags of
`f` teach, which describes some track: the open is answered with its presentation, and the AVC
configuration the survey found is in force, not gone out yet. -/
def ScanEnded (f : List UInt8) (y : Source) : Prop :=
  y.phase = .stopped ∧ (∃ tags e, FirstTags f tags e ∧ Survey.ofTags f tags = .ok y.survey) ∧
    y.survey.descriptors ≠ [] ∧ y.openResult = some (.ok y.survey.presentation) ∧
    y.avcConfig = y.survey.avcConfig ∧ y.avcConfigSent = false

/-- Where the scan stands as `ScanStands` says, with what an ended scan leaves in the demuxer. -/
def ScanSettles (f : List UInt8) (e : Nat) (y : Source) : Prop :=
  y.ScanFailed ∨ y.ScanWaits f e ∨ y.ScanEnded f

theorem ScanEnded.answered {f : List UInt8} {y : Source} (h : y.ScanEnded f) : y.ScanAnswered f := by
  obtain ⟨hph, ⟨tags, e, ht, hv⟩, hne, hans, -⟩ := h
  exact ⟨hph, tags, e, y.survey, ht, hv, hne, hans⟩

theorem ScanSettles.stands {f : List UInt8} {e : Nat} {y : Source} (h : y.ScanSettles f e) :
    y.ScanStands f e :=
  h.imp_right (Or.imp_right ScanEnded.answered)

end Source

section Ending

variable {f : List UInt8} {e : Nat} {s : Source}

theorem fail_scanFailed {err : SourceError} (hwait : s.awaitingOpen = true) :
    ((fail err).run s).2.ScanFailed :=
  ⟨fail_phase err s, err, (fail_of_awaiting hwait err).2⟩

/-- Ending the scan fails, or stops the demuxer and answers the waiting open with the
presentation of the survey, which describes some track; the survey stays, and its AVC
configuration is put in force, not gone out yet. -/
theorem guarded_finishOpen (hwait : s.awaitingOpen = true) :
    ((guarded finishOpen).run s).2.ScanFailed ∨
      s.survey.descriptors ≠ [] ∧ ((guarded finishOpen).run s).2.phase = .stopped ∧
        ((guarded finishOpen).run s).2.openResult = some (.ok s.survey.presentation) ∧
        ((guarded finishOpen).run s).2.survey = s.survey ∧
        ((guarded finishOpen).run s).2.avcConfig = s.survey.avcConfig ∧
        ((guarded finishOpen).run s).2.avcConfigSent = false := by
  rw [guarded_run]
  simp only [finishOpen, Step.exec_bind, Step.exec_get]
  by_cases hempty : s.survey.descriptors.isEmpty = true
  · simp only [if_pos hempty]
    exact .inl (fail_scanFailed hwait)
  simp only [if_neg hempty]
  by_cases hmeta : (s.config.requireMetadata && s.survey.metadata.isNone) = true
  · simp only [if_pos hmeta]
    exact .inl (fail_scanFailed hwait)
  simp only [if_neg hmeta]
  have hq1 := Source.foldl_setTrack_quiet (fun d : StreamDescriptor => d.kind)
    (fun d => Track.new d.kind (SourceConfig.clampDepth s.config.queueDepth)) s.survey.descriptors s
  simp only [Step.exec_bind, Step.exec_set, seekStream_exec, hq1.stream]
  generalize List.foldl (fun t d => t.setTrack d.kind
    (Track.new d.kind (SourceConfig.clampDepth s.config.queueDepth))) s s.survey.descriptors = s1 at hq1 ⊢
  have hwait1 : s1.awaitingOpen = true := by rw [hq1]; exact hwait
  cases hs : s.stream with
  | none =>
    exact .inl (fail_scanFailed hwait1)
  | some st =>
    simp only [ByteStream.seek_start, Step.exec_modify]
    have hsv : s1.survey = s.survey := by rw [hq1]
    refine .inr ⟨fun h => hempty (List.isEmpty_iff.2 h), ?_, ?_, ?_, ?_, ?_⟩ <;>
      simp only [hwait1, if_true, hsv]
    rfl

theorem finishOpen_stands (hwait : s.awaitingOpen = true) {tags : List (Nat × TagHeader)} {o : Nat}
    (ht : FirstTags f tags o) (hv : Survey.ofTags f tags = .ok s.survey) :
    ((guarded finishOpen).run s).2.ScanSettles f e := by
  rcases guarded_finishOpen hwait with hfail | ⟨hne, hph, hans, hsv, hcfg, hsent⟩
  · exact .inl hfail
  · rw [← hsv] at hv hne hans hcfg
    exact .inr (.inr ⟨hph, ⟨tags, o, ht, hv⟩, hne, hans, hcfg, hsent⟩)

end Ending

/-- The demuxer scans with the stream `st`, and its open waits unanswered. -/
structure Source.Scanning (st : ByteStream) (s : Source) : Prop where
  stream : s.stream = some st
  phase : s.phase = .opening
  awaiting : s.awaitingOpen = true
  unanswered : s.openResult = none

namespace Source.Scanning

variable {st : ByteStream} {s : Source}

theorem withSurvey (hs : s.Scanning st) (v : Survey) : ({ s with survey := v } : Source).Scanning st :=
  ⟨hs.stream, hs.phase, hs.awaiting, hs.unanswered⟩

theorem withCount (hs : s.Scanning st) (n : Nat) :
    ({ s with scannedTags := n } : Source).Scanning st :=
  ⟨hs.stream, hs.phase, hs.awaiting, hs.unanswered⟩

theorem reset (hs : s.Scanning st) (r k : Bool) :
    ({ s with rewindPending := r, skipPrefix := k } : Source).Scanning st :=
  ⟨hs.stream, hs.phase, hs.awaiting, hs.unanswered⟩

theorem moved (hs : s.Scanning st) (st' : ByteStream) :
    ({ s with stream := some st' } : Source).Scanning st' :=
  ⟨rfl, hs.phase, hs.awaiting, hs.unanswered⟩

theorem waits (hs : s.Scanning st) {f : List UInt8} {e : Nat} {step : ReadStep}
    (hk : s.survey.Knows f e step) {y : Source} (hph : y.phase = s.phase)
    (hwait : y.awaitingOpen = s.awaitingOpen) (hres : y.openResult = s.openResult)
    (hsurvey : y.survey = s.survey) (hp : y.pending = some step) : y.ScanWaits f e :=
  ⟨hph.trans hs.phase, hwait.trans hs.awaiting, hres.trans hs.unanswered, step, hp,
    hsurvey ▸ hk⟩

end Source.Scanning

section Reading

variable {f : List UInt8} {e : Nat} {s : Source} {st : ByteStream}

theorem issueRead_stands (hs : s.Scanning st) {step : ReadStep} (hk : s.survey.Knows f e step)
    (t : Option SeekTarget) (n : Nat) : ((guarded (issueRead step t n)).run s).2.ScanSettles f e := by
  cases t with
  | none =>
    rw [guarded_ok (issueRead_none hs.stream _ _)]
    exact .inr (.inl (hs.waits hk rfl rfl rfl rfl rfl))
  | some t =>
    rcases hseek : st.seek t with err | ⟨p, moved⟩
    · rw [guarded_error (issueRead_seek_error hs.stream hseek _ _)]
      exact .inl (fail_scanFailed hs.awaiting)
    · rw [guarded_ok (issueRead_some hs.stream hseek _ _)]
      exact .inr (.inl (hs.waits hk rfl rfl rfl rfl rfl))

theorem readNextTag_stands (hs : s.Scanning st) (hk : s.survey.Knows f e .tagHeader) :
    ((guarded readNextTag).run s).2.ScanSettles f e := by
  rw [guarded_run, readNextTag_exec, ← guarded_run]
  exact issueRead_stands (hs.reset false true) hk _ _

theorem continueScan_stands (hs : s.Scanning st) (hk : s.survey.Knows f e .tagHeader) :
    ((guarded continueScan).run s).2.ScanSettles f e := by
  obtain ⟨tags, ht, hv⟩ := hk
  have hfin := finishOpen_stands (e := e) hs.awaiting ht hv
  have hnext := readNextTag_stands hs ⟨tags, ht, hv⟩
  rw [guarded_run] at hfin hnext ⊢
  simp only [continueScan, Step.exec_bind, Step.exec_get]
  split_ifs
  · exact hfin
  · exact hnext

theorem scanPass_stands (hs : s.Scanning st) (k : Nat) (hk : s.survey.Knows f e .tagHeader) :
    ((guarded (do skipBytes k; continueScan : Step Unit)).run s).2.ScanSettles f e := by
  rcases hseek : st.seek (.current k) with err | ⟨p, moved⟩
  · have herr : Step.exec (do skipBytes k; continueScan : Step Unit) s = (.error (.io err), s) := by
      simp only [Step.exec_bind, skipBytes, seekStream_exec, hs.stream, hseek]
    rw [guarded_error herr]
    exact .inl (fail_scanFailed hs.awaiting)
  · rw [guarded_bind_ok (skipBytes_ok hs.stream hseek)]
    exact continueScan_stands (hs.moved moved) hk

end Reading

section ScanTag

variable {f : List UInt8} {s : Source} {st : ByteStream} {tags : List (Nat × TagHeader)} {o : Nat}
  {h : TagHeader}
variable (hs : s.Scanning st) (ht : FirstTags f tags o) (hv : Survey.ofTags f tags = .ok s.survey)
  (htag : tagAt f o = some h)
include hs ht hv htag

theorem scanTag_stands : ((guarded (scanTag h)).run s).2.ScanSettles f (nextTagOffset o h) := by
  by_cases heof : h.isEndOfFile = true
  · simp only [scanTag, heof, if_true]
    exact finishOpen_stands hs.awaiting ht hv
  have heof' : h.isEndOfFile = false := by simpa using heof
  simp only [scanTag, heof, Bool.false_eq_true, if_false]
  rw [guarded_bind_ok (Step.exec_modify _ _), guarded_bind_ok (Step.exec_get _)]
  have hs1 := hs.withCount (s.scannedTags + 1)
  have hnext : ∀ v, Survey.learnTag f o h s.survey = .ok v →
      v.Knows f (nextTagOffset o h) .tagHeader :=
    fun v hl => Survey.knows_next ht htag heof' (by rw [hv]; exact hl)
  have hpiece : ∀ step v, step.tag? = some h →
      Survey.learnTag f o h s.survey = Survey.resume f (o + tagHeaderLength) v step →
      v.Knows f (nextTagOffset o h) step :=
    fun step v hstep hl => Survey.knows_piece ht htag heof' hstep (by rw [hv]; exact hl)
  cases hkind : h.kind
  case scriptData =>
    dsimp only
    split_ifs with hread
    · rw [guarded_bind_ok (Step.exec_lift _ _)]
      refine issueRead_stands (hs1.withSurvey _) (hpiece (.scriptPayload h) _ rfl ?_) none _
      simp only [Survey.learnTag, hkind, hread, if_true]
    · refine scanPass_stands hs1 _ (hnext _ ?_)
      simp only [Survey.learnTag, hkind]
      exact if_neg hread
  case audio | video =>
    dsimp only
    by_cases hpos : h.dataSize.toNat > 0
    · rw [if_pos hpos, guarded_bind_ok (Step.exec_lift _ _), guarded_bind_ok (Step.exec_get _)]
      simp only [updateSurvey_run, ↓reduceIte, reduceCtorEq]
      split_ifs with hwant
      · refine issueRead_stands (hs1.withSurvey _) (hpiece _ _ rfl ?_) none _
        simp only [Survey.learnTag, hkind, if_pos hpos, ↓reduceIte, reduceCtorEq, hwant]
      · refine scanPass_stands (hs1.withSurvey _) _ (hnext _ ?_)
        simp only [Survey.learnTag, hkind, if_pos hpos, ↓reduceIte, reduceCtorEq]
        exact if_neg hwant
    · rw [if_neg hpos]
      exact scanPass_stands hs1 _ (hnext _ (by simp only [Survey.learnTag, hkind]; exact if_neg hpos))
  all_goals exact scanPass_stands hs1 _ (hnext _ (by simp only [Survey.learnTag, hkind]))

end ScanTag

theorem InTag.at_tag {f : List UInt8} {t : TagHeader} {c p n o : Nat}
    (hin : InTag f t c p n (nextTagOffset o t)) :
    p = o + tagHeaderLength + c ∧ p ≤ f.length ∧ c + n ≤ t.dataSize.toNat := by
  obtain ⟨h, -, rfl, hle, hcn, he⟩ := hin
  simp only [nextTagOffset] at he
  exact ⟨by omega, hle, hcn⟩

section Scanning

variable {f : List UInt8} {p n e : Nat} {s : Source} {st : ByteStream} {data : List UInt8}
variable (hs : s.Scanning st)
include hs

theorem scanStep_fileHeader_stands (hk : s.survey.Knows f e .fileHeader)
    (hfit : ReadStep.fileHeader.Fits f p n e) (hdata : data = (f.drop p).take n) :
    ((guarded (scanStep .fileHeader data p)).run s).2.ScanSettles f e := by
  obtain ⟨rfl, rfl, he⟩ := hfit
  have hv : s.survey = {} := hk
  simp only [List.drop_zero] at hdata
  subst hdata
  simp only [scanStep]
  rw [guarded_ofFormat_bind]
  cases hp : readFileHeader (f.take fileHeaderLength) with
  | error err => exact .inl (fail_scanFailed hs.awaiting)
  | ok fh =>
    dsimp only
    rw [guarded_bind_ok (Step.exec_lift _ _), updateSurvey_run]
    refine readNextTag_stands (hs.withSurvey _) ⟨[], he ▸ .nil, ?_⟩
    rw [Survey.ofTags_nil hp, hv]

theorem scanStep_tagHeader_stands (hk : s.survey.Knows f p .tagHeader) {h : TagHeader}
    (hlen : data.length = tagHeaderLength)
    (hread : readTagHeader data (p + tagHeaderLength).toUInt64 = .ok h) (htag : tagAt f p = some h) :
    ((guarded (scanStep .tagHeader data p)).run s).2.ScanSettles f (nextTagOffset p h) := by
  obtain ⟨tags, ht, hv⟩ := hk
  simp only [scanStep]
  rw [guarded_ofFormat_bind, hlen, hread]
  exact scanTag_stands hs ht hv htag

theorem scanStep_tagHeader_short_stands (hk : s.survey.Knows f e .tagHeader) {e' : Nat}
    (hlen : data.length ≠ tagHeaderLength) :
    ((guarded (scanStep .tagHeader data p)).run s).2.ScanSettles f e' := by
  obtain ⟨tags, ht, hv⟩ := hk
  simp only [scanStep]
  rw [guarded_ofFormat_bind]
  cases hp : readTagHeader data (p + data.length).toUInt64 with
  | error err => exact .inl (fail_scanFailed hs.awaiting)
  | ok h =>
    obtain rfl := (readTagHeader_ok_length hp).resolve_right hlen
    rw [readTagHeader_nil] at hp
    cases hp
    simp only [scanTag, TagHeader.isEndOfFile_endOfFile, if_true]
    exact finishOpen_stands hs.awaiting ht hv

theorem scanStep_scriptPayload_stands {tag : TagHeader}
    (hk : s.survey.Knows f e (.scriptPayload tag)) (hfit : (ReadStep.scriptPayload tag).Fits f p n e)
    (hdata : data = (f.drop p).take n) :
    ((guarded (scanStep (.scriptPayload tag) data p)).run s).2.ScanSettles f e := by
  obtain ⟨tags, o, t, htg, ht, htag, heof, rfl, hE⟩ := hk
  cases htg
  obtain ⟨rfl, hin⟩ := hfit
  obtain ⟨rfl, -, -⟩ := hin.at_tag
  simp only [Nat.add_zero] at hdata
  simp only [scanStep]
  rw [guarded_ofFormat_bind]
  cases hp : readPayload data tag.dataSize.toNat with
  | error err => exact .inl (fail_scanFailed hs.awaiting)
  | ok x =>
    dsimp only
    rw [guarded_ofFormat_bind]
    cases hm : Script.Metadata.decode x with
    | error err => exact .inl (fail_scanFailed hs.awaiting)
    | ok m =>
      rw [Survey.resume, ← hdata, hp] at hE
      simp only [bind, Except.bind, hm] at hE
      cases m with
      | none => exact continueScan_stands hs (Survey.knows_next ht htag heof hE)
      | some m =>
        dsimp only
        rw [guarded_bind_ok (Step.exec_lift _ _), updateSurvey_run]
        exact continueScan_stands (hs.withSurvey _) (Survey.knows_next ht htag heof hE)

theorem scanStep_audioHeader_stands {tag : TagHeader}
    (hk : s.survey.Knows f e (.audioHeader tag)) (hfit : (ReadStep.audioHeader tag).Fits f p n e)
    (hdata : data = (f.drop p).take n) :
    ((guarded (scanStep (.audioHeader tag) data p)).run s).2.ScanSettles f e := by
  obtain ⟨tags, o, t, htg, ht, htag, heof, rfl, hE⟩ := hk
  cases htg
  obtain ⟨rfl, hin⟩ := hfit
  obtain ⟨rfl, -, -⟩ := hin.at_tag
  simp only [Nat.add_zero] at hdata
  simp only [scanStep]
  rw [guarded_ofFormat_bind]
  cases hp : readAudioHeader tag data with
  | error err => exact .inl (fail_scanFailed hs.awaiting)
  | ok a =>
    have htg : (ReadStep.aacPacketType a).tag? = some tag := by
      simp [ReadStep.tag?, (readAudioHeader_ok hp).2.1]
    rw [Survey.resume, ← hdata, hp] at hE
    simp only [bind, Except.bind] at hE
    dsimp only
    rw [guarded_bind_ok (Step.exec_lift _ _), updateSurvey_run, guarded_bind_ok (Step.exec_get _)]
    split_ifs with haac
    · rw [if_pos haac] at hE
      exact issueRead_stands (hs.withSurvey _) (Survey.knows_piece ht htag heof htg hE) none _
    · rw [if_neg haac] at hE
      exact scanPass_stands (hs.withSurvey _) _ (Survey.knows_next ht htag heof hE)

theorem scanStep_aacPacketType_stands {a : AudioPacket}
    (hk : s.survey.Knows f e (.aacPacketType a)) (hfit : (ReadStep.aacPacketType a).Fits f p n e)
    (hdata : data = (f.drop p).take n) :
    ((guarded (scanStep (.aacPacketType a) data p)).run s).2.ScanSettles f e := by
  obtain ⟨tags, o, t, htg, ht, htag, heof, rfl, hE⟩ := hk
  cases htg
  obtain ⟨rfl, -, hin⟩ := hfit
  obtain ⟨rfl, -, -⟩ := hin.at_tag
  simp only [scanStep]
  rw [guarded_ofFormat_bind]
  cases hp : readAacPacketType a data with
  | error err => exact .inl (fail_scanFailed hs.awaiting)
  | ok a' =>
    have htg : (ReadStep.audioPayload a').tag? = some a.tag := by
      obtain ⟨-, c, rfl⟩ := readAacPacketType_ok hp
      rfl
    rw [Survey.resume, ← hdata, hp] at hE
    simp only [bind, Except.bind] at hE
    dsimp only
    split_ifs with hseq
    · rw [if_pos hseq] at hE
      exact issueRead_stands hs (Survey.knows_piece ht htag heof htg hE) none _
    · rw [if_neg hseq] at hE
      exact scanPass_stands hs _ (Survey.knows_next ht htag heof hE)

theorem scanStep_audioPayload_stands {a : AudioPacket}
    (hk : s.survey.Knows f e (.audioPayload a)) (hfit : (ReadStep.audioPayload a).Fits f p n e)
    (hdata : data = (f.drop p).take n) :
    ((guarded (scanStep (.audioPayload a) data p)).run s).2.ScanSettles f e := by
  obtain ⟨tags, o, t, htg, ht, htag, heof, rfl, hE⟩ := hk
  cases htg
  obtain ⟨rfl, -, hin⟩ := hfit
  obtain ⟨rfl, -, -⟩ := hin.at_tag
  simp only [scanStep]
  rw [guarded_ofFormat_bind]
  cases hp : readPayload data a.payloadLength with
  | error err => exact .inl (fail_scanFailed hs.awaiting)
  | ok x =>
    rw [Survey.resume, ← hdata, hp] at hE
    simp only [bind, Except.bind] at hE
    dsimp only
    rw [guarded_bind_ok (Step.exec_lift _ _), updateSurvey_run]
    exact continueScan_stands (hs.withSurvey _) (Survey.knows_next ht htag heof hE)

theorem scanStep_videoHeader_stands {tag : TagHeader}
    (hk : s.survey.Knows f e (.videoHeader tag)) (hfit : (ReadStep.videoHeader tag).Fits f p n e)
    (hdata : data = (f.drop p).take n) :
    ((guarded (scanStep (.videoHeader tag) data p)).run s).2.ScanSettles f e := by
  obtain ⟨tags, o, t, htg, ht, htag, heof, rfl, hE⟩ := hk
  cases htg
  obtain ⟨rfl, hin⟩ := hfit
  obtain ⟨rfl, -, -⟩ := hin.at_tag
  simp only [Nat.add_zero] at hdata
  simp only [scanStep]
  rw [guarded_ofFormat_bind]
  cases hp : readVideoHeader tag data with
  | error err => exact .inl (fail_scanFailed hs.awaiting)
  | ok a =>
    have htg : (ReadStep.avcPacketHeader a).tag? = some tag := by
      simp [ReadStep.tag?, (readVideoHeader_ok hp).2.1]
    rw [Survey.resume, ← hdata, hp] at hE
    simp only [bind, Except.bind] at hE
    dsimp only
    rw [guarded_bind_ok (Step.exec_lift _ _), updateSurvey_run, guarded_bind_ok (Step.exec_get _)]
    split_ifs with havc
    · rw [if_pos havc] at hE
      exact issueRead_stands (hs.withSurvey _) (Survey.knows_piece ht htag heof htg hE) none _
    · rw [if_neg havc] at hE
      exact scanPass_stands (hs.withSurvey _) _ (Survey.knows_next ht htag heof hE)

theorem scanStep_avcPacketHeader_stands {a : VideoPacket}
    (hk : s.survey.Knows f e (.avcPacketHeader a)) (hfit : (ReadStep.avcPacketHeader a).Fits f p n e)
    (hdata : data = (f.drop p).take n) :
    ((guarded (scanStep (.avcPacketHeader a) data p)).run s).2.ScanSettles f e := by
  obtain ⟨tags, o, t, htg, ht, htag, heof, rfl, hE⟩ := hk
  cases htg
  obtain ⟨rfl, -, hin⟩ := hfit
  obtain ⟨rfl, -, -⟩ := hin.at_tag
  simp only [scanStep]
  rw [guarded_ofFormat_bind]
  cases hp : readAvcPacketHeader a data with
  | error err => exact .inl (fail_scanFailed hs.awaiting)
  | ok a' =>
    have htg : (ReadStep.videoPayload a').tag? = some a.tag := by
      obtain ⟨-, c, rfl⟩ := readAvcPacketHeader_ok hp
      rfl
    rw [Survey.resume, ← hdata, hp] at hE
    simp only [bind, Except.bind] at hE
    dsimp only
    split_ifs with hseq
    · rw [if_pos hseq] at hE
      exact issueRead_stands hs (Survey.knows_piece ht htag heof htg hE) none _
    · rw [if_neg hseq] at hE
      exact scanPass_stands hs _ (Survey.knows_next ht htag heof hE)

theorem scanStep_videoPayload_stands {a : VideoPacket}
    (hk : s.survey.Knows f e (.videoPayload a)) (hfit : (ReadStep.videoPayload a).Fits f p n e)
    (hdata : data = (f.drop p).take n) :
    ((guarded (scanStep (.videoPayload a) data p)).run s).2.ScanSettles f e := by
  obtain ⟨tags, o, t, htg, ht, htag, heof, rfl, hE⟩ := hk
  cases htg
  obtain ⟨rfl, -, hin⟩ := hfit
  obtain ⟨rfl, -, -⟩ := hin.at_tag
  simp only [scanStep]
  rw [guarded_ofFormat_bind]
  cases hp : readPayload data a.payloadLength with
  | error err => exact .inl (fail_scanFailed hs.awaiting)
  | ok x =>
    dsimp only
    rw [guarded_ofFormat_bind]
    cases hc : readAvcConfig x with
    | error err => exact .inl (fail_scanFailed hs.awaiting)
    | ok c =>
      rw [Survey.resume, ← hdata, hp] at hE
      simp only [bind, Except.bind, hc] at hE
      dsimp only
      rw [guarded_bind_ok (Step.exec_lift _ _), updateSurvey_run]
      exact continueScan_stands (hs.withSurvey _) (Survey.knows_next ht htag heof hE)

end Scanning

section Dispatch

variable {f : List UInt8} {q p n e : Nat} {s : Source} {st : ByteStream}

theorem scan_stands (hf : f.length < Nat.pow 2 64) (hi : Idle f q s) (hph : s.phase = .opening)
    (hr : s.rewindPending = false) (hsk : s.skipPrefix = true) (hc : OnChain f e)
    (hs : s.Scanning st) {step : ReadStep} (hk : s.survey.Knows f e step) {data : List UInt8}
    (hfit : step.Fits f p n e) (hdata : data = (f.drop p).take n)
    (hq : p ≤ f.length → q = p + data.length) :
    ∃ e₁, (Sound f e₁ ((guarded (scanStep step data p)).run s).2 ∨
        Rewound f ((guarded (scanStep step data p)).run s).2) ∧
      ((guarded (scanStep step data p)).run s).2.ScanSettles f e₁ := by
  cases step with
  | tagHeader =>
    by_cases hlen : data.length = tagHeaderLength
    · obtain ⟨h, hread, rfl, htag, hpost⟩ :=
        scanStep_tagHeader_full hi hph hr hsk hc hf hfit hdata hq hlen
      exact ⟨_, hpost, scanStep_tagHeader_stands hs hk hlen hread htag⟩
    · exact ⟨e, scanStep_tagHeader_short hi hr hlen, scanStep_tagHeader_short_stands hs hk hlen⟩
  | fileHeader =>
    exact ⟨e, scanStep_fileHeader hi hph hr hsk hc hfit hdata hq,
      scanStep_fileHeader_stands hs hk hfit hdata⟩
  | scriptPayload tag =>
    exact ⟨e, scanStep_scriptPayload hi hph hr hsk hc hfit hdata hq,
      scanStep_scriptPayload_stands hs hk hfit hdata⟩
  | audioHeader tag =>
    exact ⟨e, scanStep_audioHeader hi hph hr hsk hc hfit hdata hq,
      scanStep_audioHeader_stands hs hk hfit hdata⟩
  | aacPacketType a =>
    exact ⟨e, scanStep_aacPacketType hi hph hr hsk hc hfit hdata hq,
      scanStep_aacPacketType_stands hs hk hfit hdata⟩
  | audioPayload a =>
    exact ⟨e, scanStep_audioPayload hi hph hr hsk hc hfit hdata hq,
      scanStep_audioPayload_stands hs hk hfit hdata⟩
  | videoHeader tag =>
    exact ⟨e, scanStep_videoHeader hi hph hr hsk hc hfit hdata hq,
      scanStep_videoHeader_stands hs hk hfit hdata⟩
  | avcPacketHeader a =>
    exact ⟨e, scanStep_avcPacketHeader hi hph hr hsk hc hfit hdata hq,
      scanStep_avcPacketHeader_stands hs hk hfit hdata⟩
  | videoPayload a =>
    exact ⟨e, scanStep_videoPayload hi hph hr hsk hc hfit hdata hq,
      scanStep_videoPayload_stands hs hk hfit hdata⟩

variable {o : Nat} {rest : List Task}

theorem Walking.run_scan (hf : f.length < Nat.pow 2 64) (hw : Walking f e s)
    (hsw : s.ScanWaits f e) (ht : (.read s.session.word o n :: rest).Perm s.tasks) :
    ∃ e₁, (Sound f e₁ ((runTask (.read s.session.word o n)).run { s with tasks := rest }).2 ∨
        Rewound f ((runTask (.read s.session.word o n)).run { s with tasks := rest }).2) ∧
      ((runTask (.read s.session.word o n)).run { s with tasks := rest }).2.ScanSettles f e₁ := by
  obtain ⟨⟨step, hp, hfit, -⟩, hpos, hrw, hsk, -⟩ := hw.current o n (ht.subset List.mem_cons_self)
  obtain ⟨hph, hwait, hres, step', hp', hk⟩ := hsw
  obtain rfl : step' = step := Option.some.inj (hp'.symm.trans hp)
  have hinv : s.phase ≠ .invalid := by simp [hph]
  obtain ⟨st, hs, hd⟩ := hw.stream.resolve_left hinv
  have hst : st.position = o := by simpa [Source.position, hs] using hpos
  have hcur : s.session.isCurrent s.session.word = true :=
    (Session.isCurrent_iff _ _).2 ⟨hw.word, rfl⟩
  cases hr : st.read n with
  | error fl =>
    rw [runTask_read_error (s := { s with tasks := rest }) hs hr,
      resume_error (s := { s with tasks := rest }) hcur hp]
    exact ⟨e, .inl (fail_sound (by exact hw.live) _), .inl (fail_scanFailed hwait)⟩
  | ok r =>
    obtain ⟨data, st'⟩ := r
    obtain ⟨hdata, hd', hq, -⟩ := ByteStream.read_ok hr
    rw [hd, hst] at hdata hq
    have hi := hw.idle_after_read ht hinv (hd'.trans hd)
    rw [runTask_read_ok (s := { s with tasks := rest }) hs hr,
      resume_scan (s := { s with tasks := rest, stream := some st' }) hcur hp hph]
    exact scan_stands hf hi hph hrw hsk hw.chain ⟨rfl, hph, hwait, hres⟩ hk hfit hdata hq

end Dispatch

/-- What a run keeps of the scan, the walk going on at `e`: before the open, an empty survey and
no answer; while opening, a scan waiting as `ScanWaits` says. -/
def Source.Scans (f : List UInt8) (e : Nat) (s : Source) : Prop :=
  (s.phase = .invalid → s.survey = {} ∧ s.openResult = none) ∧ (s.phase = .opening → s.ScanWaits f e)

section Run

variable {f : List UInt8} {e : Nat} {s y : Source}

theorem Source.Scans.of_phase (hinv : y.phase ≠ .invalid) (hop : y.phase ≠ .opening) :
    y.Scans f e :=
  ⟨fun h => absurd h hinv, fun h => absurd h hop⟩

theorem Source.ScanWaits.quiet (h : s.ScanWaits f e) (hq : s.Quiet y) : y.ScanWaits f e := by
  rw [hq]
  exact h

theorem Source.ScanStands.scans (h : y.ScanStands f e) : y.Scans f e := by
  rcases h with ⟨hph, -⟩ | hw | ⟨hph, -⟩
  · exact .of_phase (by simp [hph]) (by simp [hph])
  · exact ⟨fun h => (by simp [hw.1] at h), fun _ => hw⟩
  · exact .of_phase (by simp [hph]) (by simp [hph])

theorem Source.ScanSettles.of_stopped (hph : y.phase = .stopped) (h : y.ScanSettles f e) (e' : Nat) :
    y.ScanSettles f e' := by
  rcases h with h | h | h
  · exact .inl h
  · simp [h.1] at hph
  · exact .inr (.inr h)

theorem Walking.fresh_of_scan (hw : Walking f e s) (hph : s.phase = .invalid ∨ s.phase = .opening) :
    ∀ t o n, Task.read t o n ∈ s.tasks → t ≠ s.session.restart.word := by
  intro t o n hm
  rcases hph with hph | hph
  · simp [(hw.invalid hph).1] at hm
  · by_cases ht : t = s.session.word
    · rw [ht]
      exact (Session.restart_ne _).symm
    · exact absurd hph (hw.stale t o n hm ht).2

theorem Walking.act_scan_settles (hf : f.length < Nat.pow 2 64) (hw : Walking f e s)
    (hsw : s.ScanWaits f e) (a : Action) :
    ∃ e₁, Sound f e₁ (s.act a).2 ∧ (s.act a).2.ScanSettles f e₁ := by
  have hph := hsw.1
  have hstay : ∀ {y : Source}, y = s → ∃ e₁, Sound f e₁ y ∧ y.ScanSettles f e₁ := by
    rintro y rfl
    exact ⟨e, .inr hw, .inr (.inl hsw)⟩
  have hrefused : ∀ {m : Step Unit} {c : Task}, Queues m c s → (Step.exec m s).2 = s := by
    intro m c hq
    rcases hq with hq | ⟨hph', -⟩
    · exact hq
    · rcases hph' with h | h | h <;> simp [hph] at h
  cases a with
  | «open» st => exact hstay (by simp [Source.act, beginOpen, Step.exec_bind, hph])
  | start given pos => exact hstay (hrefused (start_queues given pos s))
  | pause => exact hstay (hrefused (pause_queues s))
  | stop => exact hstay (hrefused (stop_queues s))
  | shutdown =>
    refine ⟨e, .inl ⟨shutdownNow_phase s, ?_⟩,
      .inl ⟨shutdownNow_phase s, _, shutdownNow_openResult (by simp [hph]) hsw.2.1⟩⟩
    show (shutdownNow.run s).2.session.word &&& shutdownBit ≠ 0
    rw [shutdownNow_session hw.live]
    exact s.session.shutdown_bit
  | request k token =>
    simp only [Source.act]
    rcases requestSample_cases k token s with hr | ⟨s', hq, hr⟩
    · exact hstay hr
    · rw [hr, pump_idle_phase (by rw [hq]; simp [hph])]
      exact ⟨e, .inr (hw.quiet hq), .inr (.inl (hsw.quiet hq))⟩
  | run i =>
    cases hi : s.tasks[i]? with
    | none => exact hstay (Source.act_run_none hi)
    | some c =>
      obtain ⟨hlt, hc⟩ := List.getElem?_eq_some_iff.1 hi
      have ht := List.getElem_cons_eraseIdx_perm hlt
      rw [hc] at ht
      rw [Source.act_run_some hi]
      cases c with
      | read t o n =>
        by_cases hcur : t = s.session.word
        · subst hcur
          obtain ⟨e₁, hpost, hstand⟩ := hw.run_scan hf hsw ht
          rcases hpost with h | h
          · exact ⟨e₁, h, hstand⟩
          · exact ⟨_, h.2, hstand.of_stopped h.1 _⟩
        · -- a stale read waits only once the scan has ended
          exact absurd hph (hw.stale t o n (ht.subset List.mem_cons_self) hcur).2
      | start selection pos | pause | stop =>
        have hctl := hw.controls
        rw [hw.opening hph] at hctl
        exact (not_mem_of_countP_control (by simpa using hctl) (ht.subset List.mem_cons_self)
          rfl).elim

theorem Walking.act_scan (hf : f.length < Nat.pow 2 64) (hw : Walking f e s)
    (hsw : s.ScanWaits f e) (a : Action) :
    ∃ e₁, Sound f e₁ (s.act a).2 ∧ (s.act a).2.ScanStands f e₁ := by
  obtain ⟨e₁, hs, hst⟩ := hw.act_scan_settles hf hsw a
  exact ⟨e₁, hs, hst.stands⟩

theorem Walking.act_unopened (hw : Walking f e s) (hph : s.phase = .invalid)
    (hv : s.survey = {}) (hres : s.openResult = none) (a : Action) (e' : Nat) :
    (s.act a).2.Scans f e' := by
  have hs : s.Scans f e' := ⟨fun _ => ⟨hv, hres⟩, fun h => by simp [hph] at h⟩
  have hrefused : ∀ {m : Step Unit} {c : Task}, Queues m c s → (Step.exec m s).2.Scans f e' := by
    intro m c hq
    rcases hq with hq | ⟨hph', -⟩
    · rw [hq]
      exact hs
    · rcases hph' with h | h | h <;> simp [hph] at h
  cases a with
  | «open» st =>
    simp only [Source.act, beginOpen, Step.exec_bind, Step.exec_get, hph]
    split_ifs
    · simp only [Step.exec_bind, Step.exec_lift, Step.exec_throw]
      exact .of_phase (by simp) (by simp)
    · simp only [Step.exec_bind, Step.exec_set, Step.exec_lift]
      rw [guarded_ok (issueRead_some rfl (ByteStream.seek_start st 0) _ _)]
      exact ⟨fun h => (by cases h), fun _ => ⟨rfl, rfl, hres, .fileHeader, rfl, hv⟩⟩
  | start given pos => exact hrefused (start_queues given pos s)
  | pause => exact hrefused (pause_queues s)
  | stop => exact hrefused (stop_queues s)
  | shutdown => exact .of_phase (by simp [Source.act]) (by simp [Source.act])
  | request k token =>
    simp only [Source.act]
    rcases requestSample_cases k token s with hr | ⟨s', hq, hr⟩
    · rw [hr]
      exact hs
    · rw [hr, pump_idle_phase (by rw [hq]; simp [hph]), hq]
      exact hs
  | run i =>
    rw [Source.act_run_none (by simp [(hw.invalid hph).1])]
    exact hs

theorem Source.Scans.act (hf : f.length < Nat.pow 2 64) (hs : Sound f e s) (hv : s.Scans f e)
    (hscan : s.phase = .invalid ∨ s.phase = .opening) {a : Action}
    (ha : ∀ st, a = .open st → st.data = f) :
    ∃ e', Sound f e' (s.act a).2 ∧ (s.act a).2.Scans f e' := by
  rcases hs with ⟨hph, hw⟩ | hw
  · have hpost := act_of_shutdown hph hw a
    exact ⟨e, .inl ⟨hpost.1, hpost.2 ▸ hw⟩, .of_phase (by simp [hpost.1]) (by simp [hpost.1])⟩
  rcases hscan with hinv | hop
  · obtain ⟨e', -, hs'⟩ := Sound.act hf (.inr hw) (hw.fresh_of_scan (.inl hinv)) ha
    exact ⟨e', hs', hw.act_unopened hinv (hv.1 hinv).1 (hv.1 hinv).2 a e'⟩
  · obtain ⟨e₁, hs₁, hst⟩ := hw.act_scan hf (hv.2 hop) a
    exact ⟨e₁, hs₁, hst.scans⟩

theorem Source.Scans.actAll (hf : f.length < Nat.pow 2 64) (ho : s.Orderly) (hs : Sound f e s)
    (hv : s.Scans f e) (as : List Action) (hopen : ∀ st, Action.open st ∈ as → st.data = f)
    (hend : (s.actAll as).phase = .invalid ∨ (s.actAll as).phase = .opening) :
    ∃ e', Sound f e' (s.actAll as) ∧ (s.actAll as).Scans f e' := by
  induction as generalizing s e with
  | nil => exact ⟨e, hs, hv⟩
  | cons a as ih =>
    obtain ⟨e', hs', hv'⟩ := hv.act hf hs (ho.scan_of_actAll (a :: as) hend)
      fun st h => hopen st (h ▸ List.mem_cons_self)
    exact ih (ho.act a) hs' hv' (fun st h => hopen st (List.mem_cons_of_mem _ h)) hend

/-- However discovery ends, an action taken while a demuxer opens its file `f` that answers the
open with a presentation `P` answers it with the presentation of the survey of the file header
and first tags of `f`, which describes some track: each part of that survey comes from the
tags as `Survey.Sources` says, and each track is described as `Survey.Presents` says. -/
theorem open_answer_describes_tracks (config : SourceConfig) (f : List UInt8) (as : List Action)
    (a : Action) (hf : f.length < Nat.pow 2 64) (hopen : ∀ st, Action.open st ∈ as → st.data = f)
    {P : Presentation} (hph : ((Source.create config).actAll as).phase = .opening)
    (hans : (((Source.create config).actAll as).act a).2.openResult = some (.ok P)) :
    ∃ tags e v, FirstTags f tags e ∧ Survey.ofTags f tags = .ok v ∧ v.descriptors ≠ [] ∧
      P = v.presentation ∧ v.Sources f tags ∧ v.Presents f tags := by
  obtain ⟨e, hs, hv⟩ := Source.Scans.actAll hf (Source.orderly_create config)
    (create_sound config f) ⟨fun _ => ⟨rfl, rfl⟩, fun h => by simp [Source.create] at h⟩ as hopen
    (.inr hph)
  have hw : Walking f e _ := hs.resolve_left fun h => by simp [hph] at h
  obtain ⟨e₁, -, hst⟩ := hw.act_scan hf (hv.2 hph) a
  rcases hst with ⟨-, err, herr⟩ | ⟨-, -, hnone, -⟩ | ⟨-, tags, e', v, ht, hv', hne, hres⟩
  · rw [hans] at herr
    cases herr
  · rw [hans] at hnone
    cases hnone
  · rw [hans] at hres
    cases hres
    have hsrc := Survey.ofTags_sources hv'
    exact ⟨tags, e', v, ht, hv', hne, rfl, hsrc, hsrc.presents⟩

set_option maxRecDepth 10000 in
/-- A file of one MP3 audio tag: the scan reads the header and the first tag, whose sub-header
makes the survey ready, and the next read answers the open with one audio track. -/
theorem open_answer_describes_mp3_track :
    ((Source.create {}).actAll [.open { data := [0x46, 0x4C, 0x56, 1, 4, 0, 0, 0, 9, 0, 0, 0, 0,
      8, 0, 0, 2, 0, 0, 0, 0, 0, 0, 0, 0x2F, 0xFF, 0, 0, 0, 13] }, .run 0, .run 0]).phase = .opening ∧
    (((Source.create {}).actAll [.open { data := [0x46, 0x4C, 0x56, 1, 4, 0, 0, 0, 9, 0, 0, 0, 0,
      8, 0, 0, 2, 0, 0, 0, 0, 0, 0, 0, 0x2F, 0xFF, 0, 0, 0, 13] }, .run 0, .run 0]).act (.run 0)).2.openResult =
      some (.ok ⟨[(.audio ⟨.mp3, 44100, 2, 16, 0, none⟩, true)], 0⟩) ∧
    ∃ tags e v, FirstTags [0x46, 0x4C, 0x56, 1, 4, 0, 0, 0, 9, 0, 0, 0, 0,
      8, 0, 0, 2, 0, 0, 0, 0, 0, 0, 0, 0x2F, 0xFF, 0, 0, 0, 13] tags e ∧
      Survey.ofTags [0x46, 0x4C, 0x56, 1, 4, 0, 0, 0, 9, 0, 0, 0, 0,
        8, 0, 0, 2, 0, 0, 0, 0, 0, 0, 0, 0x2F, 0xFF, 0, 0, 0, 13] tags = .ok v ∧
      v.descriptors ≠ [] ∧ ⟨[(.audio ⟨.mp3, 44100, 2, 16, 0, none⟩, true)], 0⟩ = v.presentation ∧
      v.Sources [0x46, 0x4C, 0x56, 1, 4, 0, 0, 0, 9, 0, 0, 0, 0,
        8, 0, 0, 2, 0, 0, 0, 0, 0, 0, 0, 0x2F, 0xFF, 0, 0, 0, 13] tags ∧
      v.Presents [0x46, 0x4C, 0x56, 1, 4, 0, 0, 0, 9, 0, 0, 0, 0,
        8, 0, 0, 2, 0, 0, 0, 0, 0, 0, 0, 0x2F, 0xFF, 0, 0, 0, 13] tags := by
  have hph : ((Source.create {}).actAll [.open { data := [0x46, 0x4C, 0x56, 1, 4, 0, 0, 0, 9, 0,
      0, 0, 0, 8, 0, 0, 2, 0, 0, 0, 0, 0, 0, 0, 0x2F, 0xFF, 0, 0, 0, 13] }, .run 0, .run 0]).phase =
      .opening := by decide +kernel
  have hans : (((Source.create {}).actAll [.open { data := [0x46, 0x4C, 0x56, 1, 4, 0, 0, 0, 9, 0,
      0, 0, 0, 8, 0, 0, 2, 0, 0, 0, 0, 0, 0, 0, 0x2F, 0xFF, 0, 0, 0, 13] }, .run 0, .run 0]).act
      (.run 0)).2.openResult = some (.ok ⟨[(.audio ⟨.mp3, 44100, 2, 16, 0, none⟩, true)], 0⟩) := by
    decide +kernel
  exact ⟨hph, hans, open_answer_describes_tracks {} _ _ (.run 0) (by decide) (by simp) hph hans⟩

end Run

end FlvDemux.Engine
