import FlvDemux.Proofs.Discovery

/-!
# What the scan at open costs

Each read of the scan ends it or leads to the next header or the next piece of a tag
(`ReadStep.Then`), so a scan spends at most four reads a tag and one on the file header
(`ReadStep.OnBudget`). The main result, `scan_ends_within_reads`: the scan ends after a number of
reads linear in the size of the file, counting at most `max L 1` tags under a tag limit `L`.
-/

namespace FlvDemux.Flv

theorem le_nextTagOffset (o : Nat) (h : TagHeader) : o + 15 ≤ nextTagOffset o h := by
  simp only [nextTagOffset, tagHeaderLength, previousTagSizeLength]
  omega

/-- The offset and header of a sighting of a header. -/
def Sighting.header? : Sighting → Option (Nat × TagHeader)
  | .header o h => some (o, h)
  | .rewind _ => none

theorem Walks.headers_spaced {f : List UInt8} {rest : List Sighting} :
    ∀ {hs : List (Nat × TagHeader)} {e : Nat},
      Walks f e (hs.map (fun x => Sighting.header x.1 x.2) ++ rest) →
      ∀ {k : Nat} {x : Nat × TagHeader}, hs[k]? = some x →
        e + 15 * k ≤ x.1 ∧ tagAt f x.1 = some x.2
  | [], _, _, _, _, hk => by simp at hk
  | y :: hs, e, hw, k, x, hk => by
    rw [List.map_cons, List.cons_append, Walks] at hw
    obtain ⟨he, ht, hw'⟩ := hw
    cases k with
    | zero =>
      obtain rfl : y = x := by simpa using hk
      exact ⟨by omega, ht⟩
    | succ k =>
      have hnext := Walks.headers_spaced hw' (k := k) (by simpa using hk)
      have hle := le_nextTagOffset y.1 y.2
      exact ⟨by omega, hnext.2⟩

theorem Walks.headers_fit {f : List UInt8} {rest : List Sighting} {hs : List (Nat × TagHeader)}
    {e : Nat} (hw : Walks f e (hs.map (fun x => Sighting.header x.1 x.2) ++ rest)) :
    hs.length ≤ (f.length + 4 - e) / 15 := by
  cases hs using List.reverseRecOn with
  | nil => exact Nat.zero_le _
  | append_singleton hs x =>
    have hlast : (hs ++ [x])[hs.length]? = some x := by simp
    obtain ⟨hle, ht⟩ := hw.headers_spaced hlast
    have hfit := tagAt_le ht
    simp only [tagHeaderLength] at hfit
    rw [List.length_append, List.length_singleton, Nat.le_div_iff_mul_le (by decide)]
    omega

end FlvDemux.Flv

namespace FlvDemux.Engine

open Flv

/-- `n` tags counted stay below the tag limit of `c`, if it has one. -/
def SourceConfig.Below (c : SourceConfig) (n : Nat) : Prop :=
  ∀ L, c.tagLimit = some L → n < L

theorem SourceConfig.succ_le_of_below {c : SourceConfig} {n L : Nat} (h : n = 0 ∨ c.Below n)
    (hL : c.tagLimit = some L) : n + 1 ≤ max L 1 := by
  rcases h with rfl | hbelow
  · omega
  · have := hbelow L hL
    omega

theorem SourceConfig.below_of_not_reached {c : SourceConfig} {n : Nat}
    (h : ¬(c.tagLimit.any (n ≥ ·)) = true) : c.Below n := by
  intro L hL
  rw [hL] at h
  simpa using h

/-- The read for `step₁` may follow the read for `step` within the scan: the file header leads to
the first tag header, and a piece of a packet to the next piece of the same packet. -/
def ReadStep.Then : ReadStep → ReadStep → Prop
  | .fileHeader, .tagHeader => True
  | .audioHeader _, .aacPacketType _ => True
  | .aacPacketType _, .audioPayload _ => True
  | .videoHeader _, .avcPacketHeader _ => True
  | .avcPacketHeader _, .videoPayload _ => True
  | _, _ => False

/-- The scan is over: the demuxer stopped or shut down, and the open has its answer. -/
def Source.ScanOver (y : Source) : Prop :=
  (y.phase = .stopped ∨ y.phase = .shutdown) ∧ y.openResult.isSome

/-- The scan is over, the demuxer keeping the configuration `c` and `n` tags counted. -/
def Source.ScanEnds (c : SourceConfig) (n : Nat) (y : Source) : Prop :=
  y.config = c ∧ y.scannedTags = n ∧ y.ScanOver

/-- Where a step of the scan leaves a demuxer: with the configuration `c` and `n` tags counted,
the scan over, or still scanning and waiting for the next tag header below the tag limit or for
a read that `P` allows. -/
def Source.ScanMoves (c : SourceConfig) (n : Nat) (P : ReadStep → Prop) (y : Source) : Prop :=
  y.config = c ∧ y.scannedTags = n ∧ (y.ScanOver ∨ (∃ st, y.Scanning st) ∧
    ∃ step, y.pending = some step ∧ (step = .tagHeader ∧ c.Below n ∨ P step))

/-- What a scan that waits for the read for `step` has spent after `m` reads, `n` tags counted
under `c`. The file header is the first read. Before a tag header: at most four reads for each
tag counted and one more, and the count below the tag limit unless no tag is counted yet. Inside
a tag: the reads made and those the tag may still take come to at most four for each tag
counted, and the tags before this one were below the limit. -/
def ReadStep.OnBudget (c : SourceConfig) (m n : Nat) : ReadStep → Prop
  | .fileHeader => m = 0 ∧ n = 0
  | .tagHeader => m ≤ 4 * n + 1 ∧ (n = 0 ∨ c.Below n)
  | step => m + step.rank ≤ 4 * n ∧ 0 < n ∧ (n = 1 ∨ c.Below (n - 1))

theorem Source.ScanEnds.moves {c : SourceConfig} {n : Nat} {y : Source} (h : y.ScanEnds c n)
    (P : ReadStep → Prop) : y.ScanMoves c n P :=
  ⟨h.1, h.2.1, .inl h.2.2⟩

section Sightings

variable {data : List UInt8} {p : Nat}

theorem sighting_tagHeader_ok (hlen : data.length = tagHeaderLength) {h : TagHeader}
    (hp : readTagHeader data (p + data.length).toUInt64 = .ok h) :
    ReadStep.tagHeader.sighting data p = [.header p h] := by
  simp only [ReadStep.sighting, if_pos hlen]
  rw [← hlen, hp]

theorem sighting_tagHeader_error (hlen : data.length = tagHeaderLength) {err : FormatError}
    (hp : readTagHeader data (p + data.length).toUInt64 = .error err) :
    ReadStep.tagHeader.sighting data p = [] := by
  simp only [ReadStep.sighting, if_pos hlen]
  rw [← hlen, hp]

theorem sighting_tagHeader_short (hlen : data.length ≠ tagHeaderLength) :
    ReadStep.tagHeader.sighting data p = [] := by
  simp only [ReadStep.sighting, if_neg hlen]

end Sightings

section Moves

variable {s : Source} {st : ByteStream} (hs : s.Scanning st)
include hs

theorem Source.Scanning.fail_ends (err : SourceError) :
    ((fail err).run s).2.ScanEnds s.config s.scannedTags := by
  have hres := (fail_of_awaiting hs.awaiting err).2
  have hframe : ((fail err).run s).2.config = s.config ∧
      ((fail err).run s).2.scannedTags = s.scannedTags := by
    simp [fail, hs.awaiting, shutdownNow, hs.phase]
  exact ⟨hframe.1, hframe.2, .inr (fail_phase err s), by simp [hres]⟩

theorem Source.Scanning.finishOpen_ends :
    ((guarded finishOpen).run s).2.ScanEnds s.config s.scannedTags := by
  rw [guarded_run]
  simp only [finishOpen, Step.exec_bind, Step.exec_get]
  by_cases hempty : s.survey.descriptors.isEmpty = true
  · simp only [if_pos hempty]
    exact hs.fail_ends _
  simp only [if_neg hempty]
  by_cases hmeta : (s.config.requireMetadata && s.survey.metadata.isNone) = true
  · simp only [if_pos hmeta]
    exact hs.fail_ends _
  simp only [if_neg hmeta]
  have hq1 := Source.foldl_setTrack_quiet (fun d : StreamDescriptor => d.kind)
    (fun d => Track.new d.kind (SourceConfig.clampDepth s.config.queueDepth)) s.survey.descriptors s
  simp only [Step.exec_bind, Step.exec_set, seekStream_exec, hq1.stream, hs.stream,
    ByteStream.seek_start, Step.exec_modify]
  generalize List.foldl (fun t d => t.setTrack d.kind
    (Track.new d.kind (SourceConfig.clampDepth s.config.queueDepth))) s s.survey.descriptors = s1 at hq1 ⊢
  rw [hq1]
  simp [Source.ScanEnds, Source.ScanOver, hs.awaiting]

theorem Source.Scanning.issueRead_moves {P : ReadStep → Prop} {step : ReadStep}
    (hstep : step = .tagHeader ∧ s.config.Below s.scannedTags ∨ P step) (t : Option SeekTarget)
    (k : Nat) : ((guarded (issueRead step t k)).run s).2.ScanMoves s.config s.scannedTags P := by
  cases t with
  | none =>
    rw [guarded_ok (issueRead_none hs.stream _ _)]
    exact ⟨rfl, rfl, .inr ⟨⟨st, hs.stream, hs.phase, hs.awaiting, hs.unanswered⟩, step, rfl, hstep⟩⟩
  | some t =>
    rcases hseek : st.seek t with err | ⟨p, moved⟩
    · rw [guarded_error (issueRead_seek_error hs.stream hseek _ _)]
      exact (hs.fail_ends _).moves P
    · rw [guarded_ok (issueRead_some hs.stream hseek _ _)]
      exact ⟨rfl, rfl, .inr ⟨⟨moved, rfl, hs.phase, hs.awaiting, hs.unanswered⟩, step, rfl, hstep⟩⟩

theorem Source.Scanning.readNextTag_moves {P : ReadStep → Prop}
    (hstep : s.config.Below s.scannedTags ∨ P .tagHeader) :
    ((guarded readNextTag).run s).2.ScanMoves s.config s.scannedTags P := by
  rw [guarded_run, readNextTag_exec, ← guarded_run]
  exact (hs.reset false true).issueRead_moves (hstep.imp_left fun h => ⟨rfl, h⟩) _ _

theorem Source.Scanning.continueScan_moves (P : ReadStep → Prop) :
    ((guarded continueScan).run s).2.ScanMoves s.config s.scannedTags P := by
  have hfin := hs.finishOpen_ends.moves P
  rw [guarded_run] at hfin ⊢
  simp only [continueScan, Step.exec_bind, Step.exec_get]
  split_ifs with hend
  · exact hfin
  · rw [← guarded_run]
    refine hs.readNextTag_moves (.inl (SourceConfig.below_of_not_reached ?_))
    simp only [Bool.or_eq_true, not_or] at hend
    exact hend.1

theorem Source.Scanning.scanPass_moves (P : ReadStep → Prop) (k : Nat) :
    ((guarded (do skipBytes k; continueScan : Step Unit)).run s).2.ScanMoves s.config
      s.scannedTags P := by
  rcases hseek : st.seek (.current k) with err | ⟨p, moved⟩
  · have herr : Step.exec (do skipBytes k; continueScan : Step Unit) s = (.error (.io err), s) := by
      simp only [Step.exec_bind, skipBytes, seekStream_exec, hs.stream, hseek]
    rw [guarded_error herr]
    exact (hs.fail_ends _).moves P
  · rw [guarded_bind_ok (skipBytes_ok hs.stream hseek)]
    exact (hs.moved moved).continueScan_moves P

theorem Source.Scanning.ofFormat_moves {α : Type} {P : ReadStep → Prop} (r : Except FormatError α)
    {g : α → Step Unit} (hg : ∀ a, ((guarded (g a)).run s).2.ScanMoves s.config s.scannedTags P) :
    ((guarded (ofFormat r >>= g)).run s).2.ScanMoves s.config s.scannedTags P := by
  rw [guarded_ofFormat_bind]
  cases r with
  | error err => exact (hs.fail_ends _).moves P
  | ok a => exact hg a

theorem Source.Scanning.scanTag_moves {h : TagHeader} (heof : h.isEndOfFile = false) :
    ((guarded (scanTag h)).run s).2.ScanMoves s.config (s.scannedTags + 1)
      (fun step => step.tag? = some h) := by
  simp only [scanTag, heof, Bool.false_eq_true, if_false]
  rw [guarded_bind_ok (Step.exec_modify _ _), guarded_bind_ok (Step.exec_get _)]
  have hs1 := hs.withCount (s.scannedTags + 1)
  cases hkind : h.kind
  case scriptData =>
    dsimp only
    split_ifs
    · rw [guarded_bind_ok (Step.exec_lift _ _)]
      refine (hs1.withSurvey _).issueRead_moves ?_ none _
      exact .inr rfl
    · exact hs1.scanPass_moves _ _
  case audio | video =>
    dsimp only
    by_cases hpos : h.dataSize.toNat > 0
    · rw [if_pos hpos, guarded_bind_ok (Step.exec_lift _ _), guarded_bind_ok (Step.exec_get _)]
      simp only [updateSurvey_run, ↓reduceIte, reduceCtorEq]
      split_ifs
      · refine (hs1.withSurvey _).issueRead_moves ?_ none _
        exact .inr rfl
      · exact (hs1.withSurvey _).scanPass_moves _ _
    · rw [if_neg hpos]
      exact hs1.scanPass_moves _ _
  all_goals exact hs1.scanPass_moves _ _

theorem Source.Scanning.scanStep_tagHeader_moves (data : List UInt8) (p : Nat) :
    (∃ h, ReadStep.tagHeader.sighting data p = [.header p h] ∧ h.isEndOfFile = false ∧
      ((guarded (scanStep .tagHeader data p)).run s).2.ScanMoves s.config (s.scannedTags + 1)
        (fun step => step.tag? = some h)) ∨
    (∀ o h, Sighting.header o h ∈ ReadStep.tagHeader.sighting data p → h.isEndOfFile = true) ∧
      ((guarded (scanStep .tagHeader data p)).run s).2.ScanEnds s.config s.scannedTags := by
  simp only [scanStep]
  rw [guarded_ofFormat_bind]
  cases hp : readTagHeader data (p + data.length).toUInt64 with
  | error err =>
    have hnil : ReadStep.tagHeader.sighting data p = [] := by
      by_cases hlen : data.length = tagHeaderLength
      · exact sighting_tagHeader_error hlen hp
      · exact sighting_tagHeader_short hlen
    refine .inr ⟨fun o h hmem => ?_, hs.fail_ends _⟩
    simp [hnil] at hmem
  | ok h =>
    dsimp only
    by_cases heof : h.isEndOfFile = true
    · refine .inr ⟨fun o h' hmem => ?_, ?_⟩
      · by_cases hlen : data.length = tagHeaderLength
        · rw [sighting_tagHeader_ok hlen hp, List.mem_singleton, Sighting.header.injEq] at hmem
          rw [hmem.2]
          exact heof
        · simp [sighting_tagHeader_short hlen] at hmem
      · simp only [scanTag, heof, if_true]
        exact hs.finishOpen_ends
    · have heof' : h.isEndOfFile = false := by simpa using heof
      have hlen : data.length = tagHeaderLength := by
        rcases readTagHeader_ok_length hp with rfl | hlen
        · rw [readTagHeader_nil] at hp
          cases hp
          simp at heof
        · exact hlen
      exact .inl ⟨h, sighting_tagHeader_ok hlen hp, heof', hs.scanTag_moves heof'⟩

theorem Source.Scanning.scanStep_moves {step : ReadStep} (hstep : step ≠ .tagHeader)
    (data : List UInt8) (p : Nat) :
    ((guarded (scanStep step data p)).run s).2.ScanMoves s.config s.scannedTags step.Then := by
  cases step with
  | tagHeader => exact absurd rfl hstep
  | fileHeader =>
    refine hs.ofFormat_moves _ fun fh => ?_
    rw [guarded_bind_ok (Step.exec_lift _ _), updateSurvey_run]
    exact (hs.withSurvey _).readNextTag_moves (.inr trivial)
  | scriptPayload tag =>
    refine hs.ofFormat_moves _ fun x => hs.ofFormat_moves _ fun m => ?_
    cases m with
    | none => exact hs.continueScan_moves _
    | some m =>
      dsimp only
      rw [guarded_bind_ok (Step.exec_lift _ _), updateSurvey_run]
      exact (hs.withSurvey _).continueScan_moves _
  | audioHeader tag =>
    refine hs.ofFormat_moves _ fun a => ?_
    rw [guarded_bind_ok (Step.exec_lift _ _), updateSurvey_run, guarded_bind_ok (Step.exec_get _)]
    split_ifs
    · exact (hs.withSurvey _).issueRead_moves (.inr trivial) none _
    · exact (hs.withSurvey _).scanPass_moves _ _
  | aacPacketType a =>
    refine hs.ofFormat_moves _ fun a' => ?_
    split_ifs
    · exact hs.issueRead_moves (.inr trivial) none _
    · exact hs.scanPass_moves _ _
  | audioPayload a =>
    refine hs.ofFormat_moves _ fun x => ?_
    rw [guarded_bind_ok (Step.exec_lift _ _), updateSurvey_run]
    exact (hs.withSurvey _).continueScan_moves _
  | videoHeader tag =>
    refine hs.ofFormat_moves _ fun a => ?_
    rw [guarded_bind_ok (Step.exec_lift _ _), updateSurvey_run, guarded_bind_ok (Step.exec_get _)]
    split_ifs
    · exact (hs.withSurvey _).issueRead_moves (.inr trivial) none _
    · exact (hs.withSurvey _).scanPass_moves _ _
  | avcPacketHeader a =>
    refine hs.ofFormat_moves _ fun a' => ?_
    split_ifs
    · exact hs.issueRead_moves (.inr trivial) none _
    · exact hs.scanPass_moves _ _
  | videoPayload a =>
    refine hs.ofFormat_moves _ fun x => hs.ofFormat_moves _ fun c => ?_
    rw [guarded_bind_ok (Step.exec_lift _ _), updateSurvey_run]
    exact (hs.withSurvey _).continueScan_moves _

end Moves

section Budget

variable {c : SourceConfig} {m n : Nat} {step step₁ : ReadStep}

theorem ReadStep.rank_le (step : ReadStep) : step.rank ≤ 2 := by
  cases step <;> simp [ReadStep.rank]

theorem ReadStep.ne_of_tag {t : TagHeader} (h : step.tag? = some t) :
    step ≠ .fileHeader ∧ step ≠ .tagHeader := by
  cases step <;> simp_all [ReadStep.tag?]

theorem ReadStep.Then.of_fileHeader (h : ReadStep.fileHeader.Then step₁) : step₁ = .tagHeader := by
  cases step₁ <;> simp_all [ReadStep.Then]

theorem ReadStep.Then.piece (h : step.Then step₁) (hf : step ≠ .fileHeader) :
    step₁ ≠ .fileHeader ∧ step₁ ≠ .tagHeader ∧ step₁.rank + 1 = step.rank := by
  cases step <;> cases step₁ <;> simp_all [ReadStep.Then, ReadStep.rank]

theorem ReadStep.onBudget_piece (hf : step ≠ .fileHeader) (ht : step ≠ .tagHeader) :
    step.OnBudget c m n ↔ m + step.rank ≤ 4 * n ∧ 0 < n ∧ (n = 1 ∨ c.Below (n - 1)) := by
  cases step with
  | fileHeader => exact absurd rfl hf
  | tagHeader => exact absurd rfl ht
  | _ => exact Iff.rfl

theorem ReadStep.OnBudget.next (hb : step.OnBudget c m n) (ht : step ≠ .tagHeader)
    (hnext : step₁ = .tagHeader ∧ c.Below n ∨ step.Then step₁) : step₁.OnBudget c (m + 1) n := by
  by_cases hf : step = .fileHeader
  · subst hf
    obtain ⟨rfl, rfl⟩ := hb
    obtain rfl : step₁ = .tagHeader := hnext.elim (·.1) ReadStep.Then.of_fileHeader
    exact ⟨le_refl _, .inl rfl⟩
  obtain ⟨hm, hpos, hlim⟩ := (ReadStep.onBudget_piece hf ht).1 hb
  rcases hnext with ⟨rfl, hbelow⟩ | hthen
  · exact ⟨by omega, .inr hbelow⟩
  · obtain ⟨hf₁, ht₁, hr⟩ := hthen.piece hf
    exact (ReadStep.onBudget_piece hf₁ ht₁).2 ⟨by omega, hpos, hlim⟩

theorem ReadStep.OnBudget.counted (hb : ReadStep.tagHeader.OnBudget c m n) {t : TagHeader}
    (hnext : step₁ = .tagHeader ∧ c.Below (n + 1) ∨ step₁.tag? = some t) :
    step₁.OnBudget c (m + 1) (n + 1) := by
  obtain ⟨hm, hlim⟩ := hb
  rcases hnext with ⟨rfl, hbelow⟩ | htag
  · exact ⟨by omega, .inr hbelow⟩
  · obtain ⟨hf₁, ht₁⟩ := ReadStep.ne_of_tag htag
    have hr := step₁.rank_le
    refine (ReadStep.onBudget_piece hf₁ ht₁).2 ⟨by omega, by omega, ?_⟩
    rcases hlim with rfl | hbelow
    · exact .inl rfl
    · exact .inr (by simpa using hbelow)

theorem ReadStep.OnBudget.ends (hb : step.OnBudget c m n) :
    m + 1 ≤ 4 * n + 2 ∧ ∀ L, c.tagLimit = some L → n ≤ max L 1 := by
  by_cases hf : step = .fileHeader
  · subst hf
    obtain ⟨rfl, rfl⟩ := hb
    exact ⟨by omega, fun L _ => by omega⟩
  by_cases ht : step = .tagHeader
  · subst ht
    obtain ⟨hm, hlim⟩ := hb
    refine ⟨by omega, fun L hL => ?_⟩
    have := SourceConfig.succ_le_of_below hlim hL
    omega
  · obtain ⟨hm, hpos, hlim⟩ := (ReadStep.onBudget_piece hf ht).1 hb
    refine ⟨by omega, fun L hL => ?_⟩
    -- inside a tag the count is one past the count the limit was checked at
    have := SourceConfig.succ_le_of_below (hlim.imp_left fun h => by omega) hL
    omega

theorem ReadStep.OnBudget.ends_counted (hb : ReadStep.tagHeader.OnBudget c m n) :
    m + 1 ≤ 4 * (n + 1) + 2 ∧ ∀ L, c.tagLimit = some L → n + 1 ≤ max L 1 :=
  ⟨by have := hb.1; omega, fun _ hL => SourceConfig.succ_le_of_below hb.2 hL⟩

end Budget

section Reads

variable {f : List UInt8} {e : Nat} {s : Source} {st : ByteStream}

theorem ReadStep.sighting_of_ne {step : ReadStep} (h : step ≠ .tagHeader) (data : List UInt8)
    (o : Nat) : step.sighting data o = [] := by
  cases step with
  | tagHeader => exact absurd rfl h
  | _ => rfl

theorem ReadStep.sighting_headers (step : ReadStep) (data : List UInt8) (o : Nat) :
    ((step.sighting data o).filterMap Sighting.header?).map (fun x => Sighting.header x.1 x.2) =
      step.sighting data o := by
  unfold ReadStep.sighting
  split
  · split_ifs
    · split <;> rfl
    · rfl
  · rfl

theorem Source.sightings_split (s : Source) (a : Action) :
    ∃ r, s.sightings a = s.parses a ++ r ∧ (∀ x ∈ r, x.header? = none) ∧
      ((s.act a).2.phase ≠ .stopped → r = []) := by
  unfold Source.sightings
  refine ⟨_, rfl, fun x hx => ?_, fun h => ?_⟩
  · split_ifs at hx
    · rw [List.mem_singleton] at hx
      rw [hx]
      rfl
    · cases hx
  · rw [if_neg (fun h' => h h'.2)]

theorem Walking.scan_queue (hw : Walking f e s) (hph : s.phase = .opening) {step : ReadStep}
    (hp : s.pending = some step) : ∃ o k, s.tasks = [.read s.session.word o k] := by
  have hin := hw.pending (by simp [hp])
  have hreads : s.tasks.countP Task.isRead = 1 := by rw [hw.reads, hin]; rfl
  have hcontrols : s.tasks.countP (fun t => !t.isRead) = 0 := by
    rw [hw.controls, hw.opening hph]
    rfl
  obtain ⟨x, hx⟩ : ∃ x, s.tasks = [x] := by
    apply List.length_eq_one_iff.1
    rw [List.length_eq_countP_add_countP Task.isRead, hreads]
    simpa using hcontrols
  rw [hx] at hreads
  cases x with
  | read t o k =>
    by_cases hcur : t = s.session.word
    · exact ⟨o, k, by rw [hx, hcur]⟩
    · exact absurd hph (hw.stale t o k (by rw [hx]; exact List.mem_singleton_self _) hcur).2
  | _ => simp [Task.isRead] at hreads

theorem Walking.run_scanning (hw : Walking f e s) (hs : s.Scanning st) {step : ReadStep}
    (hp : s.pending = some step) :
    (s.act (.run 0)).2.ScanEnds s.config s.scannedTags ∧ s.parses (.run 0) = [] ∨
      ∃ data o s', (∃ st', s'.Scanning st') ∧ s'.config = s.config ∧
        s'.scannedTags = s.scannedTags ∧
        (s.act (.run 0)).2 = ((guarded (scanStep step data o)).run s').2 ∧
        s.parses (.run 0) = step.sighting data o := by
  obtain ⟨o, k, ht⟩ := hw.scan_queue hs.phase hp
  have hi : s.tasks[0]? = some (.read s.session.word o k) := by rw [ht]; rfl
  have hcur : s.session.isCurrent s.session.word = true :=
    (Session.isCurrent_iff _ _).2 ⟨hw.word, rfl⟩
  rw [Source.parses_run hi, Source.act_run_some hi, show s.tasks.eraseIdx 0 = [] by rw [ht]; rfl]
  cases hr : st.read k with
  | error fl =>
    have hs' : ({ s with tasks := [], readInFlight := false, pending := none } : Source).Scanning st :=
      ⟨hs.stream, hs.phase, hs.awaiting, hs.unanswered⟩
    rw [runTask_read_error (s := { s with tasks := [] }) hs.stream hr,
      resume_error (s := { s with tasks := [] }) hcur hp]
    exact .inl ⟨hs'.fail_ends _, by simp [Source.sightingOf, hp, hs.stream, hcur, hs.phase, hr]⟩
  | ok r =>
    obtain ⟨data, st'⟩ := r
    rw [runTask_read_ok (s := { s with tasks := [] }) hs.stream hr,
      resume_scan (s := { s with tasks := [], stream := some st' }) hcur hp hs.phase]
    refine .inr ⟨data, o,
      { s with tasks := [], stream := some st', readInFlight := false, pending := none },
      ⟨st', rfl, hs.phase, hs.awaiting, hs.unanswered⟩, rfl, rfl, rfl, ?_⟩
    simp [Source.sightingOf, hp, hs.stream, hcur, hs.phase, hr]

theorem Walking.run_walking (hf : f.length < Nat.pow 2 64) (hw : Walking f e s)
    (hs : s.Scanning st) {step : ReadStep} (hp : s.pending = some step)
    (hph : (s.act (.run 0)).2.phase = .opening) : ∃ e₁, Walking f e₁ (s.act (.run 0)).2 := by
  obtain ⟨o, k, ht⟩ := hw.scan_queue hs.phase hp
  have hi : s.tasks[0]? = some (.read s.session.word o k) := by rw [ht]; rfl
  have hperm : (Task.read s.session.word o k :: s.tasks.eraseIdx 0).Perm s.tasks := by
    rw [ht]
    exact List.Perm.refl _
  rw [Source.act_run_some hi] at hph ⊢
  obtain ⟨e₁, -, hsound⟩ := hw.run_current hf hperm
  rcases hsound with (⟨hsh, -⟩ | hw₁) | ⟨hst, -⟩
  · rw [hph] at hsh
    cases hsh
  · exact ⟨e₁, hw₁⟩
  · rw [hph] at hst
    cases hst

theorem countP_tags_eq_zero {l : List Sighting}
    (h : ∀ o t, Sighting.header o t ∈ l → t.isEndOfFile = true) :
    (l.filterMap Sighting.header?).countP (fun x => !x.2.isEndOfFile) = 0 := by
  refine List.countP_eq_zero.2 fun x hx => ?_
  obtain ⟨a, ha, hax⟩ := List.mem_filterMap.1 hx
  cases a with
  | header o t =>
    simp only [Sighting.header?, Option.some.injEq] at hax
    subst hax
    simp [h o t ha]
  | rewind o => cases hax

theorem Source.sightingOf_headers (s : Source) (c : Task) :
    ((s.sightingOf c).filterMap Sighting.header?).map (fun x => Sighting.header x.1 x.2) =
      s.sightingOf c := by
  rcases s.sightingOf_cases c with h | ⟨step, data, o, h⟩ <;> rw [h]
  · rfl
  · exact ReadStep.sighting_headers step data o

theorem Source.parses_headers (s : Source) (a : Action) :
    ((s.parses a).filterMap Sighting.header?).map (fun x => Sighting.header x.1 x.2) = s.parses a := by
  cases a with
  | run i =>
    cases h : s.tasks[i]? with
    | none => simp [Source.parses, h]
    | some c =>
      rw [Source.parses_run h]
      exact s.sightingOf_headers c
  | _ => rfl

end Reads

/-- The scan of `f` under `c`, `m` reads after the open, having parsed the headers `hs`: it waits
for its next read on budget, and the headers it parsed are those of the tags it counted. -/
structure Source.ScanPaced (f : List UInt8) (c : SourceConfig) (m : Nat)
    (hs : List (Nat × TagHeader)) (y : Source) : Prop where
  config : y.config = c
  walking : ∃ e, Walking f e y
  scanning : ∃ st, y.Scanning st
  budget : ∃ step, y.pending = some step ∧ step.OnBudget c m y.scannedTags
  count : hs.length = y.scannedTags
  tags : ∀ x ∈ hs, x.2.isEndOfFile = false

/-- The scan under `c` ended with its `m`-th read, having parsed the headers `hs`: the demuxer
stopped or shut down, the open has its answer if a read was made, at most four reads went to
each tag counted and two more, the tags counted are the headers parsed that do not mark the end
of the file, and there are at most `max L 1` of them under a tag limit `L`. -/
structure Source.ScanDone (c : SourceConfig) (m : Nat) (hs : List (Nat × TagHeader)) (y : Source) : Prop where
  ended : y.phase = .stopped ∨ y.phase = .shutdown
  answered : 0 < m → y.openResult.isSome
  reads : m ≤ 4 * y.scannedTags + 2
  count : hs.countP (fun x => !x.2.isEndOfFile) = y.scannedTags
  limit : ∀ L, c.tagLimit = some L → y.scannedTags ≤ max L 1

section Paced

variable {f : List UInt8} {c : SourceConfig} {m : Nat} {hs : List (Nat × TagHeader)} {y : Source}

theorem Source.ScanEnds.done {n : Nat} (he : y.ScanEnds c n) (hreads : m ≤ 4 * n + 2)
    (hcount : hs.countP (fun x => !x.2.isEndOfFile) = n)
    (hlimit : ∀ L, c.tagLimit = some L → n ≤ max L 1) : y.ScanDone c m hs := by
  obtain ⟨-, rfl, hover, hans⟩ := he
  exact ⟨hover, fun _ => hans, hreads, hcount, hlimit⟩

theorem Source.ScanPaced.queue (h : y.ScanPaced f c m hs) : ∃ t o k, y.tasks = [.read t o k] := by
  obtain ⟨e, hw⟩ := h.walking
  obtain ⟨st, hsc⟩ := h.scanning
  obtain ⟨step, hp, -⟩ := h.budget
  obtain ⟨o, k, ht⟩ := hw.scan_queue hsc.phase hp
  exact ⟨_, o, k, ht⟩

theorem ReadStep.OnBudget.le {step : ReadStep} {n : Nat} (hb : step.OnBudget c m n) :
    m ≤ 4 * n + 1 := by
  by_cases hf : step = .fileHeader
  · subst hf
    obtain ⟨rfl, rfl⟩ := hb
    exact Nat.zero_le _
  by_cases ht : step = .tagHeader
  · subst ht
    exact hb.1
  · have := ((ReadStep.onBudget_piece hf ht).1 hb).1
    omega

theorem Source.ScanPaced.next (hf : f.length < Nat.pow 2 64) (h : y.ScanPaced f c m hs) :
    (y.act (.run 0)).2.ScanPaced f c (m + 1) (hs ++ (y.parses (.run 0)).filterMap Sighting.header?) ∨
      (y.act (.run 0)).2.ScanDone c (m + 1) (hs ++ (y.parses (.run 0)).filterMap Sighting.header?) := by
  obtain ⟨hc, ⟨e, hw⟩, ⟨st, hsc⟩, ⟨step, hp, hb⟩, hlen, htags⟩ := h
  subst hc
  have hcount : hs.countP (fun x => !x.2.isEndOfFile) = y.scannedTags := by
    rw [List.countP_eq_length.2 fun x hx => by simp [htags x hx], hlen]
  have hwalk := hw.run_walking hf hsc hp
  rcases hw.run_scanning hsc hp with ⟨hend, hsight⟩ | ⟨data, o, s', ⟨st', hs'⟩, hcfg, hcnt, hy, hsight⟩
  · rw [hsight, List.filterMap_nil, List.append_nil]
    exact .inr (hend.done hb.ends.1 hcount hb.ends.2)
  rw [hy] at hwalk ⊢
  rw [hsight]
  by_cases hstep : step = .tagHeader
  · subst hstep
    rcases hs'.scanStep_tagHeader_moves data o with ⟨h₀, hsg, heof, hmoves⟩ | ⟨hsg, hend⟩
    · have hcount₁ : (hs ++ [(o, h₀)]).countP (fun x => !x.2.isEndOfFile) = y.scannedTags + 1 := by
        rw [List.countP_append, hcount]
        simp [heof]
      rw [hsg]
      simp only [List.filterMap_cons, Sighting.header?, List.filterMap_nil]
      obtain ⟨hc', hn', hover | ⟨⟨st'', hsc'⟩, step₁, hp₁, hnext⟩⟩ := hmoves
      · have he : ((guarded (scanStep .tagHeader data o)).run s').2.ScanEnds y.config
            (y.scannedTags + 1) := by
          rw [← hcfg, ← hcnt]
          exact ⟨hc', hn', hover⟩
        exact .inr (he.done hb.ends_counted.1 hcount₁ hb.ends_counted.2)
      · rw [hcfg, hcnt] at hnext
        refine .inl ⟨hc'.trans hcfg, hwalk hsc'.phase, ⟨st'', hsc'⟩,
          ⟨step₁, hp₁, by rw [hn', hcnt]; exact hb.counted hnext⟩, by simp [hlen, hn', hcnt], ?_⟩
        intro x hx
        rcases List.mem_append.1 hx with hx | hx
        · exact htags x hx
        · rw [List.mem_singleton.1 hx]
          exact heof
    · have hnone := countP_tags_eq_zero hsg
      rw [hcfg, hcnt] at hend
      exact .inr (hend.done hb.ends.1 (by rw [List.countP_append, hcount, hnone, Nat.add_zero]) hb.ends.2)
  · rw [ReadStep.sighting_of_ne hstep, List.filterMap_nil, List.append_nil]
    obtain ⟨hc', hn', hover | ⟨⟨st'', hsc'⟩, step₁, hp₁, hnext⟩⟩ := hs'.scanStep_moves hstep data o
    · have he : ((guarded (scanStep step data o)).run s').2.ScanEnds y.config y.scannedTags :=
        ⟨hc'.trans hcfg, hn'.trans hcnt, hover⟩
      exact .inr (he.done hb.ends.1 hcount hb.ends.2)
    · rw [hcfg, hcnt] at hnext
      exact .inl ⟨hc'.trans hcfg, hwalk hsc'.phase, ⟨st'', hsc'⟩,
        ⟨step₁, hp₁, by rw [hn', hcnt]; exact hb.next hstep hnext⟩, by rw [hlen, hn', hcnt], htags⟩

end Paced

/-- A new demuxer with the configuration `c`, opened on `st`, after `m` queued tasks ran. -/
def scanAfter (c : SourceConfig) (st : ByteStream) (m : Nat) : Source :=
  (Source.create c).actAll (.open st :: List.replicate m (.run 0))

def scanWalk (c : SourceConfig) (st : ByteStream) (m : Nat) : List Sighting :=
  (Source.create c).walk (.open st :: List.replicate m (.run 0))

/-- The tag headers that run parsed, in order, each with the offset it was read at. -/
def scanHeaders (c : SourceConfig) (st : ByteStream) (m : Nat) : List (Nat × TagHeader) :=
  (scanWalk c st m).filterMap Sighting.header?

section Open

variable {c : SourceConfig} {st : ByteStream} {m : Nat}

theorem Source.walk_append (s : Source) (as bs : List Action) :
    s.walk (as ++ bs) = s.walk as ++ (s.actAll as).walk bs := by
  induction as generalizing s with
  | nil => simp [Source.walk]
  | cons a as ih => simp [Source.walk, ih, List.append_assoc]

theorem scanAfter_succ (c : SourceConfig) (st : ByteStream) (m : Nat) :
    scanAfter c st (m + 1) = ((scanAfter c st m).act (.run 0)).2 := by
  rw [scanAfter, scanAfter, List.replicate_succ', ← List.cons_append, Source.actAll_append]
  rfl

theorem scanWalk_succ (c : SourceConfig) (st : ByteStream) (m : Nat) :
    scanWalk c st (m + 1) = scanWalk c st m ++ (scanAfter c st m).sightings (.run 0) := by
  rw [scanWalk, scanWalk, scanAfter, List.replicate_succ', ← List.cons_append, Source.walk_append]
  simp [Source.walk]

@[simp] theorem Sighting.filterMap_header?_map (l : List (Nat × TagHeader)) :
    (l.map fun x => Sighting.header x.1 x.2).filterMap Sighting.header? = l := by
  induction l with
  | nil => rfl
  | cons x l ih => simp [Sighting.header?, ih]

theorem filterMap_header?_of_none {r : List Sighting} (hr : ∀ x ∈ r, x.header? = none) :
    r.filterMap Sighting.header? = [] :=
  List.filterMap_eq_nil_iff.2 hr

theorem open_create_cases (c : SourceConfig) (st : ByteStream) :
    (((Source.create c).act (.open st)).2.config = c ∧
        ((Source.create c).act (.open st)).2.scannedTags = 0 ∧
        ((Source.create c).act (.open st)).2.Scanning { st with position := 0 } ∧
        ((Source.create c).act (.open st)).2.pending = some .fileHeader) ∨
      ((Source.create c).act (.open st)).2.phase = .shutdown ∧
        ((Source.create c).act (.open st)).2.scannedTags = 0 := by
  have hph : (Source.create c).phase = .invalid := rfl
  simp only [Source.act, beginOpen, Step.exec_bind, Step.exec_get, hph]
  split_ifs
  · simp only [Step.exec_bind, Step.exec_lift, Step.exec_throw]
    exact .inr ⟨shutdownNow_phase _, by simp [shutdownNow, Source.create]⟩
  · simp only [Step.exec_bind, Step.exec_set, Step.exec_lift]
    rw [guarded_ok (issueRead_some rfl (ByteStream.seek_start st 0) _ _)]
    exact .inl ⟨rfl, rfl, ⟨rfl, rfl, rfl, rfl⟩, rfl⟩

theorem scanWalk_zero (c : SourceConfig) (st : ByteStream) : scanWalk c st 0 = [] := by
  have hph : ((Source.create c).act (.open st)).2.phase ≠ .stopped := by
    rcases open_create_cases c st with ⟨-, -, hs, -⟩ | ⟨hph, -⟩
    · rw [hs.phase]
      decide
    · rw [hph]
      decide
  simp [scanWalk, Source.walk, Source.sightings, Source.parses, hph]

end Open

section Run

variable {c : SourceConfig} {st : ByteStream}

/-- Along the run from the open, as long as the demuxer was opening before: the scan waits on
budget, having shown exactly the headers it parsed, or it ended as `ScanDone` says, having shown
them and at most a rewind. -/
theorem scanAfter_paced_or_done (hf : st.data.length < Nat.pow 2 64) :
    ∀ m, (∀ j < m, (scanAfter c st j).phase = .opening) →
      ∃ r, scanWalk c st m = (scanHeaders c st m).map (fun x => Sighting.header x.1 x.2) ++ r ∧
        (∀ x ∈ r, x.header? = none) ∧
        (r = [] ∧ (scanAfter c st m).ScanPaced st.data c m (scanHeaders c st m) ∨
          (scanAfter c st m).ScanDone c m (scanHeaders c st m))
  | 0, _ => by
    have hh : scanHeaders c st 0 = [] := by simp [scanHeaders, scanWalk_zero]
    refine ⟨[], by simp [scanWalk_zero, hh], by simp, ?_⟩
    rw [hh]
    rcases open_create_cases c st with ⟨hc, hn, hs, hp⟩ | ⟨hph, hn⟩
    · have hw : Walking st.data (fileHeaderLength + previousTagSizeLength) (scanAfter c st 0) := by
        have hw₀ := (create_sound c st.data).resolve_left fun h => by simp [Source.create] at h
        refine (hw₀.opens rfl).resolve_left fun h => ?_
        rw [show (Step.exec (beginOpen st) (Source.create c)).2 = scanAfter c st 0 from rfl,
          show scanAfter c st 0 = ((Source.create c).act (.open st)).2 from rfl, hs.phase] at h
        cases h.1
      exact .inl ⟨rfl, hc, ⟨_, hw⟩, ⟨_, hs⟩, ⟨.fileHeader, hp, rfl, hn⟩, hn.symm, by simp⟩
    · have hn' : (scanAfter c st 0).scannedTags = 0 := hn
      exact .inr ⟨.inr hph, fun h => absurd h (Nat.lt_irrefl 0), by simp, by simp [hn'],
        by simp [hn']⟩
  | m + 1, hopen => by
    obtain ⟨r, hwalk, hr, hstage⟩ := scanAfter_paced_or_done hf m fun j hj => hopen j (by omega)
    have hph := hopen m (Nat.lt_succ_self m)
    obtain ⟨rfl, hpaced⟩ : r = [] ∧ (scanAfter c st m).ScanPaced st.data c m (scanHeaders c st m) := by
      rcases hstage with hpaced | hdone
      · exact hpaced
      · rcases hdone.ended with h | h <;> rw [hph] at h <;> cases h
    obtain ⟨r', hsight, hr', hstop⟩ := (scanAfter c st m).sightings_split (.run 0)
    have hheaders : scanHeaders c st (m + 1) =
        scanHeaders c st m ++ ((scanAfter c st m).parses (.run 0)).filterMap Sighting.header? := by
      rw [scanHeaders, scanWalk_succ, List.filterMap_append, hsight, List.filterMap_append,
        filterMap_header?_of_none hr', List.append_nil]
      rfl
    have hwalk' : scanWalk c st (m + 1) =
        (scanHeaders c st (m + 1)).map (fun x => Sighting.header x.1 x.2) ++ r' := by
      rw [scanWalk_succ, hwalk, hsight, hheaders, List.map_append,
        Source.parses_headers, List.append_nil, List.append_assoc]
    refine ⟨r', hwalk', hr', ?_⟩
    rw [hheaders, scanAfter_succ]
    rcases hpaced.next hf with hnext | hdone
    · obtain ⟨st', hs'⟩ := hnext.scanning
      exact .inl ⟨hstop (by rw [hs'.phase]; decide), hnext⟩
    · exact .inr hdone

/-- The scan that opening `st` under `c` starts ends with its `n`-th read, at the cost the scan
has. Before each read the demuxer is opening, with the one read of the scan queued; after the
last it has stopped or shut down, and the open has its answer if a read was made. At most four
reads went to each tag counted and two more, and the tags counted fit in the file, fifteen bytes
each at least; the `k`-th header parsed lies `13 + 15 * k` bytes or more into the file; the tags
counted are the headers parsed that do not mark the end of the file; and under a tag limit `L`
at most `max L 1` tags are counted. -/
structure ScanEndsAt (c : SourceConfig) (st : ByteStream) (n : Nat) : Prop where
  opening : ∀ m < n, (scanAfter c st m).phase = .opening ∧
    ∃ t o k, (scanAfter c st m).tasks = [.read t o k]
  ended : (scanAfter c st n).phase = .stopped ∨ (scanAfter c st n).phase = .shutdown
  answered : 0 < n → (scanAfter c st n).openResult.isSome
  reads : n ≤ 4 * (scanAfter c st n).scannedTags + 2
  fits : (scanAfter c st n).scannedTags ≤ (st.data.length - 9) / 15
  spaced : ∀ k o h, (scanHeaders c st n)[k]? = some (o, h) → 13 + 15 * k ≤ o
  counted : (scanHeaders c st n).countP (fun x => !x.2.isEndOfFile) = (scanAfter c st n).scannedTags
  limit : ∀ L, c.tagLimit = some L → (scanAfter c st n).scannedTags ≤ max L 1

theorem Sound.fresh_of_scan {f : List UInt8} {e : Nat} {s : Source} (hs : Sound f e s)
    (hph : s.phase = .opening) : ∀ t o n, Task.read t o n ∈ s.tasks → t ≠ s.session.restart.word := by
  rcases hs with ⟨h, -⟩ | hw
  · simp [hph] at h
  · exact hw.fresh_of_scan (.inr hph)

theorem scanWalk_advances (hf : st.data.length < Nat.pow 2 64) :
    ∀ m, (∀ j < m, (scanAfter c st j).phase = .opening) →
      ∃ e, Advances st.data (fileHeaderLength + previousTagSizeLength) (scanWalk c st m) e ∧
        Sound st.data e (scanAfter c st m)
  | 0, _ => by
    obtain ⟨e, hadv, hs⟩ := (create_sound c st.data).act hf (a := .open st)
      (fun t o n h => by simp [Source.create] at h) fun st' h => by cases h; rfl
    refine ⟨e, ?_, hs⟩
    simpa [scanWalk, Source.walk] using hadv
  | m + 1, hopen => by
    obtain ⟨e, hadv, hs⟩ := scanWalk_advances hf m fun j hj => hopen j (by omega)
    obtain ⟨e', hadv', hs'⟩ := hs.act hf (hs.fresh_of_scan (hopen m (Nat.lt_succ_self m)))
      (a := .run 0) fun _ h => by cases h
    refine ⟨e', ?_, by rw [scanAfter_succ]; exact hs'⟩
    rw [scanWalk_succ]
    exact hadv.trans hadv'

theorem scanWalk_walks (hf : st.data.length < Nat.pow 2 64) {m : Nat}
    (hopen : ∀ j < m, (scanAfter c st j).phase = .opening) :
    Walks st.data (fileHeaderLength + previousTagSizeLength) (scanWalk c st m) := by
  obtain ⟨e, hadv, -⟩ := scanWalk_advances hf m hopen
  simpa using hadv [] trivial

theorem scanHeaders_fit (hf : st.data.length < Nat.pow 2 64) {m : Nat} {r : List Sighting}
    (hopen : ∀ j < m, (scanAfter c st j).phase = .opening)
    (hw : scanWalk c st m = (scanHeaders c st m).map (fun x => Sighting.header x.1 x.2) ++ r) :
    (scanHeaders c st m).length ≤ (st.data.length - 9) / 15 := by
  have hfit := (hw ▸ scanWalk_walks hf hopen).headers_fit
  simp only [fileHeaderLength, previousTagSizeLength] at hfit
  omega

theorem scan_waits_within (hf : st.data.length < Nat.pow 2 64) {m : Nat}
    (hopen : ∀ j < m, (scanAfter c st j).phase = .opening)
    (hph : (scanAfter c st m).phase = .opening) : m ≤ 4 * ((st.data.length - 9) / 15) + 1 := by
  obtain ⟨r, hw, -, hstage⟩ := scanAfter_paced_or_done hf m hopen
  rcases hstage with ⟨-, hp⟩ | hd
  · obtain ⟨step, -, hb⟩ := hp.budget
    have hle := hb.le
    have hfit := scanHeaders_fit hf hopen hw
    rw [hp.count] at hfit
    omega
  · rcases hd.ended with h | h <;> rw [hph] at h <;> cases h

/-- The scan that an open starts ends, after a number of reads linear in the size of the file,
at the cost `ScanEndsAt` says. -/
theorem scan_ends_within_reads (c : SourceConfig) (st : ByteStream)
    (hf : st.data.length < Nat.pow 2 64) :
    ∃ n, ScanEndsAt c st n ∧ n ≤ 4 * ((st.data.length - 9) / 15) + 2 := by
  classical
  have hex : ∃ n, (scanAfter c st n).phase ≠ .opening := by
    by_contra hall
    push Not at hall
    have := scan_waits_within hf (m := 4 * ((st.data.length - 9) / 15) + 2) (fun j _ => hall j)
      (hall _)
    omega
  have hmin : ∀ j < Nat.find hex, (scanAfter c st j).phase = .opening := fun j hj => by
    simpa using Nat.find_min hex hj
  obtain ⟨r, hw, -, hstage⟩ := scanAfter_paced_or_done hf _ hmin
  have hdone : (scanAfter c st (Nat.find hex)).ScanDone c (Nat.find hex)
      (scanHeaders c st (Nat.find hex)) := by
    rcases hstage with ⟨-, hp⟩ | hd
    · obtain ⟨st', hs⟩ := hp.scanning
      exact absurd hs.phase (Nat.find_spec hex)
    · exact hd
  -- the tags counted are among the headers parsed, which fit in the file
  have hfits : (scanAfter c st (Nat.find hex)).scannedTags ≤ (st.data.length - 9) / 15 := by
    rw [← hdone.count]
    exact (List.countP_le_length).trans (scanHeaders_fit hf hmin hw)
  refine ⟨Nat.find hex, ⟨fun m hm => ⟨hmin m hm, ?_⟩, hdone.ended, hdone.answered, hdone.reads,
    hfits, fun k o h hk => ?_, hdone.count, hdone.limit⟩, by have := hdone.reads; omega⟩
  · obtain ⟨r', -, -, hstage'⟩ := scanAfter_paced_or_done hf m fun j hj => hmin j (by omega)
    rcases hstage' with ⟨-, hp⟩ | hd
    · exact hp.queue
    · rcases hd.ended with h | h <;> rw [hmin m hm] at h <;> cases h
  · have hsp := ((hw ▸ scanWalk_walks hf hmin).headers_spaced hk).1
    simp only [fileHeaderLength, previousTagSizeLength] at hsp
    omega

/-- A file of one MP3 audio tag, scanned under a tag limit of zero. -/
theorem scan_ends_within_reads_one_tag :
    ([0x46, 0x4C, 0x56, 1, 4, 0, 0, 0, 9, 0, 0, 0, 0, 8, 0, 0, 2, 0, 0, 0, 0, 0, 0, 0, 0x2F,
      0xA1, 0, 0, 0, 13] : List UInt8).length < Nat.pow 2 64 ∧
    ∃ n, ScanEndsAt { tagLimit := some 0 } { data := [0x46, 0x4C, 0x56, 1, 4, 0, 0, 0, 9, 0, 0,
        0, 0, 8, 0, 0, 2, 0, 0, 0, 0, 0, 0, 0, 0x2F, 0xA1, 0, 0, 0, 13] } n ∧
      n ≤ 4 * ((([0x46, 0x4C, 0x56, 1, 4, 0, 0, 0, 9, 0, 0, 0, 0, 8, 0, 0, 2, 0, 0, 0, 0, 0,
        0, 0, 0x2F, 0xA1, 0, 0, 0, 13] : List UInt8).length - 9) / 15) + 2 := by
  refine ⟨by decide, scan_ends_within_reads _ _ ?_⟩
  decide

set_option maxRecDepth 10000 in
/-- Under a tag limit of zero the scan of a file of one MP3 audio tag still counts that tag:
it reads the file header, the tag header and the audio sub-header, and only then finds the limit
reached and stops. -/
theorem zero_tag_limit_counts_one_tag :
    (scanAfter { tagLimit := some 0 } { data := [0x46, 0x4C, 0x56, 1, 4, 0, 0, 0, 9, 0, 0, 0, 0,
      8, 0, 0, 2, 0, 0, 0, 0, 0, 0, 0, 0x2F, 0xA1, 0, 0, 0, 13] } 3).phase = .stopped ∧
    (scanAfter { tagLimit := some 0 } { data := [0x46, 0x4C, 0x56, 1, 4, 0, 0, 0, 9, 0, 0, 0, 0,
      8, 0, 0, 2, 0, 0, 0, 0, 0, 0, 0, 0x2F, 0xA1, 0, 0, 0, 13] } 3).scannedTags = 1 ∧
    (scanHeaders { tagLimit := some 0 } { data := [0x46, 0x4C, 0x56, 1, 4, 0, 0, 0, 9, 0, 0, 0, 0,
      8, 0, 0, 2, 0, 0, 0, 0, 0, 0, 0, 0x2F, 0xA1, 0, 0, 0, 13] } 3).countP
        (fun x => !x.2.isEndOfFile) = 1 := by
  decide +kernel

end Run

end FlvDemux.Engine
