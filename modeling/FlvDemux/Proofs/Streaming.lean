import FlvDemux.Proofs.Framing

/-!
# Streaming keeps to the chain

A read completed while started or paused (`streamStep`) leaves the demuxer on its walk: the
reads it issues are the next pieces of the tag it is in, and what it passes over ends exactly
at the size field after the tag. A whole tag header read where the walk is moves the walk to
the next tag of the chain; an empty one is the end of the file.
-/

namespace FlvDemux.Engine

open Flv

section Composition

variable {s : Source}

theorem guarded_ofFormat_bind {α : Type} (r : Except FormatError α) (g : α → Step Unit) (s : Source) :
    (guarded (ofFormat r >>= g)).run s = match r with
      | .ok a => (guarded (g a)).run s
      | .error e => (fail (.format e)).run s := by
  cases r <;> simp [guarded_run, Step.exec_bind, ofFormat_exec, Except.mapError]

theorem guarded_bind_pump {m : Step Unit} {s' : Source} (h : Step.exec m s = (.ok (), s')) :
    (guarded (m >>= fun _ => liftM pump)).run s = pump.run s' := by
  rw [guarded_ok (by rw [Step.exec_bind, h]; rfl)]
  rfl

theorem guarded_bind_pump_error {m : Step Unit} {s' : Source} {e : SourceError}
    (h : Step.exec m s = (.error e, s')) :
    (guarded (m >>= fun _ => liftM pump)).run s = (fail e).run s' := by
  rw [guarded_error (by rw [Step.exec_bind, h])]

theorem replaceAvcConfig_cases (payload : List UInt8) (s : Source) :
    (∃ s', Step.exec (replaceAvcConfig payload) s = (.ok (), s') ∧ s.Quiet s') ∨
      ∃ e, Step.exec (replaceAvcConfig payload) s = (.error e, s) := by
  simp only [replaceAvcConfig, Step.exec_bind, ofFormat_exec]
  cases readAvcConfig payload with
  | error e => exact .inr ⟨_, rfl⟩
  | ok c =>
    refine .inl ⟨_, rfl, ?_⟩
    simp only [Source.Quiet]
    split_ifs <;> rfl

theorem deliverNalUnits_cases (p : VideoPacket) (payload : List UInt8) (s : Source) :
    (∃ s', Step.exec (deliverNalUnits p payload) s = (.ok (), s') ∧ s.Quiet s') ∨
      ∃ e, Step.exec (deliverNalUnits p payload) s = (.error e, s) := by
  simp only [deliverNalUnits, Step.exec_bind, Step.exec_get]
  cases hc : s.avcConfig with
  | none => exact .inl ⟨s, rfl, .refl s⟩
  | some c =>
    dsimp only
    cases readNalUnits c payload with
    | error e => exact .inr ⟨_, rfl⟩
    | ok units =>
      refine .inl ⟨_, rfl, ?_⟩
      exact Source.Quiet.trans (by simp [Source.Quiet]) (deliver_quiet _ _ _)

end Composition

section Reads

variable {f data : List UInt8} {o n e : Nat}

theorem read_within (f : List UInt8) (o n : Nat) :
    ((f.drop o).take n).length = 0 ∨ o + ((f.drop o).take n).length ≤ f.length := by
  simp only [List.length_take, List.length_drop]
  omega

theorem read_le (hdata : data = (f.drop o).take n) (hle : o ≤ f.length) :
    o + data.length ≤ f.length := by
  rw [hdata, List.length_take, List.length_drop]
  omega

theorem ReadStep.Fits.tagHeader_full (hfit : ReadStep.tagHeader.Fits f o n e)
    (hdata : data = (f.drop o).take n) (hlen : data.length = tagHeaderLength) :
    o = e ∧ ∃ h, readTagHeader data (o + tagHeaderLength).toUInt64 = .ok h ∧ tagAt f o = some h := by
  obtain ⟨rfl, hwhere⟩ := hfit
  have h11 : tagHeaderLength = 11 := rfl
  have hle : o + tagHeaderLength ≤ f.length := by
    have hw := read_within f o tagHeaderLength
    rw [← hdata, hlen] at hw
    simp only [tagHeaderLength] at hw ⊢
    omega
  obtain ⟨h, hr, -⟩ := readTagHeader_of_length hlen (o + tagHeaderLength).toUInt64
  refine ⟨by omega, h, hr, tagAt_of_read hle (hdata ▸ hr)⟩

theorem ReadStep.Fits.tagHeader_empty (hfit : ReadStep.tagHeader.Fits f o n e)
    (hdata : [] = (f.drop o).take n) : f.length ≤ o ∧ f.length < e + tagHeaderLength := by
  obtain ⟨rfl, hwhere⟩ := hfit
  have hlen := congrArg List.length hdata
  simp only [List.length_nil, List.length_take, List.length_drop, tagHeaderLength] at hlen
  rw [eq_comm, Nat.min_eq_zero_iff] at hlen
  have hpast : f.length ≤ o := by omega
  rcases hwhere with rfl | ⟨-, he⟩
  · exact ⟨hpast, by simp only [tagHeaderLength]; omega⟩
  · exact ⟨hpast, he⟩

end Reads

section Streaming

variable {f : List UInt8} {q o n e : Nat} {s : Source}

theorem issue_sound {step : ReadStep} (hi : Idle f q s) (hfit : step.Fits f q n e)
    (hscan : s.phase ≠ .opening → step.scanOnly = false) (hr : s.rewindPending = false)
    (hs : s.skipPrefix = true) (hph : s.phase = .opening ∨ s.phase = .started ∨ s.phase = .paused)
    (hc : OnChain f e) : Sound f e ((guarded (issueRead step none n)).run s).2 := by
  obtain ⟨st, hst, -, hpos⟩ := hi.stream
  rw [guarded_ok (issueRead_none hst _ _), hpos]
  exact .inr (hi.issued hfit hscan hr hs hph hc)

theorem Idle.resting_quiet (hi : Idle f q s) (hph : s.phase = .started ∨ s.phase = .paused)
    (hr : s.rewindPending = false) (hs : s.skipPrefix = true) {s' : Source} (hq : s.Quiet s')
    (he : q + previousTagSizeLength = e ∨
      f.length ≤ q + previousTagSizeLength ∧ f.length < e + tagHeaderLength) :
    Idle f q s' ∧ Resting f e s' :=
  ⟨hi.quiet hq,
    (hi.quiet hq).resting (hq.phase ▸ hph) (hq.rewindPending ▸ hr) (hq.skipPrefix ▸ hs) he⟩

theorem Idle.pump_quiet (hi : Idle f q s) (hph : s.phase = .started ∨ s.phase = .paused)
    (hr : s.rewindPending = false) (hs : s.skipPrefix = true) {s' : Source} (hq : s.Quiet s')
    (he : q + previousTagSizeLength = e ∨
      f.length ≤ q + previousTagSizeLength ∧ f.length < e + tagHeaderLength)
    (hc : OnChain f e) : Sound f e (pump.run s').2 :=
  have h := hi.resting_quiet hph hr hs hq he
  pump_idle h.1 h.2 hc

variable (hi : Idle f q s) (hph : s.phase = .started ∨ s.phase = .paused)
  (hr : s.rewindPending = false) (hs : s.skipPrefix = true) (hc : OnChain f e)
include hi hph hr hs hc

theorem streamTag_sound {h : TagHeader}
    (hk : h.isEndOfFile = false) (ht : tagAt f o = some h) (hq : q = o + tagHeaderLength)
    (he : e = nextTagOffset o h) :
    Sound f e ((guarded (streamTag h)).run s).2 := by
  have hpass := pass_sound hi hph hr hs (by rw [he, hq]; rfl) hc
  have hin : ∀ k : TrackKind, 0 < h.dataSize.toNat → Sound f e ((guarded
      (issueRead (if k = .audio then .audioHeader h else .videoHeader h) none 1)).run s).2 := by
    intro k hpos
    obtain ⟨st, hst, -, hpos'⟩ := hi.stream
    rw [guarded_ok (issueRead_none hst _ _), hpos']
    have hfit : ReadStep.Fits f q 1 e (if k = .audio then .audioHeader h else .videoHeader h) := by
      have hin : InTag f h 0 q 1 e := ⟨o, ht, by rw [hq]; rfl, by rw [hq]; exact tagAt_le ht, by omega, he⟩
      split <;> exact ⟨rfl, hin⟩
    exact .inr (hi.issued hfit (fun _ => by split <;> rfl) hr hs (.inr hph) hc)
  have hpass' := hpass
  rw [guarded_run] at hpass'
  simp only [streamTag, hk, Bool.false_eq_true, if_false]
  have hmedia : ∀ k : TrackKind, Sound f e ((guarded (do
      if h.dataSize > 0 && (← get).isActive k then
        issueRead (if k = .audio then .audioHeader h else .videoHeader h) none 1
      else
        skipBytes h.dataSize.toNat
        pump : Step Unit)).run s).2 := by
    intro k
    rw [guarded_run, Step.exec_bind, Step.exec_get]
    dsimp only
    by_cases hcond : (decide (h.dataSize > 0) && s.isActive k) = true
    · rw [if_pos hcond]
      have := hin k (by simp at hcond; exact hcond.1)
      rwa [guarded_run] at this
    · rw [if_neg hcond]
      exact hpass'
  cases hkind : h.kind
  all_goals simp only
  · exact hmedia .audio
  · exact hmedia .video
  · exact hpass
  · simp [TagHeader.isEndOfFile, hkind] at hk
  · exact hpass

theorem streamStep_audioHeader {tag : TagHeader} {data : List UInt8}
    (hfit : (ReadStep.audioHeader tag).Fits f o n e) (hdata : data = (f.drop o).take n)
    (hq : o ≤ f.length → q = o + data.length) :
    Sound f e ((guarded (streamStep (.audioHeader tag) data o)).run s).2 := by
  obtain ⟨rfl, h, ht, ho, hle, hds, he⟩ := hfit
  replace hq := hq hle
  simp only [streamStep]
  rw [guarded_ofFormat_bind]
  cases hp : readAudioHeader tag data with
  | error err => exact fail_sound hi.live.1 _
  | ok p =>
    obtain ⟨hlen, rfl, hsub⟩ := readAudioHeader_ok hp
    have hwithin := read_within f o 1
    rw [← hdata, hlen] at hwithin
    dsimp only
    split_ifs with haac
    · have hsub2 : p.subHeaderLength = 2 := by
        simp [AudioPacket.subHeaderLength, AudioPacket.subHeaderLengthOf, haac]
      exact issue_sound hi ⟨rfl, haac, h, ht, by omega, by omega, by omega, he⟩
        (fun _ => rfl) hr hs (.inr hph) hc
    · have hsub1 : p.subHeaderLength = 1 := by
        simp [AudioPacket.subHeaderLength, AudioPacket.subHeaderLengthOf, haac]
      exact issue_sound hi ⟨rfl, hsub, h, ht, by omega, by omega,
        by simp only [AudioPacket.payloadLength]; omega, he⟩ (fun _ => rfl) hr hs (.inr hph) hc

theorem streamStep_aacPacketType {p : AudioPacket} {data : List UInt8}
    (hfit : (ReadStep.aacPacketType p).Fits f o n e) (hdata : data = (f.drop o).take n)
    (hq : o ≤ f.length → q = o + data.length) :
    Sound f e ((guarded (streamStep (.aacPacketType p) data o)).run s).2 := by
  obtain ⟨rfl, haac, h, ht, ho, hle, hds, he⟩ := hfit
  replace hq := hq hle
  simp only [streamStep]
  rw [guarded_ofFormat_bind]
  cases hp : readAacPacketType p data with
  | error err => exact fail_sound hi.live.1 _
  | ok p' =>
    obtain ⟨hlen, t, rfl⟩ := readAacPacketType_ok hp
    have hwithin := read_within f o 1
    rw [← hdata, hlen] at hwithin
    have hsub : p.subHeaderLength = 2 := by
      simp [AudioPacket.subHeaderLength, AudioPacket.subHeaderLengthOf, haac]
    exact issue_sound hi ⟨rfl, by dsimp only [AudioPacket.subHeaderLength] at hsub ⊢; omega, h, ht,
      by dsimp only [AudioPacket.subHeaderLength] at hsub ⊢; omega, by omega,
      by dsimp only [AudioPacket.payloadLength, AudioPacket.subHeaderLength] at hsub ⊢; omega, he⟩
      (fun _ => rfl) hr hs (.inr hph) hc

theorem streamStep_audioPayload {p : AudioPacket} {data : List UInt8}
    (hfit : (ReadStep.audioPayload p).Fits f o n e) (hdata : data = (f.drop o).take n)
    (hq : o ≤ f.length → q = o + data.length) :
    Sound f e ((guarded (streamStep (.audioPayload p) data o)).run s).2 := by
  obtain ⟨rfl, hsub, h, ht, ho, hle, -, he⟩ := hfit
  replace hq := hq hle
  simp only [streamStep]
  rw [guarded_ofFormat_bind]
  cases hp : readPayload data p.payloadLength with
  | error err => exact fail_sound hi.live.1 _
  | ok x =>
    obtain ⟨hlen, rfl⟩ := readPayload_ok hp
    dsimp only
    rw [guarded_ok (by rw [Step.exec_bind, Step.exec_lift]; rfl)]
    have hd := deliver_quiet .audio { buffers := [x], timestampHns := p.tag.timestampHns } s
    refine hi.pump_quiet hph hr hs hd (.inl ?_) hc
    simp only [AudioPacket.payloadLength] at hlen
    simp only [nextTagOffset] at he
    omega

theorem streamStep_videoHeader {tag : TagHeader} {data : List UInt8}
    (hfit : (ReadStep.videoHeader tag).Fits f o n e) (hdata : data = (f.drop o).take n)
    (hq : o ≤ f.length → q = o + data.length) :
    Sound f e ((guarded (streamStep (.videoHeader tag) data o)).run s).2 := by
  obtain ⟨rfl, h, ht, ho, hle, hds, he⟩ := hfit
  replace hq := hq hle
  simp only [streamStep]
  rw [guarded_ofFormat_bind]
  cases hp : readVideoHeader tag data with
  | error err => exact fail_sound hi.live.1 _
  | ok p =>
    obtain ⟨hlen, rfl, hsub⟩ := readVideoHeader_ok hp
    have hwithin := read_within f o 1
    rw [← hdata, hlen] at hwithin
    dsimp only
    split_ifs with havc
    · have hsub5 : p.subHeaderLength = 5 := by
        simp [VideoPacket.subHeaderLength, VideoPacket.subHeaderLengthOf, havc]
      exact issue_sound hi ⟨rfl, havc, h, ht, by omega, by omega,
        by simp only [AvcPacketHeader.length]; omega, he⟩ (fun _ => rfl) hr hs (.inr hph) hc
    · have hsub1 : p.subHeaderLength = 1 := by
        simp [VideoPacket.subHeaderLength, VideoPacket.subHeaderLengthOf, havc]
      refine pass_sound hi hph hr hs ?_ hc
      simp only [VideoPacket.payloadLength, nextTagOffset] at he ⊢
      omega

theorem streamStep_avcPacketHeader {p : VideoPacket} {data : List UInt8}
    (hfit : (ReadStep.avcPacketHeader p).Fits f o n e) (hdata : data = (f.drop o).take n)
    (hq : o ≤ f.length → q = o + data.length) :
    Sound f e ((guarded (streamStep (.avcPacketHeader p) data o)).run s).2 := by
  obtain ⟨rfl, havc, h, ht, ho, hle, hds, he⟩ := hfit
  replace hq := hq hle
  simp only [streamStep]
  rw [guarded_ofFormat_bind]
  cases hp : readAvcPacketHeader p data with
  | error err => exact fail_sound hi.live.1 _
  | ok p' =>
    obtain ⟨hlen, a, rfl⟩ := readAvcPacketHeader_ok hp
    have hwithin := read_within f o AvcPacketHeader.length
    rw [← hdata, hlen] at hwithin
    have hsub5 : p.subHeaderLength = 5 := by
      simp [VideoPacket.subHeaderLength, VideoPacket.subHeaderLengthOf, havc]
    simp only [AvcPacketHeader.length] at hlen hwithin hds
    dsimp only
    split_ifs with hkind
    · exact issue_sound hi ⟨rfl, by dsimp only [VideoPacket.subHeaderLength] at hsub5 ⊢; omega, h, ht,
        by dsimp only [VideoPacket.subHeaderLength] at hsub5 ⊢; omega, by omega,
        by dsimp only [VideoPacket.payloadLength, VideoPacket.subHeaderLength] at hsub5 ⊢; omega, he⟩
        (fun _ => rfl) hr hs (.inr hph) hc
    · refine pass_sound hi hph hr hs ?_ hc
      dsimp only [VideoPacket.payloadLength, VideoPacket.subHeaderLength] at hsub5 ⊢
      simp only [nextTagOffset] at he
      omega

theorem streamStep_videoPayload {p : VideoPacket} {data : List UInt8}
    (hfit : (ReadStep.videoPayload p).Fits f o n e) (hdata : data = (f.drop o).take n)
    (hq : o ≤ f.length → q = o + data.length) :
    Sound f e ((guarded (streamStep (.videoPayload p) data o)).run s).2 := by
  obtain ⟨rfl, hsub, h, ht, ho, hle, -, he⟩ := hfit
  replace hq := hq hle
  simp only [streamStep]
  rw [guarded_ofFormat_bind]
  cases hp : readPayload data p.payloadLength with
  | error err => exact fail_sound hi.live.1 _
  | ok x =>
    obtain ⟨hlen, rfl⟩ := readPayload_ok hp
    dsimp only
    have hend : ∀ s', s.Quiet s' → Sound f e (pump.run s').2 := by
      intro s' hq'
      refine hi.pump_quiet hph hr hs hq' (.inl ?_) hc
      simp only [VideoPacket.payloadLength] at hlen
      simp only [nextTagOffset] at he
      omega
    have hlive : s.phase ≠ .shutdown := hi.live.1
    split_ifs
    · rcases replaceAvcConfig_cases x s with ⟨s', hx, hq'⟩ | ⟨err, hx⟩
      · rw [guarded_bind_pump hx]; exact hend s' hq'
      · rw [guarded_bind_pump_error hx]; exact fail_sound hlive _
    · rcases deliverNalUnits_cases p x s with ⟨s', hx, hq'⟩ | ⟨err, hx⟩
      · rw [guarded_bind_pump hx]; exact hend s' hq'
      · rw [guarded_bind_pump_error hx]; exact fail_sound hlive _

theorem streamStep_tagHeader_full {data : List UInt8} (hfit : ReadStep.tagHeader.Fits f o n e)
    (hdata : data = (f.drop o).take n) (hq : o ≤ f.length → q = o + data.length)
    (hlen : data.length = tagHeaderLength) :
    ∃ h, readTagHeader data (o + tagHeaderLength).toUInt64 = .ok h ∧ o = e ∧ tagAt f o = some h ∧
      Sound f (nextTagOffset o h) ((guarded (streamStep .tagHeader data o)).run s).2 := by
  obtain ⟨rfl, h, hread, ht⟩ := hfit.tagHeader_full hdata hlen
  replace hq := hq (by have := tagAt_le ht; omega)
  refine ⟨h, hread, rfl, ht, ?_⟩
  simp only [streamStep]
  rw [guarded_ofFormat_bind, hlen, hread]
  dsimp only
  cases hk : h.isEndOfFile
  · exact streamTag_sound hi hph hr hs (hc.next ht) hk ht (by omega) rfl
  · obtain ⟨s', hx, hq'⟩ := streamTag_endOfFile hk s
    rw [guarded_ok hx]
    have hds := dataSize_of_endOfFile (by simpa [TagHeader.isEndOfFile] using hk) hread
    have hrest : Idle f q s' ∧ Resting f (nextTagOffset o h) s' :=
      hi.resting_quiet hph hr hs hq' (.inl (by simp [nextTagOffset, hds, hq, hlen]))
    exact .inr (hrest.1.walking hrest.2 (hc.next ht))

theorem streamStep_tagHeader_short {data : List UInt8} (hfit : ReadStep.tagHeader.Fits f o n e)
    (hdata : data = (f.drop o).take n) (hq : o ≤ f.length → q = o + data.length)
    (hpast : f.length ≤ o → f.length ≤ q) (hlen : data.length ≠ tagHeaderLength) :
    Sound f e ((guarded (streamStep .tagHeader data o)).run s).2 := by
  simp only [streamStep]
  rw [guarded_ofFormat_bind]
  cases hp : readTagHeader data (o + data.length).toUInt64 with
  | error err => exact fail_sound hi.live.1 _
  | ok h =>
    obtain rfl := (readTagHeader_ok_length hp).resolve_right hlen
    obtain ⟨hend, he⟩ := hfit.tagHeader_empty hdata
    rw [readTagHeader_nil] at hp
    cases hp
    obtain ⟨s', hx, hq'⟩ := streamTag_endOfFile (TagHeader.isEndOfFile_endOfFile _) s
    dsimp only
    rw [guarded_ok hx]
    have hq : f.length ≤ q := by
      rcases Nat.le_total o f.length with hle | hle
      · have := hq hle
        simp only [List.length_nil] at this
        omega
      · exact hpast hle
    have hrest := hi.resting_quiet hph hr hs hq' (.inr ⟨by omega, he⟩)
    exact .inr (hrest.1.walking hrest.2 hc)

end Streaming

end FlvDemux.Engine
