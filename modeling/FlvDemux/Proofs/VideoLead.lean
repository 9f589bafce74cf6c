import FlvDemux.Proofs.VideoStretch

/-!
# The AVC configuration ahead of every stretch of video

`Source.Leads` keeps every stretch of video led by the configuration in force: `avcConfigSent` is
set exactly when the stretch has begun, the video track holds and reports nothing while not
selected, a video read is out only while it is selected, and no queued start deselects it. The
moves of the streaming keep it.
-/

namespace FlvDemux.Engine

open Flv

/-- What keeps every stretch of video led by the configuration in force: the stretch is led; the
flag says whether it has begun; a video track that is not selected holds nothing and, once the
demuxer is open, has reported nothing since the last new video stream or stop; a demuxer not open
yet has no video track; a stopped one has an empty stretch; an opening one has a stream; a read of
the session for video is out only while the video track is selected; no queued start deselects
it; and each track is of its slot's kind. -/
structure Source.Leads (s : Source) : Prop where
  first : ConfigFirst s.avcConfig s.videoStretch
  sent : s.isOpen = true → (s.avcConfigSent = true ↔ s.videoStretch ≠ [])
  idle : s.isActive .video = false → s.videoHeld = [] ∧ (s.isOpen = true → videoSince s.events = [])
  fresh : s.phase = .invalid ∨ s.phase = .opening → s.video = none ∧ videoSince s.events = []
  stopped : s.phase = .stopped → s.videoStretch = []
  opening : s.phase = .opening → s.stream.isSome
  reading : s.phase = .started ∨ s.phase = .paused → ∀ step, s.Awaits step → step.forVideo = true →
    s.isActive .video = true
  starts : ∀ sel pos, Task.start sel pos ∈ s.tasks → .video ∉ sel → s.isActive .video = false
  videoKind : ∀ t, s.video = some t → t.kind = .video
  audioKind : ∀ t, s.audio = some t → t.kind = .audio

namespace Source

variable {s s' : Source}

theorem isOpen_of_phase (h : s'.phase = s.phase) : s'.isOpen = s.isOpen := by
  simp [isOpen, h]

theorem videoHeld_none (h : s.video = none) : s.videoHeld = [] := by
  simp [videoHeld, h]

theorem isActive_video_none (h : s.video = none) : s.isActive .video = false := by
  simp [isActive, track, h]

end Source

namespace Source.Leads

variable {s s' : Source}

theorem aside (h : s.Leads) (ha : s.Aside s') : s'.Leads where
  first := by
    rw [ha.avcConfig, ha.stretch]
    exact h.first
  sent hopen := by
    rw [ha.sent, ha.stretch]
    exact h.sent (by rwa [← isOpen_of_phase ha.phase])
  idle hact := by
    obtain ⟨hheld, hsince⟩ := h.idle (ha.active ▸ hact)
    have hheld' : s'.videoHeld = [] := List.suffix_nil.1 (hheld ▸ ha.held)
    refine ⟨hheld', fun hopen => ?_⟩
    have hst := ha.stretch
    simp only [videoStretch, hheld, hheld', List.append_nil] at hst
    rw [hst]
    exact hsince (by rwa [← isOpen_of_phase ha.phase])
  fresh hph := by
    obtain ⟨hv, hsince⟩ := h.fresh (ha.phase ▸ hph)
    have hv' : s'.video = none := by
      simpa [hv] using ha.video
    refine ⟨hv', ?_⟩
    have hst := ha.stretch
    simp only [videoStretch, videoHeld_none hv, videoHeld_none hv', List.append_nil] at hst
    rw [hst, hsince]
  stopped hph := by
    rw [ha.stretch]
    exact h.stopped (ha.phase ▸ hph)
  opening hph := ha.stream (h.opening (ha.phase ▸ hph))
  reading hph step hw hv := by
    rw [ha.active]
    rcases ha.reading step hw hv with hw0 | hact
    · exact h.reading (ha.phase ▸ hph) step hw0 hv
    · exact hact
  starts sel pos hm hv := by
    rw [ha.active]
    exact h.starts sel pos (ha.starts sel pos hm) hv
  videoKind := ha.videoKind h.videoKind
  audioKind := ha.audioKind h.audioKind

end Source.Leads

section Failure

variable {s : Source}

theorem shutdownNow_avcConfig (h : s.phase ≠ .shutdown) : (shutdownNow.run s).2.avcConfig = none := by
  simp [shutdownNow, h]
  split <;> rfl

theorem tail_bare_videoSince (htail : ∀ y ∈ s.videoStretch.tail, y.Bare) :
    ∀ y ∈ (videoSince s.events).tail, y.Bare := by
  intro y hy
  apply htail
  unfold Source.videoStretch
  cases hv : videoSince s.events with
  | nil => simp [hv] at hy
  | cons x rest =>
    rw [hv, List.tail_cons] at hy
    simp [hy]

theorem shutdownNow_leads (hph : s.phase ≠ .shutdown) (htail : ∀ y ∈ s.videoStretch.tail, y.Bare)
    (hv : ∀ t, s.video = some t → t.kind = .video) (ha : ∀ t, s.audio = some t → t.kind = .audio) :
    (shutdownNow.run s).2.Leads := by
  have hvid : (shutdownNow.run s).2.video = s.video.map Track.shutdown := shutdownNow_track hph .video
  have haud : (shutdownNow.run s).2.audio = s.audio.map Track.shutdown := shutdownNow_track hph .audio
  have hphase := shutdownNow_phase s
  have hheld : (shutdownNow.run s).2.videoHeld = [] := by
    cases h : s.video <;> simp [Source.videoHeld, hvid, h]
  have hopen : (shutdownNow.run s).2.isOpen = false := by simp [Source.isOpen, hphase]
  have hact : (shutdownNow.run s).2.isActive .video = false := by
    cases h : s.video <;> simp [Source.isActive, Source.track, hvid, h]
  exact {
    first := by
      rw [shutdownNow_avcConfig hph, Source.videoStretch, hheld, List.append_nil, shutdownNow_events]
      exact ConfigFirst.of_none (tail_bare_videoSince htail)
    sent := fun h => by simp [hopen] at h
    idle := fun _ => ⟨hheld, fun h => by simp [hopen] at h⟩
    fresh := fun h => by simp [hphase] at h
    stopped := fun h => by simp [hphase] at h
    opening := fun h => by simp [hphase] at h
    reading := fun h => by simp [hphase] at h
    starts := fun _ _ _ _ => hact
    videoKind := fun t ht => by
      rw [hvid] at ht
      obtain ⟨t0, h0, rfl⟩ := Option.map_eq_some_iff.1 ht
      exact hv t0 h0
    audioKind := fun t ht => by
      rw [haud] at ht
      obtain ⟨t0, h0, rfl⟩ := Option.map_eq_some_iff.1 ht
      exact ha t0 h0 }

theorem fail_leads_of_live (hph : s.phase ≠ .shutdown) (htail : ∀ y ∈ s.videoStretch.tail, y.Bare)
    (hv : ∀ t, s.video = some t → t.kind = .video) (ha : ∀ t, s.audio = some t → t.kind = .audio)
    (e : SourceError) : ((fail e).run s).2.Leads := by
  rcases fail_run e s with ⟨x, hx, hrun⟩ | hrun <;> rw [hrun]
  · have hst : x.videoStretch = s.videoStretch := by
      simp [Source.videoStretch, Source.videoHeld, hx.events, hx.video]
    refine shutdownNow_leads (by rwa [hx.phase]) (by rwa [hst]) ?_ ?_
    · rw [hx.video]
      exact hv
    · rw [hx.audio]
      exact ha
  · exact shutdownNow_leads hph (by rwa [Source.videoStretch_emit (videoSilent_singleton rfl rfl)])
      hv ha

theorem Source.Leads.fail (h : s.Leads) (e : SourceError) : ((fail e).run s).2.Leads := by
  by_cases hph : s.phase = .shutdown
  · refine h.aside ?_
    simp only [Engine.fail, StateT.run_bind, StateT.run_get, bind_id_eq, pure_id_eq]
    split
    · simp only [StateT.run_bind, StateT.run_set, bind_id_eq]
      rw [shutdownNow_of_shutdown (by exact hph)]
      exact .of_eq rfl rfl rfl rfl rfl rfl rfl rfl rfl id
    · simp only [StateT.run_bind, emit_run, bind_id_eq]
      rw [shutdownNow_of_shutdown (by exact hph)]
      exact .emit (videoSilent_singleton rfl rfl)
  · exact fail_leads_of_live hph h.first.tail h.videoKind h.audioKind e

theorem guarded_leads {m : Step Unit} (h : s.Leads) (hm : s.Aside (Step.exec m s).2) :
    ((guarded m).run s).2.Leads := by
  rw [guarded_run]
  rcases hr : Step.exec m s with ⟨r, x⟩
  rw [hr] at hm
  cases r with
  | ok u => exact h.aside hm
  | error e => exact (h.aside hm).fail e

theorem pump_cases_aside (s : Source) :
    s.Aside (pump.run s).2 ∨ ∃ x e, s.Aside x ∧ (pump.run s).2 = ((fail e).run x).2 := by
  simp only [pump, StateT.run_bind, StateT.run_get, bind_id_eq, pure_id_eq]
  split
  · rw [guarded_run]
    have hx := readNextTag_aside s
    rcases hr : Step.exec readNextTag s with ⟨r, x⟩
    rw [hr] at hx
    cases r with
    | ok u => exact .inl hx
    | error e => exact .inr ⟨x, e, hx, rfl⟩
  · exact .inl (.refl s)

theorem Source.Leads.pump (h : s.Leads) : (pump.run s).2.Leads := by
  rcases pump_cases_aside s with hx | ⟨x, e, hx, hrun⟩
  · exact h.aside hx
  · rw [hrun]
    exact (h.aside hx).fail e

end Failure

section Streaming

variable {s : Source}

theorem guarded_then_pump_leads {m : Step Unit} (h : s.Leads) (hm : s.Aside (Step.exec m s).2) :
    ((guarded (m >>= fun _ => liftM pump)).run s).2.Leads := by
  rcases hr : Step.exec m s with ⟨r, x⟩
  rw [hr] at hm
  cases r with
  | ok u =>
    rw [guarded_bind_pump hr]
    exact (h.aside hm).pump
  | error e =>
    rw [guarded_bind_pump_error hr]
    exact (h.aside hm).fail e

/-- A NAL unit payload is dropped without a configuration, fails to frame, or becomes a video
sample for the video track, with the flag set: led by the configuration in force while the flag
is clear, bare once it is set. -/
theorem deliverNalUnits_shape (p : VideoPacket) (payload : List UInt8) (s : Source) :
    (∃ e, Step.exec (deliverNalUnits p payload) s = (.error e, s)) ∨
      Step.exec (deliverNalUnits p payload) s = (.ok (), s) ∨
      ∃ c x, s.avcConfig = some c ∧ (if s.avcConfigSent then x.Bare else x.LedBy c) ∧
        Step.exec (deliverNalUnits p payload) s =
          (.ok (), ((deliver .video x).run { s with avcConfigSent := true }).2) := by
  simp only [deliverNalUnits, Step.exec_bind, Step.exec_get]
  cases hc : s.avcConfig with
  | none => exact .inr (.inl rfl)
  | some c =>
    dsimp only
    cases readNalUnits c payload with
    | error e => exact .inl ⟨_, rfl⟩
    | ok units =>
      refine .inr (.inr ⟨c, _, rfl, ?_, rfl⟩)
      cases s.avcConfigSent <;> exact ⟨units, by simp⟩

theorem replaceAvcConfig_shape (payload : List UInt8) (s : Source) :
    (∃ e, Step.exec (replaceAvcConfig payload) s = (.error e, s)) ∨
      Step.exec (replaceAvcConfig payload) s = (.ok (), s) ∨
      ∃ c, s.avcConfig ≠ some c ∧ Step.exec (replaceAvcConfig payload) s =
        (.ok (), { s with avcConfig := some c, avcConfigSent := false }) := by
  simp only [replaceAvcConfig, Step.exec_bind, ofFormat_exec]
  cases readAvcConfig payload with
  | error e => exact .inl ⟨_, rfl⟩
  | ok c =>
    by_cases heq : s.avcConfig = some c
    · exact .inr (.inl (by simp [Except.mapError, heq]))
    · exact .inr (.inr ⟨c, heq, by simp [Except.mapError, heq]⟩)

theorem isOpen_of_streaming (hph : s.phase = .started ∨ s.phase = .paused) : s.isOpen = true := by
  rcases hph with hph | hph <;> simp [Source.isOpen, hph]

/-- The stretch grown by one sample while streaming, with the flag now set and all else that
leads it kept: the sample is led by the configuration while the stretch has not begun and bare
once it has. -/
theorem Source.Leads.extend (h : s.Leads) (hph : s.phase = .started ∨ s.phase = .paused)
    (hact0 : s.isActive .video = true) {c : Avc.Config} (hc : s.avcConfig = some c) {x : Sample}
    (hx : if s.avcConfigSent then x.Bare else x.LedBy c) {s' : Source}
    (hst : s'.videoStretch = s.videoStretch ++ [x]) (hcfg : s'.avcConfig = s.avcConfig)
    (hsent : s'.avcConfigSent = true) (hphase : s'.phase = s.phase)
    (hact : s'.isActive .video = true) (htasks : s'.tasks = s.tasks)
    (hvk : ∀ t, s'.video = some t → t.kind = .video) (haudio : s'.audio = s.audio) : s'.Leads where
  first := by
    rw [hst, hcfg, hc]
    have h0 := h.first
    rw [hc] at h0
    cases hflag : s.avcConfigSent
    · -- the flag is clear only while the stretch has not begun
      rw [hflag] at hx
      have hnil : s.videoStretch = [] := by
        by_contra hne
        exact absurd ((h.sent (isOpen_of_streaming hph)).2 hne) (by simp [hflag])
      rw [hnil]
      exact ⟨fun c' hc' => Option.some.inj hc' ▸ hx, by simp⟩
    · rw [hflag] at hx
      exact h0.concat_bare ((h.sent (isOpen_of_streaming hph)).1 hflag) hx
  sent _ := ⟨fun _ => by simp [hst], fun _ => hsent⟩
  idle h' := absurd hact (by simp [h'])
  fresh h' := by rcases hph with hp | hp <;> rcases h' with h' | h' <;> simp_all
  stopped h' := by rcases hph with hp | hp <;> simp_all
  opening h' := by rcases hph with hp | hp <;> simp_all
  reading _ _ _ _ := hact
  starts sel pos hm hvid := by
    rw [htasks] at hm
    exact absurd (h.starts sel pos hm hvid) (by simp [hact0])
  videoKind := hvk
  audioKind := haudio ▸ h.audioKind

theorem Source.Leads.assemble (h : s.Leads) (hph : s.phase = .started ∨ s.phase = .paused)
    (hact : s.isActive .video = true) {c : Avc.Config} (hc : s.avcConfig = some c) {x : Sample}
    (hx : if s.avcConfigSent then x.Bare else x.LedBy c) :
    ((deliver .video x).run { s with avcConfigSent := true }).2.Leads := by
  obtain ⟨t, hv, ht⟩ : ∃ t, s.video = some t ∧ t.active = true :=
    (Option.any_eq_true _ _).1 hact
  obtain ⟨hev, hkind, hactive⟩ := t.deliver_reports x
  rw [h.videoKind t hv] at hev
  simp only [deliver, StateT.run_bind, bind_id_eq]
  rw [onTrack_some (k := .video) (s := { s with avcConfigSent := true }) hv]
  refine Source.Leads.aside ?_ (onSignal_aside _ _)
  refine h.extend hph hact hc hx ?_ rfl rfl rfl ?_ rfl ?_ rfl
  · rw [Source.videoStretch_setVideo _ hev, List.append_assoc, Track.deliver_held t x ht]
    simp [Source.videoStretch, Source.videoHeld, hv]
  · simp [Source.isActive, Source.track, Source.setTrack, hactive, ht]
  · intro t' ht'
    simp only [Source.setTrack, Option.some.injEq] at ht'
    rw [← ht', hkind, h.videoKind t hv]

theorem changed_config_leads (h : s.Leads) (hph : s.phase = .started ∨ s.phase = .paused)
    {c : Avc.Config} (hne : s.avcConfig ≠ some c)
    (hc : (pump.run { s with avcConfig := some c, avcConfigSent := false }).2.isOpen = true →
      (pump.run { s with avcConfig := some c, avcConfigSent := false }).2.avcConfig = s.avcConfig) :
    (pump.run { s with avcConfig := some c, avcConfigSent := false }).2.Leads := by
  rcases pump_cases_aside { s with avcConfig := some c, avcConfigSent := false } with
    hx | ⟨x, e, hx, hrun⟩
  · exfalso
    have hopen : (pump.run { s with avcConfig := some c, avcConfigSent := false }).2.isOpen = true := by
      rw [Source.isOpen_of_phase hx.phase]
      exact isOpen_of_streaming hph
    exact hne ((hc hopen).symm.trans hx.avcConfig)
  · rw [hrun]
    refine fail_leads_of_live ?_ ?_ (hx.videoKind h.videoKind) (hx.audioKind h.audioKind) e
    · rw [hx.phase]
      rcases hph with hp | hp <;> simp [hp]
    · rw [hx.stretch]
      exact h.first.tail

theorem streamTag_leads (h : s.Leads) (tag : TagHeader) :
    ((guarded (streamTag tag)).run s).2.Leads := by
  cases hk : tag.isEndOfFile
  · simp only [streamTag, hk, Bool.false_eq_true, if_false]
    split
    · rename_i k _
      rw [guarded_get_bind]
      split
      · rename_i hgo
        refine guarded_leads h (issueRead_aside (fun hv => ?_) _ _)
        cases k with
        | video =>
          simp only [Bool.and_eq_true] at hgo
          exact hgo.2
        | audio => simp [ReadStep.forVideo] at hv
      · exact guarded_then_pump_leads h (Step.Within.skipAside _ s)
    · exact guarded_then_pump_leads h (Step.Within.skipAside _ s)
  · rw [guarded_ok (streamTag_endOfFile_exec hk s)]
    have h1 := h.aside (endTrack_aside .video fun t ht => h.videoKind t ht)
    exact h1.aside (endTrack_aside .audio fun t ht => h1.audioKind t ht)

theorem streamStep_leads (h : s.Leads) (hph : s.phase = .started ∨ s.phase = .paused)
    {step : ReadStep} (hvid : step.forVideo = true → s.isActive .video = true) (data : List UInt8)
    (o : Nat) (hc : ((guarded (streamStep step data o)).run s).2.isOpen = true →
      ((guarded (streamStep step data o)).run s).2.avcConfig = s.avcConfig) :
    ((guarded (streamStep step data o)).run s).2.Leads := by
  revert hc
  cases step with
  | fileHeader => exact fun _ => guarded_leads h (.refl s)
  | scriptPayload tag => exact fun _ => guarded_leads h (.refl s)
  | tagHeader =>
    simp only [streamStep]
    rw [guarded_ofFormat_bind]
    cases readTagHeader data (o + data.length).toUInt64 with
    | error e => exact fun _ => h.fail _
    | ok tag => exact fun _ => streamTag_leads h tag
  | audioHeader tag =>
    simp only [streamStep]
    rw [guarded_ofFormat_bind]
    cases readAudioHeader tag data with
    | error e => exact fun _ => h.fail _
    | ok p =>
      dsimp only
      split <;> exact fun _ => guarded_leads h (issueRead_aside (by simp [ReadStep.forVideo]) _ _)
  | aacPacketType p =>
    simp only [streamStep]
    rw [guarded_ofFormat_bind]
    cases readAacPacketType p data with
    | error e => exact fun _ => h.fail _
    | ok p => exact fun _ => guarded_leads h (issueRead_aside (by simp [ReadStep.forVideo]) _ _)
  | audioPayload p =>
    simp only [streamStep]
    rw [guarded_ofFormat_bind]
    cases readPayload data p.payloadLength with
    | error e => exact fun _ => h.fail _
    | ok payload =>
      dsimp only
      intro _
      rw [guarded_ok (by rw [Step.exec_bind, Step.exec_lift]; rfl)]
      exact (h.aside (deliver_audio_aside h.audioKind _)).pump
  | videoHeader tag =>
    simp only [streamStep]
    rw [guarded_ofFormat_bind]
    cases readVideoHeader tag data with
    | error e => exact fun _ => h.fail _
    | ok p =>
      dsimp only
      split
      · exact fun _ => guarded_leads h (issueRead_aside (fun _ => hvid rfl) _ _)
      · exact fun _ => guarded_then_pump_leads h (Step.Within.skipAside _ s)
  | avcPacketHeader p =>
    simp only [streamStep]
    rw [guarded_ofFormat_bind]
    cases readAvcPacketHeader p data with
    | error e => exact fun _ => h.fail _
    | ok p' =>
      dsimp only
      split
      · exact fun _ => guarded_leads h (issueRead_aside (fun _ => hvid rfl) _ _)
      · exact fun _ => guarded_then_pump_leads h (Step.Within.skipAside _ s)
  | videoPayload p =>
    simp only [streamStep]
    rw [guarded_ofFormat_bind]
    cases readPayload data p.payloadLength with
    | error e => exact fun _ => h.fail _
    | ok payload =>
      dsimp only
      split
      · rcases replaceAvcConfig_shape payload s with ⟨e, he⟩ | he | ⟨c, hne, he⟩
        · rw [guarded_bind_pump_error he]
          exact fun _ => h.fail e
        · rw [guarded_bind_pump he]
          exact fun _ => h.pump
        · rw [guarded_bind_pump he]
          exact changed_config_leads h hph hne
      · rcases deliverNalUnits_shape p payload s with ⟨e, he⟩ | he | ⟨c, x, hcfg, hx, he⟩
        · rw [guarded_bind_pump_error he]
          exact fun _ => h.fail e
        · rw [guarded_bind_pump he]
          exact fun _ => h.pump
        · rw [guarded_bind_pump he]
          exact fun _ => (h.assemble hph (hvid rfl) hcfg hx).pump

end Streaming

end FlvDemux.Engine
