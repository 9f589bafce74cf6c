import FlvDemux.Proofs.VideoLead
import FlvDemux.Proofs.Sessions

/-!
# Every run keeps the configuration ahead of the video

`Source.Leads` is taken through every action, over the runs that neither deselect the selected
video track nor change the configuration in force while open (`Source.keepsVideo`). A deselection
does break the law: the first picture after the track is selected again goes out without the
configuration (`config_lost_on_reselect`).
-/

namespace FlvDemux.Engine

open Flv

namespace Source

variable {s : Source}

theorem phase_of_isOpen (h : s.isOpen = true) :
    s.phase = .stopped ∨ s.phase = .started ∨ s.phase = .paused := by
  simpa [isOpen, or_assoc] using h

end Source

namespace Source.Leads

variable {s : Source}

theorem of_unopened (hph : s.phase = .invalid ∨ s.phase = .opening) (hv : s.video = none)
    (he : videoSince s.events = []) (hst : s.phase = .opening → s.stream.isSome)
    (ha : ∀ t, s.audio = some t → t.kind = .audio) : s.Leads := by
  have hclosed : s.isOpen = false := by rcases hph with h | h <;> simp [Source.isOpen, h]
  have hstretch : s.videoStretch = [] := by simp [Source.videoStretch, Source.videoHeld_none hv, he]
  exact {
    first := by rw [hstretch]; trivial
    sent := fun h => absurd h (by simp [hclosed])
    idle := fun _ => ⟨Source.videoHeld_none hv, fun h => absurd h (by simp [hclosed])⟩
    fresh := fun _ => ⟨hv, he⟩
    stopped := fun h => by rcases hph with h' | h' <;> simp [h'] at h
    opening := hst
    reading := fun h => by rcases hph with h' | h' <;> rcases h with h | h <;> simp [h'] at h
    starts := fun _ _ _ _ => Source.isActive_video_none hv
    videoKind := fun _ h => by simp [hv] at h
    audioKind := ha }

theorem of_empty (hopen : s.isOpen = true) (hst : s.videoStretch = [])
    (hsent : s.avcConfigSent = false)
    (hread : s.phase = .started ∨ s.phase = .paused → ∀ step, s.Awaits step →
      step.forVideo = true → s.isActive .video = true)
    (hstarts : ∀ sel pos, Task.start sel pos ∈ s.tasks → .video ∉ sel → s.isActive .video = false)
    (hv : ∀ t, s.video = some t → t.kind = .video) (ha : ∀ t, s.audio = some t → t.kind = .audio) :
    s.Leads := by
  have hparts : videoSince s.events = [] ∧ s.videoHeld = [] :=
    List.append_eq_nil_iff.1 (by rw [← hst]; rfl)
  exact {
    first := by rw [hst]; trivial
    sent := fun _ => by simp [hst, hsent]
    idle := fun _ => ⟨hparts.2, fun _ => hparts.1⟩
    fresh := fun h => by rcases h with h | h <;> simp [Source.isOpen, h] at hopen
    stopped := fun _ => hst
    opening := fun h => by simp [Source.isOpen, h] at hopen
    reading := hread
    starts := hstarts
    videoKind := hv
    audioKind := ha }

theorem withPhase (h : s.Leads) (hopen : s.isOpen = true) {ph : Phase}
    (hph : ph = .started ∨ ph = .paused) (hread : s.phase = .stopped → ∀ step, ¬s.Awaits step) :
    ({ s with phase := ph } : Source).Leads where
  first := h.first
  sent _ := h.sent hopen
  idle hact := ⟨(h.idle hact).1, fun _ => (h.idle hact).2 hopen⟩
  fresh hf := by rcases hph with rfl | rfl <;> rcases hf with hf | hf <;> cases hf
  stopped hf := by rcases hph with rfl | rfl <;> cases hf
  opening hf := by rcases hph with rfl | rfl <;> cases hf
  reading _ step hw hv := by
    rcases Source.phase_of_isOpen hopen with hs | hs | hs
    · exact absurd hw (hread hs step)
    · exact h.reading (.inl hs) step hw hv
    · exact h.reading (.inr hs) step hw hv
  starts := h.starts
  videoKind := h.videoKind
  audioKind := h.audioKind

theorem enqueue (h : s.Leads) {c : Task} (hc : c.isRead = false)
    (hstart : ∀ sel pos, c = .start sel pos → .video ∉ sel → s.isActive .video = false) :
    ({ s with pendingOp := true, tasks := s.tasks ++ [c] } : Source).Leads where
  first := h.first
  sent := h.sent
  idle := h.idle
  fresh := h.fresh
  stopped := h.stopped
  opening := h.opening
  reading hph step hw hv := by
    obtain ⟨⟨t, o, n, hm, hcur⟩, hp⟩ := hw
    have hold : Task.read t o n ∈ s.tasks := by
      rcases List.mem_append.1 hm with hm | hm
      · exact hm
      · rw [← List.mem_singleton.1 hm] at hc
        cases hc
    exact h.reading hph step ⟨⟨t, o, n, hold, hcur⟩, hp⟩ hv
  starts sel pos hm hv := by
    rcases List.mem_append.1 hm with hm | hm
    · exact h.starts sel pos hm hv
    · exact hstart sel pos (List.mem_singleton.1 hm).symm hv
  videoKind := h.videoKind
  audioKind := h.audioKind

theorem shutdown (h : s.Leads) : (shutdownNow.run s).2.Leads := by
  by_cases hph : s.phase = .shutdown
  · rw [shutdownNow_of_shutdown hph]
    exact h
  · exact shutdownNow_leads hph h.first.tail h.videoKind h.audioKind

end Source.Leads

section Scan

variable {s x y : Source}

theorem Source.Leads.rests (h : s.Leads) (hph : s.phase = .opening) (hx : s.Rests x) : x.Leads := by
  obtain ⟨hv, he⟩ := h.fresh (.inr hph)
  have hph' : x.phase = .opening := hx.still.phase.trans hph
  refine .of_unopened (.inr hph') (hx.still.video.trans hv) (by rw [hx.still.events]; exact he)
    (fun _ => hx.still.stream (h.opening hph)) ?_
  rw [hx.still.audio]
  exact h.audioKind

theorem finishOpen_sent (hst : x.stream.isSome) (h : Step.exec finishOpen x = (.ok (), y)) :
    y.avcConfigSent = false := by
  obtain ⟨st, hs⟩ := Option.isSome_iff_exists.1 hst
  simp only [finishOpen, Step.exec_bind, Step.exec_get] at h
  by_cases hempty : x.survey.descriptors.isEmpty = true
  · simp only [if_pos hempty] at h
    cases h
  simp only [if_neg hempty] at h
  by_cases hmeta : (x.config.requireMetadata && x.survey.metadata.isNone) = true
  · simp only [if_pos hmeta] at h
    cases h
  simp only [if_neg hmeta] at h
  obtain ⟨v, a, hfold⟩ := Source.foldl_setTrack_eq (fun d : StreamDescriptor => d.kind)
    (fun d => Track.new d.kind (SourceConfig.clampDepth x.config.queueDepth)) x.survey.descriptors x
  simp only [hfold, Step.exec_bind, Step.exec_set, seekStream_exec, hs, ByteStream.seek_start,
    Step.exec_modify, Prod.mk.injEq] at h
  rw [← h.2]
  split <;> rfl

theorem Source.Leads.opened (h : x.Leads) (hph : x.phase = .opening) (hy : x.Opened y)
    (hsent : y.avcConfigSent = false) : y.Leads := by
  obtain ⟨hv, he⟩ := h.fresh (.inr hph)
  have hvid : y.video = none ∨
      y.video = some (Track.new .video (SourceConfig.clampDepth x.config.queueDepth)) := by
    rcases hy.tracks .video with h' | h'
    · exact .inr h'
    · exact .inl (h'.trans hv)
  have hheld : y.videoHeld = [] := by
    rcases hvid with h' | h' <;> simp [Source.videoHeld, h', Track.held, Track.new]
  refine .of_empty (by simp [Source.isOpen, hy.phase])
    (by simp [Source.videoStretch, hheld, hy.events, he]) hsent
    (fun hp => by rcases hp with hp | hp <;> simp [hy.phase] at hp) (fun _ _ _ _ => ?_)
    (fun t ht => ?_) (fun t ht => ?_)
  · rcases hvid with h' | h' <;> simp [Source.isActive, Source.track, h', Track.new]
  · rcases hvid with h' | h' <;> rw [h'] at ht <;> cases ht
    rfl
  · rcases hy.tracks .audio with h' | h'
    · rw [show y.audio = _ from h'] at ht
      cases ht
      rfl
    · exact h.audioKind t (h'.symm.trans ht)

theorem guarded_scan_leads {m : Step Unit} (hm : Step.Opens m) (h : s.Leads)
    (hph : s.phase = .opening) : ((guarded m).run s).2.Leads := by
  rw [guarded_run]
  rcases hm s with hr | ⟨x, hx, he⟩
  · rcases hres : Step.exec m s with ⟨r, x⟩
    rw [hres] at hr
    cases r with
    | ok u => exact h.rests hph hr
    | error e => exact (h.rests hph hr).fail e
  · have hx' := h.rests hph hx
    have hphx : x.phase = .opening := hx.still.phase.trans hph
    rw [he]
    rcases finishOpen_cases (hx'.opening hphx) with ⟨e, he'⟩ | ⟨y, hy, hopen⟩
    · rw [he']
      exact hx'.fail e
    · rw [hy]
      exact hx'.opened hphx hopen (finishOpen_sent (hx'.opening hphx) hy)

end Scan

section Reads

variable {s : Source} {t : UInt64} {o n : Nat} {rest : List Task}

theorem Source.Aside.complete {c : Task} (ht : (c :: rest).Perm s.tasks) (st : Option ByteStream)
    (hst : s.stream.isSome → st.isSome) :
    s.Aside { s with tasks := rest, stream := st, readInFlight := false, pending := none } where
  stretch := rfl
  held := List.suffix_refl _
  avcConfig := rfl
  sent := rfl
  active := rfl
  phase := rfl
  stream := hst
  reading _ hw _ := by cases hw.2
  starts _ _ hm := ht.subset (List.mem_cons_of_mem _ hm)
  video := rfl
  audio := rfl

theorem Source.Leads.stale (h : s.Leads) (ht : (.read t o n :: rest).Perm s.tasks)
    (hst : s.session.isCurrent t = false) :
    ((runTask (.read t o n)).run { s with tasks := rest }).2.Leads := by
  rw [runTask_stale hst]
  exact (h.aside (Source.Aside.complete ht _ (by simp))).pump

/-- A read of the session completes: a fault fails the demuxer, and its bytes go to the scan or
to the streaming, or are dropped by a stopped demuxer. The streaming keeps the configuration
when the run does. -/
theorem Source.Leads.complete (hb : s.Booked) (h : s.Leads) (ht : (.read t o n :: rest).Perm s.tasks)
    (hcur : s.session.isCurrent t = true)
    (hc : s.isOpen = true → ((runTask (.read t o n)).run { s with tasks := rest }).2.isOpen = true →
      ((runTask (.read t o n)).run { s with tasks := rest }).2.avcConfig = s.avcConfig) :
    ((runTask (.read t o n)).run { s with tasks := rest }).2.Leads := by
  have hm : Task.read t o n ∈ s.tasks := ht.subset List.mem_cons_self
  have hlive : s.phase ≠ .shutdown := fun h => by rw [hb.isCurrent_of_shutdown h] at hcur; cases hcur
  obtain ⟨step, hp, -⟩ := hb.awaits (hb.reading hm) hlive
  obtain ⟨r, hrun⟩ := runTask_read t o n { s with tasks := rest }
  rw [hrun] at hc ⊢
  have hx := h.aside (Source.Aside.complete ht (s.stream.map fun st => (st.perform (.read n)).2)
    (by simp))
  have hw : s.Awaits step := ⟨⟨t, o, n, hm, hcur⟩, hp⟩
  cases r with
  | error f =>
    rw [resume_error (by exact hcur) (by exact hp)]
    exact hx.fail _
  | ok data =>
    rcases hb.current_phase hm hcur with hph | hplay | hph
    · rw [resume_scan (by exact hcur) (by exact hp) (by exact hph)]
      exact guarded_scan_leads (Step.Opens.scanStep step data o) hx hph
    · rw [resume_stream (by exact hcur) (by exact hp) (by exact hplay)] at hc ⊢
      exact streamStep_leads hx hplay (fun hv => h.reading hplay step hw hv) data o
        (hc (isOpen_of_streaming hplay))
    · rw [resume_stopped (by exact hcur) (by exact hp) (by exact hph)]
      exact hx

end Reads

namespace Track

variable (t : Track)

theorem start_reports (pos : StartPosition) :
    OfKind t.kind (t.start pos).2.1 ∧ (t.start pos).1.kind = t.kind ∧
      (t.start pos).1.active = t.active ∧
      (served (t.start pos).2.1).map Prod.fst ++ (t.start pos).1.held = (t.started pos).held := by
  refine ⟨start_ofKind t pos, ?_, ?_, ?_⟩
  · rw [start_eq, dispatch_kind]
    cases pos <;> rfl
  · rw [start_eq, dispatch_active]
    cases pos <;> rfl
  · rw [start_eq]
    simpa using dispatch_held (t.started pos)

theorem activate_of_eq {on : Bool} (h : t.active = on) : t.activate on = t := by
  simp [activate, h]

@[simp] theorem activate_kind (on : Bool) : (t.activate on).kind = t.kind := by
  unfold activate
  split_ifs <;> rfl

theorem pause_silent : VideoSilent t.pause.2 := by
  unfold pause
  split
  · exact videoSilent_singleton rfl rfl
  · exact fun _ h => absurd h List.not_mem_nil

end Track

section Starts

variable {s x : Source} {sel : List TrackKind} {pos : StartPosition}

theorem Source.Aside.setAudio {t u : Track} (ht : s.audio = some t) (hu : u.kind = t.kind) :
    s.Aside (s.setTrack .audio u) where
  stretch := rfl
  held := List.suffix_refl _
  avcConfig := rfl
  sent := rfl
  active := rfl
  phase := rfl
  stream := id
  reading _ hw _ := .inl hw
  starts _ _ hm := hm
  video := rfl
  audio := by simp [Source.setTrack, ht, hu]

theorem Source.Aside.startAudio {e : Event} (hx : s.Aside x) (hev : VideoSilent [e])
    (hk : ∀ t, s.audio = some t → t.kind = .audio) :
    s.Aside ((onTrack .audio (·.start pos)).run ((Engine.emit [e]).run x).2).2 := by
  have hx' := hx.trans (.emit hev)
  rw [emit_run]
  exact hx'.trans (onTrack_audio_aside (fun u => ⟨u.start_ofKind pos, (u.start_reports pos).2.1⟩)
    (hx'.audioKind hk))

theorem Source.Aside.startVideo {t : Track} {e : Event} (hx : s.Aside x) (hev : VideoSilent [e])
    (hv : x.video = some t) (hk : t.kind = .video) (hheld : (t.started pos).held = t.held) :
    s.Aside ((onTrack .video (·.start pos)).run ((Engine.emit [e]).run x).2).2 := by
  rw [emit_run]
  refine (hx.trans (.emit hev)).trans (onTrack_aside (fun u hu => ?_) (fun u hu => ?_))
  · cases hv.symm.trans hu
    obtain ⟨hev', hkind, hact, hheld'⟩ := t.start_reports pos
    exact ⟨hev', hkind, hact, hheld'.trans hheld⟩
  · cases hv.symm.trans hu
    exact hk

theorem newVideo_leads {u : Track} (hv : x.video = some u) (hu : u.kind = .video)
    (hact : u.active = true) (hheld : u.held = []) (hopen : x.isOpen = true)
    (hsent : x.avcConfigSent = false) (hnone : ∀ sel pos, Task.start sel pos ∉ x.tasks)
    (ha : ∀ t, x.audio = some t → t.kind = .audio) :
    ((onTrack .video (·.start pos)).run ((emit [.newStream .video]).run x).2).2.Leads := by
  rw [emit_run, onTrack_some (k := .video) (s := { x with events := x.events ++ [.newStream .video] }) hv]
  dsimp only
  obtain ⟨hev, hkind, hact', hheld'⟩ := u.start_reports pos
  rw [hu] at hev
  have hstarted : (u.started pos).held = [] := by
    cases pos
    · exact hheld
    · rfl
  refine .of_empty hopen ?_ hsent (fun _ _ _ _ => ?_) (fun sel pos hm => absurd hm (hnone sel pos))
    (fun t ht => ?_) ha
  · rw [Source.videoStretch_setVideo _ hev, List.append_assoc, hheld', hstarted,
      videoSince_append_opens (L := x.events) (M := []) rfl Steady.nil]
    rfl
  · simp [Source.isActive, Source.track, Source.setTrack, hact', hact]
  · simp only [Source.setTrack, Option.some.injEq] at ht
    rw [← ht, hkind, hu]

theorem startTrack_audio_aside (hk : ∀ t, s.audio = some t → t.kind = .audio) :
    s.Aside ((startTrack sel pos .audio).run s).2 := by
  simp only [startTrack, StateT.run_bind, StateT.run_get, bind_id_eq, pure_id_eq]
  cases ht : s.track .audio with
  | none => exact .refl s
  | some t =>
    have hset : s.Aside (s.setTrack .audio (t.activate (sel.contains .audio))) :=
      .setAudio ht (Track.activate_kind t _)
    dsimp only
    split
    · simp only [StateT.run_bind, bind_id_eq, StateT.run_set, StateT.run_pure, pure_id_eq]
      rw [if_neg (by simp)]
      exact hset
    · simp only [StateT.run_bind, bind_id_eq, StateT.run_set, StateT.run_map, map_id_eq, pure_id_eq]
      have hcount : s.Aside { s.setTrack .audio (t.activate (sel.contains .audio)) with
          pendingEos := (s.setTrack .audio (t.activate (sel.contains .audio))).pendingEos + 1 } :=
        hset.trans (.of_eq rfl rfl rfl rfl rfl rfl rfl rfl rfl id)
      split <;> split
      · exact hset.startAudio (videoSilent_singleton rfl rfl) hk
      · exact hcount.startAudio (videoSilent_singleton rfl rfl) hk
      · exact hset.startAudio (videoSilent_singleton rfl rfl) hk
      · exact hcount.startAudio (videoSilent_singleton rfl rfl) hk

theorem startTrack_video_leads (h : s.Leads) (hopen : s.isOpen = true)
    (hnone : ∀ sel pos, Task.start sel pos ∉ s.tasks)
    (hsel : .video ∉ sel → s.isActive .video = false) (hat : pos = .current ∨ s.phase = .stopped) :
    ((startTrack sel pos .video).run s).2.Leads := by
  simp only [startTrack, StateT.run_bind, StateT.run_get, bind_id_eq, pure_id_eq]
  cases ht : s.track .video with
  | none => exact h
  | some t =>
    have hv : s.video = some t := ht
    have hk : t.kind = .video := h.videoKind t hv
    dsimp only
    split
    · rename_i hnot
      have hoff : t.active = false := by
        simpa [Source.isActive, Source.track, hv] using hsel (by simpa using hnot)
      simp only [StateT.run_bind, bind_id_eq, StateT.run_set, StateT.run_pure, pure_id_eq]
      rw [if_neg (by simp [hoff]), Track.activate_of_eq t (by simpa [hoff] using hnot),
        Source.setTrack_self ht]
      exact h
    · rename_i hon
      simp only [Bool.not_eq_true', Bool.not_eq_false] at hon
      simp only [StateT.run_bind, bind_id_eq, StateT.run_set, StateT.run_map, map_id_eq, pure_id_eq,
        hon]
      cases hact : t.active
      · obtain ⟨hheld, hsince⟩ := h.idle (by simp [Source.isActive, Source.track, hv, hact])
        have hnil : s.videoStretch = [] := by simp [Source.videoStretch, hheld, hsince hopen]
        have hsent : s.avcConfigSent = false := by
          cases hf : s.avcConfigSent
          · rfl
          · exact absurd hnil ((h.sent hopen).1 hf)
        have htheld : t.held = [] := by simpa [Source.videoHeld, hv] using hheld
        have hu : t.activate true = { t with active := true } := by simp [Track.activate, hact]
        simp only [hu, Bool.false_eq_true, if_false]
        split
        all_goals
          refine newVideo_leads rfl hk rfl htheld ?_ hsent hnone ?_
          all_goals first
            | simpa [Source.isOpen] using hopen
            | simpa [Source.setTrack] using h.audioKind
      · have hheld : (t.started pos).held = t.held := by
          rcases hat with rfl | hstop
          · rfl
          · have hnil := h.stopped hstop
            simp only [Source.videoStretch, List.append_eq_nil_iff] at hnil
            cases pos
            · rfl
            · simpa [Source.videoHeld, hv, Track.started, Track.held] using hnil.2.symm
        rw [Track.activate_of_eq t hact, Source.setTrack_self ht]
        simp only [if_true]
        split
        · exact h.aside ((Source.Aside.refl s).startVideo (videoSilent_singleton rfl rfl) hv hk hheld)
        · have hcount : s.Aside { s with pendingEos := s.pendingEos + 1 } :=
            .of_eq rfl rfl rfl rfl rfl rfl rfl rfl rfl id
          exact h.aside (hcount.startVideo (videoSilent_singleton rfl rfl) hv hk hheld)

theorem forM_onSignal_aside (sigs : List Signal) (s : Source) :
    s.Aside ((sigs.forM onSignal).run s).2 := by
  induction sigs generalizing s with
  | nil => exact .refl s
  | cons sig sigs ih =>
    have hrun : ((sig :: sigs).forM onSignal).run s =
        (sigs.forM onSignal).run ((onSignal sig).run s).2 := rfl
    rw [hrun]
    exact (onSignal_aside sig s).trans (ih _)

theorem filterMapM_run_cons {α β : Type} (f : α → StateM Source (Option β)) (a : α) (as : List α)
    (s : Source) : (((a :: as).filterMapM f).run s).2 = ((as.filterMapM f).run ((f a).run s).2).2 := by
  rw [List.filterMapM_cons]
  simp only [StateT.run_bind, bind_id_eq]
  split <;> simp

theorem filterMapM_startTrack (s : Source) :
    ((TrackKind.all.filterMapM (startTrack sel pos)).run s).2 =
      ((startTrack sel pos .audio).run ((startTrack sel pos .video).run s).2).2 := by
  rw [TrackKind.all, filterMapM_run_cons, filterMapM_run_cons]
  rfl

theorem Source.Quiet.awaits {y : Source} {step : ReadStep} (hq : s.Quiet y) (hw : y.Awaits step) :
    s.Awaits step := by
  unfold Source.Awaits at hw ⊢
  rwa [hq.tasks, hq.session, hq.pending] at hw

theorem runStart_leads (h : s.Leads) (hopen : s.isOpen = true)
    (hnone : ∀ sel pos, Task.start sel pos ∉ s.tasks)
    (hsel : .video ∉ sel → s.isActive .video = false) (hat : pos = .current ∨ s.phase = .stopped)
    (hread : s.phase = .stopped → ∀ step, ¬s.Awaits step) :
    ((runStart sel pos).run s).2.Leads := by
  have hlive : s.phase ≠ .shutdown := by
    rcases Source.phase_of_isOpen hopen with h | h | h <;> simp [h]
  simp only [runStart, StateT.run_bind, StateT.run_modify, StateT.run_get, bind_id_eq, pure_id_eq]
  rw [if_pos hlive]
  simp only [StateT.run_bind, StateT.run_modify, bind_id_eq, emit_run]
  set x : Source := { s with pendingOp := false, pendingEos := 0, eopSent := false } with hx
  have hx0 : x.Leads := h.aside (.of_eq rfl rfl rfl rfl rfl rfl rfl rfl rfl id)
  have hv : ((startTrack sel pos .video).run x).2.Leads :=
    startTrack_video_leads hx0 hopen hnone hsel hat
  have hqv := startTrack_quiet sel pos .video x
  have hy : ((startTrack sel pos .audio).run ((startTrack sel pos .video).run x).2).2.Leads :=
    hv.aside (startTrack_audio_aside hv.audioKind)
  have hqy := hqv.trans (startTrack_quiet sel pos .audio _)
  rw [filterMapM_startTrack]
  have hz := hy.withPhase (by rw [Source.isOpen_of_phase hqy.phase]; exact hopen) (.inl rfl)
    (fun hs step hw => hread (hqy.phase ▸ hs) step (hqy.awaits hw))
  exact ((hz.aside (.emit (videoSilent_singleton rfl rfl))).aside (forM_onSignal_aside _ _)).pump

end Starts

section Controls

variable {s : Source}

theorem videoSilent_getD {o : Option Track} {f : Track → List Event} (hf : ∀ t, VideoSilent (f t)) :
    VideoSilent ((o.map f).getD []) := by
  cases o with
  | none => exact fun _ h => absurd h List.not_mem_nil
  | some t => exact hf t

theorem runPause_leads (h : s.Leads) (hph : s.phase = .started) : (runPause.run s).2.Leads := by
  rw [runPause_moves hph]
  have hM : VideoSilent (((s.video.map fun t => t.pause.2).getD [] ++
      (s.audio.map fun t => t.pause.2).getD []) ++ [.sourcePaused]) :=
    ((videoSilent_getD Track.pause_silent).append (videoSilent_getD Track.pause_silent)).append
      (videoSilent_singleton rfl rfl)
  have hx : s.Aside { s with
      pendingOp := false
      video := s.video.map (fun t => t.pause.1)
      audio := s.audio.map (fun t => t.pause.1)
      events := s.events ++ (((s.video.map fun t => t.pause.2).getD [] ++
        (s.audio.map fun t => t.pause.2).getD []) ++ [.sourcePaused]) } := {
    stretch := by
      rw [Source.videoStretch, hM.videoSince]
      cases hv : s.video <;> simp [Source.videoStretch, Source.videoHeld, hv]
    held := by cases hv : s.video <;> simp [Source.videoHeld, hv]
    avcConfig := rfl
    sent := rfl
    active := by cases hv : s.video <;> simp [Source.isActive, Source.track, hv, Track.pause]
    phase := rfl
    stream := id
    reading := fun _ hw _ => .inl hw
    starts := fun _ _ hm => hm
    video := by cases s.video <;> rfl
    audio := by cases s.audio <;> rfl }
  exact (h.aside hx).withPhase (by simp [Source.isOpen, hph]) (.inr rfl)
    (fun hs => by simp [hph] at hs)

theorem runStop_leads (h : s.Leads) (hlive : s.phase ≠ .shutdown)
    (hnone : ∀ sel pos, Task.start sel pos ∉ s.tasks) : (runStop.run s).2.Leads := by
  rw [runStop_moves hlive]
  refine .of_empty (by simp [Source.isOpen]) ?_ rfl (fun hp => by rcases hp with hp | hp <;> cases hp)
    (fun sel pos hm => absurd hm (hnone sel pos)) (fun t ht => ?_) (fun t ht => ?_)
  · have hheld : ∀ o : Option Track, ((o.map fun t => t.stop.1).map Track.held).getD [] = [] := by
      intro o
      cases o <;> rfl
    simp only [Source.videoStretch, Source.videoHeld, hheld, List.append_nil, ← List.append_assoc]
    exact videoSince_append_opens rfl Steady.nil
  · obtain ⟨t0, h0, rfl⟩ := Option.map_eq_some_iff.1 ht
    exact h.videoKind t0 h0
  · obtain ⟨t0, h0, rfl⟩ := Option.map_eq_some_iff.1 ht
    exact h.audioKind t0 h0

end Controls

section Runs

variable {s : Source}

theorem Source.Leads.trackKind (h : s.Leads) (k : TrackKind) :
    ∀ t, s.track k = some t → t.kind = k := by
  cases k
  · exact h.videoKind
  · exact h.audioKind

theorem Source.Aside.pop {c : Task} {rest : List Task} (ht : (c :: rest).Perm s.tasks) :
    s.Aside { s with tasks := rest } where
  stretch := rfl
  held := List.suffix_refl _
  avcConfig := rfl
  sent := rfl
  active := rfl
  phase := rfl
  stream := id
  reading _ hw _ := by
    obtain ⟨⟨t, o, n, hm, hcur⟩, hp⟩ := hw
    exact .inl ⟨⟨t, o, n, ht.subset (List.mem_cons_of_mem _ hm), hcur⟩, hp⟩
  starts _ _ hm := ht.subset (List.mem_cons_of_mem _ hm)
  video := rfl
  audio := rfl

theorem Step.Checks.leads {m : Step Unit} {c : Task} (hch : Step.Checks m c s) (h : s.Leads)
    (hc : c.isRead = false)
    (hstart : ∀ sel pos, c = .start sel pos → .video ∉ sel → s.isActive .video = false) :
    (Step.exec m s).2.Leads := by
  rcases hch with ⟨e, he, -⟩ | ⟨-, -, he⟩ <;> rw [he]
  · exact h
  · exact h.enqueue hc hstart

theorem Source.Leads.request (h : s.Leads) (k : TrackKind) (token : Option UInt64) :
    (Step.exec (requestSample k token) s).2.Leads := by
  simp only [requestSample, Step.exec_bind, Step.exec_get]
  split_ifs with hsh
  · exact h
  · cases ht : s.track k with
    | none => exact h
    | some t =>
      dsimp only
      cases hr : t.request token with
      | error e => exact h
      | ok r =>
        obtain ⟨-, -, -, rfl⟩ := Track.request_ok hr
        have hx := onTrack_aside (g := fun u => Track.dispatch { u with requests := u.requests ++ [token] })
          (fun u _ => Track.Passes.dispatch (f := fun u => { u with requests := u.requests ++ [token] })
            (fun _ => ⟨rfl, rfl, rfl⟩) u) (h.trackKind k)
        rw [onTrack_some ht] at hx
        simp only [Step.exec_bind, Step.exec_set, Step.exec_lift, emit_run, Source.setTrack_events]
        exact ((h.aside hx).aside (onSignal_aside _ _)).pump

theorem Source.Leads.beginOpen (h : s.Leads) (st : ByteStream) :
    (Step.exec (Engine.beginOpen st) s).2.Leads := by
  simp only [Engine.beginOpen, Step.exec_bind, Step.exec_get]
  cases hph : s.phase
  case invalid =>
    dsimp only
    split_ifs
    · simp only [Step.exec_bind, Step.exec_lift, Step.exec_throw]
      exact h.shutdown
    · simp only [Step.exec_bind, Step.exec_set, Step.exec_lift]
      obtain ⟨hv, he⟩ := h.fresh (.inl hph)
      have hx : ({ s with phase := .opening, stream := some st, awaitingOpen := true } : Source).Leads :=
        .of_unopened (.inr rfl) hv he (fun _ => rfl) h.audioKind
      exact guarded_leads hx (issueRead_aside (by simp [ReadStep.forVideo]) _ _)
  all_goals exact h

theorem Source.Leads.runTask_keeps (hb : s.Booked) (h : s.Leads) {c : Task} {rest : List Task}
    (ht : (c :: rest).Perm s.tasks)
    (hstopped : s.phase = .stopped → ∀ t o n, Task.read t o n ∈ s.tasks → s.session.isCurrent t = false)
    (hc : s.isOpen = true → ((runTask c).run { s with tasks := rest }).2.isOpen = true →
      ((runTask c).run { s with tasks := rest }).2.avcConfig = s.avcConfig) :
    ((runTask c).run { s with tasks := rest }).2.Leads := by
  have hmem : c ∈ s.tasks := ht.subset List.mem_cons_self
  have hdrop : s.Aside { s with tasks := rest, pendingOp := false } :=
    (Source.Aside.pop ht).trans (.of_eq rfl rfl rfl rfl rfl rfl rfl rfl rfl id)
  cases c with
  | read t o n =>
    cases hcur : s.session.isCurrent t
    · exact h.stale ht hcur
    · exact h.complete hb ht hcur hc
  | start sel pos =>
    by_cases hph : s.phase = .shutdown
    · have hrun : ((Engine.runTask (.start sel pos)).run { s with tasks := rest }).2 =
          { s with tasks := rest, pendingOp := false } := by simp [Engine.runTask, runStart, hph]
      rw [hrun]
      exact h.aside hdrop
    obtain ⟨-, hctl, -⟩ := hb.popControl ht rfl
    have hadm := (hb.queued _ hmem rfl).resolve_right hph
    have hopen : s.isOpen = true := by
      rcases hadm.open rfl with h' | h' | h' <;> simp [Source.isOpen, h']
    refine runStart_leads (h.aside (.pop ht)) hopen
      (fun sel pos hm => not_mem_of_countP_control hctl hm rfl) (h.starts sel pos hmem) ?_ ?_
    · cases pos
      · exact .inl rfl
      · exact .inr hadm.2
    · intro hs step hw
      obtain ⟨⟨t, o, n, hm, hcur⟩, -⟩ := hw
      rw [hstopped hs t o n (ht.subset (List.mem_cons_of_mem _ hm))] at hcur
      cases hcur
  | pause =>
    by_cases hph : s.phase = .started
    · exact runPause_leads (h.aside (.pop ht)) hph
    · show (runPause.run { s with tasks := rest }).2.Leads
      rw [runPause_run_other (by exact hph)]
      exact h.aside hdrop
  | stop =>
    by_cases hph : s.phase = .shutdown
    · have hrun : ((Engine.runTask .stop).run { s with tasks := rest }).2 =
          { s with tasks := rest, pendingOp := false } := by simp [Engine.runTask, runStop, hph]
      rw [hrun]
      exact h.aside hdrop
    obtain ⟨-, hctl, -⟩ := hb.popControl ht rfl
    exact runStop_leads (h.aside (.pop ht)) hph
      (fun sel pos hm => not_mem_of_countP_control hctl hm rfl)

end Runs

/-- An action that keeps the video track selected once it is, and the configuration in force
while the demuxer stays open. -/
def Source.keepsVideo (s : Source) (a : Action) : Bool :=
  (match a with
    | .start given _ => !s.isActive .video || given.selected.contains .video
    | _ => true) &&
  (!(s.isOpen && (s.act a).2.isOpen) || decide ((s.act a).2.avcConfig = s.avcConfig))

/-- Whether every action of a run keeps the video track and its configuration. -/
def Source.keepsVideoAlong : Source → List Action → Bool
  | _, [] => true
  | s, a :: as => s.keepsVideo a && (s.act a).2.keepsVideoAlong as

section Runs

variable {s : Source}

theorem Source.keepsVideo_start {given : Presentation} {pos : StartPosition}
    (h : s.keepsVideo (.start given pos) = true) (hv : .video ∉ given.selected) :
    s.isActive .video = false := by
  simp only [Source.keepsVideo, Bool.and_eq_true, Bool.or_eq_true, Bool.not_eq_true',
    List.contains_iff_mem] at h
  exact h.1.resolve_right hv

theorem Source.keepsVideo_config {a : Action} (h : s.keepsVideo a = true) (hs : s.isOpen = true)
    (ha : (s.act a).2.isOpen = true) : (s.act a).2.avcConfig = s.avcConfig := by
  simp only [Source.keepsVideo, Bool.and_eq_true, Bool.or_eq_true, Bool.not_eq_true',
    decide_eq_true_eq, hs, ha, Bool.and_self, Bool.true_eq_false, false_or] at h
  exact h.2

theorem Source.Leads.act (hb : s.Booked) (h : s.Leads)
    (hstopped : s.phase = .stopped → ∀ t o n, Task.read t o n ∈ s.tasks → s.session.isCurrent t = false)
    {a : Action} (hk : s.keepsVideo a = true) : (s.act a).2.Leads := by
  cases a with
  | «open» st => exact h.beginOpen st
  | start given pos =>
    refine (start_checks given pos s).leads h rfl fun sel pos' he hv => ?_
    cases he
    exact Source.keepsVideo_start hk hv
  | pause => exact (pause_checks s).leads h rfl fun _ _ he => nomatch he
  | stop => exact (stop_checks s).leads h rfl fun _ _ he => nomatch he
  | shutdown => exact h.shutdown
  | request k token => exact h.request k token
  | run i =>
    have hc := Source.keepsVideo_config hk
    rcases Source.act_run s i with hrun | ⟨c, rest, ht, hrun⟩ <;> rw [hrun] at hc ⊢
    · exact h
    · exact h.runTask_keeps hb ht hstopped hc

theorem Source.Leads.actAll (hs : s.Reachable) (h : s.Leads) {as : List Action}
    (hy : s.Young as.length) (hk : s.keepsVideoAlong as = true) : (s.actAll as).Leads := by
  induction as generalizing s with
  | nil => exact h
  | cons a as ih =>
    simp only [Source.keepsVideoAlong, Bool.and_eq_true] at hk
    have hb := hs.orderly.toBooked
    exact ih (hs.act a) (h.act hb (fun hph t o n hm => hy.stale_of_stopped hph hm) hk.1)
      (hy.act hb a) hk.2

end Runs

end FlvDemux.Engine
