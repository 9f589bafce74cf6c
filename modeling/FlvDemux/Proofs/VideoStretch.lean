import FlvDemux.Proofs.Serial

/-!
# Stretches of video

A stretch is what a consumer sees of video: the samples reported since the last new video stream
or stop, then those the video track still holds (`Source.videoStretch`). Most pieces of the engine
leave it alone (`Source.Aside`); a sample handed to a selected video track joins its end, and a
new video stream or a stop begins a new one.
-/

namespace FlvDemux.Engine

open Flv

namespace Event

/-- Whether an event begins a new stretch of video: a new video stream, or a stop. -/
def opensVideo : Event → Bool
  | .newStream .video | .sourceStopped => true
  | _ => false

/-- The video sample an event reports, if it reports one. -/
def videoSample? : Event → Option Sample
  | .sample .video x _ => some x
  | _ => none

theorem isControl_of_opensVideo {e : Event} (h : e.opensVideo = true) : e.isControl = true := by
  match e, h with
  | .newStream .video, _ => rfl
  | .sourceStopped, _ => rfl

end Event

/-- Events that begin no stretch of video and report no video sample. -/
def VideoSilent (M : List Event) : Prop :=
  ∀ e ∈ M, e.opensVideo = false ∧ e.videoSample? = none

/-- The video samples a log reports since the last new video stream or stop. -/
def videoSince (L : List Event) : List Sample :=
  (afterLast Event.opensVideo L).filterMap Event.videoSample?

@[simp] theorem videoSince_nil : videoSince [] = [] := rfl

theorem videoSince_append_steady {L M : List Event} (hM : Steady M) :
    videoSince (L ++ M) = videoSince L ++ M.filterMap Event.videoSample? := by
  have hpick : ∀ e ∈ M, e.opensVideo = false := fun e he => by
    cases h : e.opensVideo
    · rfl
    · exact absurd (Event.isControl_of_opensVideo h) (by simp [hM e he])
  unfold videoSince
  rw [afterLast_append_of_forall hpick, List.filterMap_append]

theorem VideoSilent.videoSince {L M : List Event} (hM : VideoSilent M) :
    videoSince (L ++ M) = videoSince L := by
  unfold Engine.videoSince
  rw [afterLast_append_of_forall fun e he => (hM e he).1, List.filterMap_append,
    List.filterMap_eq_nil_iff.2 fun e he => (hM e he).2, List.append_nil]

theorem VideoSilent.append {M N : List Event} (hM : VideoSilent M) (hN : VideoSilent N) :
    VideoSilent (M ++ N) := fun e he => (List.mem_append.1 he).elim (hM e) (hN e)

theorem videoSilent_singleton {e : Event} (h1 : e.opensVideo = false) (h2 : e.videoSample? = none) :
    VideoSilent [e] := fun x hx => by
  rw [List.mem_singleton.1 hx]
  exact ⟨h1, h2⟩

theorem videoSince_append_opens {L M : List Event} {e : Event} (he : e.opensVideo = true)
    (hM : Steady M) : videoSince (L ++ e :: M) = M.filterMap Event.videoSample? := by
  have h := videoSince_append_steady (L := []) hM
  unfold videoSince at h ⊢
  rw [afterLast_append_cons he]
  simpa using h

namespace Sample

/-- The sample is the private data of `c`, when `c` has one, followed by one buffer. -/
def LedBy (c : Avc.Config) (x : Sample) : Prop := ∃ u, x.buffers = c.privateData.toList ++ [u]

def Bare (x : Sample) : Prop := ∃ u, x.buffers = [u]

end Sample

/-- A stretch led by the configuration `cfg`: its first sample carries the private data of `cfg`,
when there is a configuration and it has one, and every later sample is one buffer. -/
def ConfigFirst (cfg : Option Avc.Config) : List Sample → Prop
  | [] => True
  | x :: rest => (∀ c, cfg = some c → x.LedBy c) ∧ ∀ y ∈ rest, y.Bare

namespace ConfigFirst

variable {cfg : Option Avc.Config} {xs ys : List Sample}

theorem tail (h : ConfigFirst cfg xs) : ∀ y ∈ xs.tail, y.Bare := by
  cases xs with
  | nil => simp
  | cons x rest => exact h.2

theorem of_none (h : ∀ y ∈ xs.tail, y.Bare) : ConfigFirst none xs := by
  cases xs with
  | nil => trivial
  | cons x rest => exact ⟨(fun _ hc => nomatch hc), h⟩

theorem concat_bare (h : ConfigFirst cfg xs) (hne : xs ≠ []) {y : Sample} (hy : y.Bare) :
    ConfigFirst cfg (xs ++ [y]) := by
  cases xs with
  | nil => exact absurd rfl hne
  | cons x rest =>
    refine ⟨h.1, fun z hz => ?_⟩
    rcases List.mem_append.1 hz with hz | hz
    · exact h.2 z hz
    · rw [List.mem_singleton.1 hz]
      exact hy

end ConfigFirst

/-- The samples a track holds: those ready, then those held back. -/
def Track.held (t : Track) : List Sample := t.samples ++ t.overflow

/-- Events a track of kind `k` reports: no start, stop or announcement of the demuxer, and
samples of `k` alone. -/
def OfKind (k : TrackKind) (M : List Event) : Prop :=
  Steady M ∧ ∀ j x tok, Event.sample j x tok ∈ M → j = k

namespace OfKind

variable {k : TrackKind} {M N : List Event}

theorem nil : OfKind k [] := ⟨Steady.nil, fun _ _ _ h => absurd h List.not_mem_nil⟩

theorem append (hM : OfKind k M) (hN : OfKind k N) : OfKind k (M ++ N) :=
  ⟨hM.1.append hN.1, fun j x tok h => (List.mem_append.1 h).elim (hM.2 j x tok) (hN.2 j x tok)⟩

theorem cons {e : Event} (hc : e.isControl = false) (hs : e.served? = none) (hM : OfKind k M) :
    OfKind k (e :: M) := by
  refine ⟨fun x hx => ?_, fun j x tok h => ?_⟩
  · rcases List.mem_cons.1 hx with rfl | hx
    · exact hc
    · exact hM.1 x hx
  · rcases List.mem_cons.1 h with h | h
    · rw [← h] at hs
      cases hs
    · exact hM.2 j x tok h

theorem video_samples (h : OfKind .video M) :
    M.filterMap Event.videoSample? = (served M).map Prod.fst := by
  induction M with
  | nil => rfl
  | cons e M ih =>
    have hrest : OfKind .video M :=
      ⟨fun x hx => h.1 x (List.mem_cons_of_mem e hx),
        fun j x tok hx => h.2 j x tok (List.mem_cons_of_mem e hx)⟩
    rw [List.filterMap_cons, served_cons, ih hrest]
    cases e with
    | sample j x tok =>
      obtain rfl : j = .video := h.2 j x tok List.mem_cons_self
      rfl
    | _ => rfl

theorem silent (h : OfKind .audio M) : VideoSilent M := by
  intro e he
  refine ⟨?_, ?_⟩
  · cases hv : e.opensVideo
    · rfl
    · exact absurd (Event.isControl_of_opensVideo hv) (by simp [h.1 e he])
  · cases e with
    | sample j x tok =>
      obtain rfl := h.2 j x tok he
      rfl
    | _ => rfl

end OfKind

theorem OfKind.videoSince {L M : List Event} (h : OfKind .video M) :
    videoSince (L ++ M) = videoSince L ++ (served M).map Prod.fst := by
  rw [videoSince_append_steady h.1, h.video_samples]

namespace Track

variable (t : Track)

theorem dispatch_ofKind : OfKind t.kind t.dispatch.2.1 := by
  refine ⟨dispatch_steady t, fun j x tok h => ?_⟩
  rcases mem_dispatch_events t h with ⟨y, tok', he⟩ | ⟨he, -⟩
  · cases he
    rfl
  · cases he

theorem dispatch_held : (served t.dispatch.2.1).map Prod.fst ++ t.dispatch.1.held = t.held := by
  simpa [held, List.append_assoc] using dispatch_samples t

theorem start_ofKind (pos : StartPosition) : OfKind t.kind (t.start pos).2.1 := by
  rw [start_eq]
  refine OfKind.cons rfl rfl ?_
  cases pos <;> exact dispatch_ofKind _

theorem pause_ofKind : OfKind t.kind t.pause.2 := by
  unfold pause
  split
  · exact OfKind.cons rfl rfl OfKind.nil
  · exact OfKind.nil

@[simp] theorem pause_held : t.pause.1.held = t.held := rfl

@[simp] theorem pause_kind : t.pause.1.kind = t.kind := rfl

@[simp] theorem shutdown_held : t.shutdown.held = [] := rfl

@[simp] theorem shutdown_kind : t.shutdown.kind = t.kind := rfl

@[simp] theorem shutdown_active : t.shutdown.active = false := rfl

end Track

/-- Whether a read step belongs to a video tag. -/
def ReadStep.forVideo : ReadStep → Bool
  | .videoHeader _ | .avcPacketHeader _ | .videoPayload _ => true
  | _ => false

/-- A track operation that reports events of the track's kind, keeps its kind and selection, and
moves the samples it answers with out of the track, in order. -/
def Track.Passes (g : Track → Track × List Event × Signal) : Prop :=
  ∀ t, OfKind t.kind (g t).2.1 ∧ (g t).1.kind = t.kind ∧ (g t).1.active = t.active ∧
    (served (g t).2.1).map Prod.fst ++ (g t).1.held = t.held

theorem Track.Passes.dispatch {f : Track → Track}
    (hf : ∀ t, (f t).kind = t.kind ∧ (f t).active = t.active ∧ (f t).held = t.held) :
    Track.Passes fun t => (f t).dispatch := fun t => by
  obtain ⟨hk, ha, hh⟩ := hf t
  refine ⟨hk ▸ Track.dispatch_ofKind (f t), by rw [Track.dispatch_kind, hk],
    by rw [Track.dispatch_active, ha], ?_⟩
  rw [Track.dispatch_held, hh]

theorem Track.passes_markEnd : Track.Passes Track.markEnd :=
  Track.Passes.dispatch fun _ => ⟨rfl, rfl, rfl⟩

theorem Track.deliver_reports (t : Track) (x : Sample) :
    OfKind t.kind (t.deliver x).2.1 ∧ (t.deliver x).1.kind = t.kind ∧ (t.deliver x).1.active = t.active := by
  unfold Track.deliver
  split_ifs
  · exact ⟨OfKind.nil, rfl, rfl⟩
  · exact ⟨dispatch_ofKind _, dispatch_kind _, dispatch_active _⟩
  · exact ⟨dispatch_ofKind _, dispatch_kind _, dispatch_active _⟩

theorem Track.deliver_held (t : Track) (x : Sample) (ha : t.active = true) :
    (served (t.deliver x).2.1).map Prod.fst ++ (t.deliver x).1.held = t.held ++ [x] := by
  unfold Track.deliver
  rw [if_neg (by simp [ha])]
  split
  · rename_i hroom
    simp only [Bool.and_eq_true, decide_eq_true_eq, List.isEmpty_iff] at hroom
    rw [Track.dispatch_held]
    simp [Track.held, hroom.2]
  · rw [Track.dispatch_held]
    simp [Track.held]

namespace Source

/-- The video samples the demuxer holds, ready or held back. -/
def videoHeld (s : Source) : List Sample := (s.video.map Track.held).getD []

/-- The current stretch of video: the samples reported since the last new video stream or stop,
then those the video track holds. -/
def videoStretch (s : Source) : List Sample := videoSince s.events ++ s.videoHeld

variable {s : Source}

theorem videoStretch_emit {M : List Event} (hM : VideoSilent M) :
    { s with events := s.events ++ M }.videoStretch = s.videoStretch := by
  simp [videoStretch, videoHeld, hM.videoSince]

theorem videoStretch_setAudio (t : Track) {M : List Event} (hM : VideoSilent M) :
    { s.setTrack .audio t with events := s.events ++ M }.videoStretch = s.videoStretch := by
  simp [videoStretch, videoHeld, Source.setTrack, hM.videoSince]

theorem videoStretch_setVideo (t : Track) {M : List Event} (hM : OfKind .video M) :
    { s.setTrack .video t with events := s.events ++ M }.videoStretch =
      videoSince s.events ++ (served M).map Prod.fst ++ t.held := by
  simp [videoStretch, videoHeld, Source.setTrack, hM.videoSince]

end Source

/-- A read of the current session is out, for `step`. -/
def Source.Awaits (s : Source) (step : ReadStep) : Prop :=
  (∃ t o n, Task.read t o n ∈ s.tasks ∧ s.session.isCurrent t = true) ∧ s.pending = some step

/-- `s'` is `s` with nothing moved that a stretch of video is made of or that leads it: the same
stretch, of which no more is held; the same configuration, flag, selection of the video track,
kinds of tracks and phase; a stream kept; a read of the session for video awaited only if it was,
or while the video track is selected; and no start queued that `s` had not queued. -/
structure Source.Aside (s s' : Source) : Prop where
  stretch : s'.videoStretch = s.videoStretch
  held : s'.videoHeld <:+ s.videoHeld
  avcConfig : s'.avcConfig = s.avcConfig
  sent : s'.avcConfigSent = s.avcConfigSent
  active : s'.isActive .video = s.isActive .video
  phase : s'.phase = s.phase
  stream : s.stream.isSome → s'.stream.isSome
  reading : ∀ step, s'.Awaits step → step.forVideo = true → s.Awaits step ∨ s.isActive .video = true
  starts : ∀ sel pos, Task.start sel pos ∈ s'.tasks → Task.start sel pos ∈ s.tasks
  video : s'.video.map Track.kind = s.video.map Track.kind
  audio : s'.audio.map Track.kind = s.audio.map Track.kind

namespace Source.Aside

variable {s s' s'' : Source}

theorem refl (s : Source) : s.Aside s :=
  ⟨rfl, List.suffix_refl _, rfl, rfl, rfl, rfl, id, fun _ hw _ => .inl hw, fun _ _ h => h, rfl, rfl⟩

theorem trans (h : s.Aside s') (h' : s'.Aside s'') : s.Aside s'' where
  stretch := h'.stretch.trans h.stretch
  held := h'.held.trans h.held
  avcConfig := h'.avcConfig.trans h.avcConfig
  sent := h'.sent.trans h.sent
  active := h'.active.trans h.active
  phase := h'.phase.trans h.phase
  stream := h'.stream ∘ h.stream
  reading step hw hv := by
    rcases h'.reading step hw hv with hw' | ha
    · exact h.reading step hw' hv
    · exact .inr (h.active ▸ ha)
  starts sel pos hm := h.starts sel pos (h'.starts sel pos hm)
  video := h'.video.trans h.video
  audio := h'.audio.trans h.audio

theorem of_eq (hv : s'.video = s.video) (ha : s'.audio = s.audio) (he : s'.events = s.events)
    (hc : s'.avcConfig = s.avcConfig) (hs : s'.avcConfigSent = s.avcConfigSent)
    (hph : s'.phase = s.phase) (hss : s'.session = s.session)
    (hp : s'.pending = s.pending) (ht : s'.tasks = s.tasks)
    (hst : s.stream.isSome → s'.stream.isSome) : s.Aside s' where
  stretch := by simp [videoStretch, videoHeld, hv, he]
  held := by simp [videoHeld, hv]
  avcConfig := hc
  sent := hs
  active := by simp [Source.isActive, Source.track, hv]
  phase := hph
  stream := hst
  reading step hw _ := by
    unfold Source.Awaits at hw ⊢
    rw [← ht, ← hss, ← hp]
    exact .inl hw
  starts _ _ hm := ht ▸ hm
  video := by rw [hv]
  audio := by rw [ha]

theorem emit {M : List Event} (hM : VideoSilent M) : s.Aside { s with events := s.events ++ M } where
  stretch := Source.videoStretch_emit hM
  held := List.suffix_refl _
  avcConfig := rfl
  sent := rfl
  active := rfl
  phase := rfl
  stream := id
  reading _ hw _ := .inl hw
  starts _ _ hm := hm
  video := rfl
  audio := rfl

theorem videoKind (ha : s.Aside s') (hk : ∀ t, s.video = some t → t.kind = .video) :
    ∀ t, s'.video = some t → t.kind = .video := fun t ht => by
  have hmap := ha.video
  rw [ht] at hmap
  obtain ⟨t0, ht0, hk0⟩ := Option.map_eq_some_iff.1 hmap.symm
  rw [← hk0]
  exact hk t0 ht0

theorem audioKind (ha : s.Aside s') (hk : ∀ t, s.audio = some t → t.kind = .audio) :
    ∀ t, s'.audio = some t → t.kind = .audio := fun t ht => by
  have hmap := ha.audio
  rw [ht] at hmap
  obtain ⟨t0, ht0, hk0⟩ := Option.map_eq_some_iff.1 hmap.symm
  rw [← hk0]
  exact hk t0 ht0

end Source.Aside

instance : Std.Refl Source.Aside := ⟨Source.Aside.refl⟩

instance : IsTrans Source Source.Aside := ⟨fun _ _ _ => Source.Aside.trans⟩

section Pieces

variable {s : Source}

theorem issueRead_shape (step : ReadStep) (target : Option SeekTarget) (n : Nat) (s : Source) :
    (Step.exec (issueRead step target n) s).2 = s ∨ ∃ st o, (s.stream.isSome → st.isSome) ∧
      (Step.exec (issueRead step target n) s).2 = { s with
        stream := st, readInFlight := true, pending := some step,
        tasks := s.tasks ++ [.read s.session.ticket o n] } := by
  rcases h : Step.exec (issueRead step target n) s with ⟨r, y⟩
  cases r with
  | error e => exact .inl (issueRead_error h)
  | ok u =>
    right
    cases target with
    | none =>
      cases hs : s.stream with
      | none => simp [issueRead, Step.exec_bind, Step.exec_get, hs] at h
      | some st =>
        rw [issueRead_none hs] at h
        cases h
        exact ⟨s.stream, st.position, fun _ => by simp [hs], rfl⟩
    | some t =>
      cases hs : s.stream with
      | none => simp [issueRead, Step.exec_bind, seekStream_exec, hs] at h
      | some st =>
        cases hk : st.seek t with
        | error f => simp [issueRead_seek_error hs hk] at h
        | ok r =>
          rw [issueRead_some hs hk] at h
          cases h
          exact ⟨some r.2, r.2.position, fun _ => rfl, rfl⟩

theorem issueRead_aside {step : ReadStep} (hvid : step.forVideo = true → s.isActive .video = true)
    (target : Option SeekTarget) (n : Nat) : s.Aside (Step.exec (issueRead step target n) s).2 := by
  rcases issueRead_shape step target n s with h | ⟨st, o, hst, h⟩ <;> rw [h]
  · exact .refl s
  · have hx : s.Aside { s with stream := st } := .of_eq rfl rfl rfl rfl rfl rfl rfl rfl rfl hst
    exact { hx with
      reading := fun _ hw hv => by
        cases hw.2
        exact .inr (hvid hv)
      starts := fun sel pos hm => by
        rcases List.mem_append.1 hm with hm | hm
        · exact hm
        · simp at hm }

theorem readNextTag_aside (s : Source) : s.Aside (Step.exec readNextTag s).2 := by
  rw [readNextTag_exec]
  have hx : s.Aside { s with rewindPending := false, skipPrefix := true } :=
    .of_eq rfl rfl rfl rfl rfl rfl rfl rfl rfl id
  exact hx.trans (issueRead_aside (by simp [ReadStep.forVideo]) _ _)

theorem Step.Within.seekAside (target : SeekTarget) :
    Step.Within Source.Aside (Engine.seekStream target) :=
  Step.Within.seekStream (fun _ _ _ => .of_eq rfl rfl rfl rfl rfl rfl rfl rfl rfl fun _ => rfl) target

theorem Step.Within.skipAside (n : Nat) : Step.Within Source.Aside (Engine.skipBytes n) :=
  Step.Within.seekAside _

theorem onSignal_aside (sig : Signal) (s : Source) : s.Aside ((onSignal sig).run s).2 := by
  simp only [onSignal, StateT.run_modify, pure_id_eq]
  split_ifs
  · exact .refl s
  · have hx : s.Aside { s with pendingEos := s.pendingEos - 1, eopSent := true } :=
      .of_eq rfl rfl rfl rfl rfl rfl rfl rfl rfl id
    exact hx.trans (.emit (videoSilent_singleton rfl rfl))
  · exact .of_eq rfl rfl rfl rfl rfl rfl rfl rfl rfl id

theorem onTrack_audio_aside {g : Track → Track × List Event × Signal}
    (hg : ∀ t, OfKind t.kind (g t).2.1 ∧ (g t).1.kind = t.kind)
    (hk : ∀ t, s.audio = some t → t.kind = .audio) : s.Aside ((onTrack .audio g).run s).2 := by
  cases ht : s.audio with
  | none =>
    rw [onTrack_none (k := .audio) ht]
    exact .refl s
  | some t =>
    rw [onTrack_some (k := .audio) ht]
    obtain ⟨hev, hkind⟩ := hg t
    rw [hk t ht] at hev
    exact {
      stretch := Source.videoStretch_setAudio _ hev.silent
      held := List.suffix_refl _
      avcConfig := rfl
      sent := rfl
      active := rfl
      phase := rfl
      stream := id
      reading := fun _ hw _ => .inl hw
      starts := fun _ _ hm => hm
      video := rfl
      audio := by simp [Source.setTrack, ht, hkind] }

theorem onTrack_aside {g : Track → Track × List Event × Signal} {k : TrackKind}
    (hg : ∀ t, s.track k = some t → OfKind t.kind (g t).2.1 ∧ (g t).1.kind = t.kind ∧
      (g t).1.active = t.active ∧ (served (g t).2.1).map Prod.fst ++ (g t).1.held = t.held)
    (hk : ∀ t, s.track k = some t → t.kind = k) :
    s.Aside ((onTrack k g).run s).2 := by
  cases ht : s.track k with
  | none =>
    rw [onTrack_none ht]
    exact .refl s
  | some t =>
    rw [onTrack_some ht]
    obtain ⟨hev, hkind, hact, hheld⟩ := hg t ht
    have htk := hk t ht
    rw [htk] at hev
    cases k with
    | audio =>
      have ha : s.audio = some t := ht
      exact {
        stretch := Source.videoStretch_setAudio _ hev.silent
        held := List.suffix_refl _
        avcConfig := rfl
        sent := rfl
        active := rfl
        phase := rfl
        stream := id
        reading := fun _ hw _ => .inl hw
        starts := fun _ _ hm => hm
        video := rfl
        audio := by simp [Source.setTrack, ha, hkind] }
    | video =>
      have hv : s.video = some t := ht
      exact {
        stretch := by
          rw [Source.videoStretch_setVideo _ hev, List.append_assoc, hheld]
          simp [Source.videoStretch, Source.videoHeld, hv]
        held := by
          simp only [Source.videoHeld, Source.setTrack, hv, Option.map_some, Option.getD_some]
          exact ⟨_, hheld⟩
        avcConfig := rfl
        sent := rfl
        active := by simp [Source.isActive, Source.track, Source.setTrack, hv, hact]
        phase := rfl
        stream := id
        reading := fun _ hw _ => .inl hw
        starts := fun _ _ hm => hm
        video := by simp [Source.setTrack, hv, hkind]
        audio := rfl }

theorem deliver_audio_aside (hk : ∀ t, s.audio = some t → t.kind = .audio) (x : Sample) :
    s.Aside ((deliver .audio x).run s).2 := by
  simp only [deliver, StateT.run_bind, bind_id_eq]
  exact (onTrack_audio_aside (fun t => ⟨(t.deliver_reports x).1, (t.deliver_reports x).2.1⟩) hk).trans
    (onSignal_aside _ _)

theorem endTrack_aside (k : TrackKind) (hk : ∀ t, s.track k = some t → t.kind = k) :
    s.Aside (s.endTrack k) := by
  unfold Source.endTrack
  split
  · simp only [StateT.run_bind, bind_id_eq]
    exact (onTrack_aside (fun t _ => Track.passes_markEnd t) hk).trans (onSignal_aside _ _)
  · exact .refl s

end Pieces

end FlvDemux.Engine
