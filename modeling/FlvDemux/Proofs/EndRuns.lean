import FlvDemux.Proofs.Controls

/-!
# The ends of the streams along every run

Along every run a track reports its end at most once in an epoch, and the presentation ends once
per start when every track of it has ended (`stream_ends_accounted`). A restart that selects a
track not yet ended starts the reading again, so a sample can follow an end
(`sample_follows_end_on_reselect`); runs that add no track to a playing demuxer stay sealed.
-/

namespace FlvDemux.Engine

open Flv

section Tasks

variable {s : Source} {t : UInt64} {o n : Nat} {rest : List Task}

theorem Source.Sealed.not_quenched (h : s.Sealed) (hr : s.readInFlight = true) : ¬s.Quenched :=
  fun hq => by rw [(h.quenched hq).2] at hr; cases hr

theorem runTask_read_settles (hb : s.Booked) (hs : Accounts s)
    (ht : (.read t o n :: rest).Perm s.tasks) :
    s.Logs ((runTask (.read t o n)).run { s with tasks := rest }).2 ∧
      (s.Sealed → ((runTask (.read t o n)).run { s with tasks := rest }).2.Sealed) := by
  obtain ⟨x, r, hx, -, hrun⟩ := runTask_read_moves t o n { s with tasks := rest }
  set y : Source := { x with readInFlight := false, pending := none }
  have hsy : s.Rests y := ((Source.Rests.pop ht).trans hx).trans (.of_eq rfl rfl rfl rfl rfl rfl rfl rfl rfl)
  have hya : Accounts y := hs.still hsy.still
  have hin := hb.reading (ht.subset List.mem_cons_self)
  have hsealed : s.Sealed → y.Sealed := fun h =>
    h.rests hsy fun hq => absurd hq (h.not_quenched hin)
  have hq : s.Sealed → ¬y.Quenched := fun h hq =>
    h.not_quenched hin (hq.of_track_eq hsy.still.track)
  rw [hrun]
  rcases resume_moves t o r x with h1 | h2 | ⟨e, h3⟩ | ⟨step, data, -, hph, h4⟩ |
      ⟨step, data, -, hph, h5⟩
  · rw [h1]
    exact ⟨.rests_trans hsy (.pump hya), fun h => (hsealed h).pump⟩
  · rw [h2]
    exact ⟨.rests hs hsy, hsealed⟩
  · rw [h3]
    exact ⟨.rests_trans hsy (.fail hya e), fun h => (hsealed h).fail e⟩
  · rw [h4]
    exact ⟨.rests_trans hsy (.scan hya hph (.scanStep step data o)),
      fun h => (hsealed h).scan hya hph (.scanStep step data o)⟩
  · rw [h5]
    exact ⟨.rests_trans hsy (.streamStep hya step data o),
      fun h => (hsealed h).streamStep hya (hq h) rfl hph step data o⟩

theorem runTask_settles (hb : s.Booked) (hs : Accounts s) {c : Task} (ht : (c :: rest).Perm s.tasks) :
    s.Logs ((runTask c).run { s with tasks := rest }).2 ∧
      (s.Sealed → ((runTask c).run { s with tasks := rest }).2.Sealed) := by
  have hpop := Source.Rests.pop ht
  have hmem : c ∈ s.tasks := ht.subset List.mem_cons_self
  have hs' := hs.still hpop.still
  have hdrop : s.Logs { s with tasks := rest, pendingOp := false } ∧
      (s.Sealed → ({ s with tasks := rest, pendingOp := false } : Source).Sealed) := by
    have hr : s.Rests { s with tasks := rest, pendingOp := false } :=
      hpop.trans (.of_eq rfl rfl rfl rfl rfl rfl rfl rfl rfl)
    exact ⟨.rests hs hr, fun h => h.rests hr fun _ => rfl⟩
  cases c with
  | read t o n => exact runTask_read_settles hb hs ht
  | start sel pos =>
    by_cases hph : s.phase = .shutdown
    · have hrun' : ((runTask (.start sel pos)).run { s with tasks := rest }).2 =
          { s with tasks := rest, pendingOp := false } := by simp [runTask, runStart, hph]
      rw [hrun']
      exact hdrop
    obtain ⟨-, hctl, -⟩ := hb.popControl ht rfl
    obtain ⟨hl, hsl⟩ := runStart_settles (c := s.Sealed) hs' (fun h => h.rests hpop fun _ => rfl)
      hph sel pos (fun _ sel' pos' hm => not_mem_of_countP_control hctl hm rfl)
      (fun h hp k hk => h.restarts sel pos hmem hp k hk)
    exact ⟨.rests_trans hpop hl, hsl⟩
  | pause =>
    by_cases hph : s.phase = .started
    · obtain ⟨hl, hsl⟩ := runPause_settles hs' hph
      exact ⟨.rests_trans hpop hl, fun h => hsl (h.rests hpop fun _ => rfl)⟩
    · show s.Logs (runPause.run { s with tasks := rest }).2 ∧
        (s.Sealed → (runPause.run { s with tasks := rest }).2.Sealed)
      rw [runPause_run_other (by exact hph)]
      exact hdrop
  | stop =>
    by_cases hph : s.phase = .shutdown
    · have hrun' : ((runTask .stop).run { s with tasks := rest }).2 =
          { s with tasks := rest, pendingOp := false } := by simp [runTask, runStop, hph]
      rw [hrun']
      exact hdrop
    obtain ⟨hl, hsl⟩ := runStop_settles hs' hph
    exact ⟨.rests_trans hpop hl, fun h => hsl (h.rests hpop fun _ => rfl)⟩

end Tasks

section Actions

variable {s : Source}

theorem Step.Checks.settles {m : Step Unit} {c : Task} (hch : Step.Checks m c s) (hs : Accounts s) :
    s.Logs (Step.exec m s).2 ∧ (s.Sealed →
      (∀ sel pos, c = .start sel pos → s.phase = .started ∨ s.phase = .paused →
        ∀ k ∈ sel, s.isActive k = true) → (Step.exec m s).2.Sealed) := by
  rcases hch with ⟨e, he, -⟩ | ⟨-, -, he⟩ <;> rw [he]
  · exact ⟨.rests hs (.refl s), fun h _ => h⟩
  · refine ⟨.of_events (hs.still ⟨rfl, rfl, rfl, rfl, rfl, rfl, rfl, id⟩) [] (by simp)
      fun _ => List.not_mem_nil, fun h hc => ⟨⟨h.drained, h.stopped, fun sel pos hm hp k hk => ?_,
      h.log⟩, h.quenched⟩⟩
    rcases List.mem_append.1 hm with hm | hm
    · exact h.restarts sel pos hm hp k hk
    · exact hc sel pos (List.mem_singleton.1 hm).symm hp k hk

theorem requestSample_settles (hs : Accounts s) (k : TrackKind) (token : Option UInt64) :
    s.Logs (Step.exec (requestSample k token) s).2 ∧
      (s.Sealed → (Step.exec (requestSample k token) s).2.Sealed) := by
  simp only [requestSample, Step.exec_bind, Step.exec_get]
  split_ifs with hsh
  · exact ⟨.rests hs (.refl s), id⟩
  cases ht : s.track k with
  | none => exact ⟨.rests hs (.refl s), id⟩
  | some t =>
    dsimp only
    cases hr : t.request token with
    | error e => exact ⟨.rests hs (.refl s), id⟩
    | ok r =>
      obtain ⟨-, ha, -, rfl⟩ := Track.request_ok hr
      simp only [Step.exec_bind, Step.exec_set, Step.exec_lift, emit_run, Source.setTrack_events]
      have hu : t.Loads { t with requests := t.requests ++ [token] } :=
        ⟨rfl, rfl, rfl, rfl, id, (hs.tracks k t ht).sound.packed, fun h => by simp [ha] at h⟩
      exact ⟨(Source.Logs.dispatch hs ht ha hu rfl).trans_calm (pump_calm _),
        fun h => ((h.dispatch hs.toCore ht hu (h.drained k t ht) rfl).signal _).pump⟩

theorem Accounts.beginScan (hs : Accounts s) (hph : s.phase = .invalid) (st : ByteStream) :
    Accounts { s with phase := .opening, stream := some st, awaitingOpen := true } where
  word h := by simp at h
  fresh _ := hs.fresh (.inl hph)
  opening _ := rfl
  tracks := hs.tracks
  absent := hs.absent
  log := hs.log
  running k t ht _ := by
    obtain ⟨hv, ha⟩ := hs.fresh (.inl hph)
    cases k <;> simp_all [Source.track]
  reported := hs.reported
  playing h := by simp at h
  owing h := absurd h (Nat.lt_irrefl 0)
  concludes _ := hs.concludes (by simp [hph])

theorem Source.Sealed.beginScan (h : s.Sealed) (st : ByteStream) :
    ({ s with phase := .opening, stream := some st, awaitingOpen := true } : Source).Sealed :=
  ⟨⟨h.drained, fun hp => by simp at hp, fun _ _ _ hp => by simp at hp, h.log⟩, h.quenched⟩

theorem beginOpen_settles (hs : Accounts s) (st : ByteStream) :
    s.Logs (Step.exec (beginOpen st) s).2 ∧ (s.Sealed → (Step.exec (beginOpen st) s).2.Sealed) := by
  simp only [beginOpen, Step.exec_bind, Step.exec_get]
  cases hph : s.phase
  case invalid =>
    dsimp only
    split_ifs
    · simp only [Step.exec_bind, Step.exec_lift, Step.exec_throw]
      exact ⟨.of_events hs.shutdown [] (by simp) fun _ => List.not_mem_nil, fun h => h.shutdown⟩
    · simp only [Step.exec_bind, Step.exec_set, Step.exec_lift]
      have hc := guarded_calm (Step.Keeps.issueRead .fileHeader (some (.start 0)) fileHeaderLength)
        { s with phase := .opening, stream := some st, awaitingOpen := true }
      have hnq : ¬({ s with phase := .opening, stream := some st, awaitingOpen := true } : Source).Quenched :=
        fun hq => by
          obtain ⟨k, t, ht, _⟩ := hq
          obtain ⟨hv, ha⟩ := hs.fresh (.inl hph)
          cases k <;> simp_all [Source.track]
      exact ⟨(Source.Logs.of_events (hs.beginScan hph st) [] (by simp)
        fun _ => List.not_mem_nil).trans_calm hc, fun h => (h.beginScan st).calm hc hnq⟩
  all_goals exact ⟨.rests hs (.refl s), id⟩

/-- An action that adds no track to those a playing demuxer has selected: a start made while it
plays selects only tracks it has selected. -/
def Source.addsNoTrack (s : Source) : Action → Bool
  | .start given _ => !(s.phase = .started || s.phase = .paused) || given.selected.all s.isActive
  | _ => true

/-- Whether every action of a run adds no track to those a playing demuxer has selected. -/
def Source.addsNoTrackAlong : Source → List Action → Bool
  | _, [] => true
  | s, a :: as => s.addsNoTrack a && (s.act a).2.addsNoTrackAlong as

theorem Source.act_settles (hb : s.Booked) (hs : Accounts s) (a : Action) :
    s.Logs (s.act a).2 ∧ (s.Sealed → s.addsNoTrack a = true → (s.act a).2.Sealed) := by
  cases a with
  | «open» st => exact (beginOpen_settles hs st).imp_right fun h h' _ => h h'
  | start given pos =>
    obtain ⟨hl, hsl⟩ := (start_checks given pos s).settles hs
    refine ⟨hl, fun h hk => hsl h fun sel pos' he hp k hkm => ?_⟩
    cases he
    simp only [Source.addsNoTrack, Bool.or_eq_true, Bool.not_eq_true', Bool.or_eq_false_iff,
      decide_eq_false_iff_not, List.all_eq_true] at hk
    rcases hk with ⟨hst, hpa⟩ | hall
    · rcases hp with hp | hp
      · exact absurd hp hst
      · exact absurd hp hpa
    · exact hall k hkm
  | pause =>
    obtain ⟨hl, hsl⟩ := (pause_checks s).settles hs
    exact ⟨hl, fun h _ => hsl h fun _ _ he => nomatch he⟩
  | stop =>
    obtain ⟨hl, hsl⟩ := (stop_checks s).settles hs
    exact ⟨hl, fun h _ => hsl h fun _ _ he => nomatch he⟩
  | shutdown =>
    exact ⟨.of_events hs.shutdown [] (by simp [Source.act]) fun _ => List.not_mem_nil,
      fun h _ => h.shutdown⟩
  | request k token => exact (requestSample_settles hs k token).imp_right fun h h' _ => h h'
  | run i =>
    rcases Source.act_run s i with hrun | ⟨c, rest, ht, hrun⟩ <;> rw [hrun]
    · exact ⟨.rests hs (.refl s), fun h _ => h⟩
    · exact (runTask_settles hb hs ht).imp_right fun h h' _ => h h'

end Actions

section Runs

variable {s : Source}

theorem accounts_create (config : SourceConfig) : Accounts (Source.create config) where
  word h := by simp [Source.create] at h
  fresh _ := ⟨rfl, rfl⟩
  opening h := by simp [Source.create] at h
  tracks k t ht := by cases k <;> simp [Source.create, Source.track] at ht
  absent _ _ := List.not_mem_nil
  log := every_nil _
  running k t ht := by cases k <;> simp [Source.create, Source.track] at ht
  reported := rfl
  playing h := by simp [Source.create] at h
  owing h := absurd h (Nat.lt_irrefl 0)
  concludes _ hlive := absurd hlive.1 List.not_mem_nil

theorem sealed_create (config : SourceConfig) : (Source.create config).Sealed :=
  ⟨⟨fun k t ht => by cases k <;> simp [Source.create, Source.track] at ht,
    fun h => by simp [Source.create] at h, fun _ _ hm => absurd hm List.not_mem_nil, every_nil _⟩,
    fun ⟨k, t, ht, _⟩ => by cases k <;> simp [Source.create, Source.track] at ht⟩

theorem Source.actAll_settles (hs : s.Reachable) (ha : Accounts s) (as : List Action) :
    Accounts (s.actAll as) ∧ (s.Sealed → s.addsNoTrackAlong as = true → (s.actAll as).Sealed) := by
  induction as generalizing s with
  | nil => exact ⟨ha, fun h _ => h⟩
  | cons a as ih =>
    obtain ⟨hl, hsl⟩ := Source.act_settles hs.orderly.toBooked ha a
    obtain ⟨ha', hs'⟩ := ih (hs.act a) hl.accounts
    refine ⟨ha', fun h hk => ?_⟩
    simp only [Source.addsNoTrackAlong, Bool.and_eq_true] at hk
    exact hs' (hsl h hk.1) hk.2

/-- The ends of the streams along every run of a demuxer: a track reports its end at most once
between two stops, and each end an action reports leaves its track started, selected, with
nothing ready and nothing held back, unless the action shut the demuxer down; the presentation
ends at most once per start, after the start has reported itself and before a stop, once every
track of the start has ended since the last stop; it has ended once every track of a live start
has, one of them after the start announced it; and along a run whose restarts of a playing
demuxer select no track it had not, no track answers a sample after its end before the next
stop. -/
theorem stream_ends_accounted (config : SourceConfig) (as : List Action) :
    let s := (Source.create config).actAll as
    Every EndRule s.events ∧ Concludes s.events ∧
      (∀ a, ∃ M, (s.act a).2.events = s.events ++ M ∧
        ∀ k, .endOfStream k ∈ M → (s.act a).2.Reported k) ∧
      ((Source.create config).addsNoTrackAlong as = true → Every SampleRule s.events) := by
  intro s
  have hr : s.Reachable := ⟨config, as, rfl⟩
  obtain ⟨ha, hsealed⟩ := Source.actAll_settles ⟨config, [], rfl⟩ (accounts_create config) as
  exact ⟨ha.log, ha.concluded, fun a => (Source.act_settles hr.orderly.toBooked ha a).1.log,
    fun hk => (hsealed (sealed_create config) hk).log⟩

/-- A file of an AVC configuration, an MP3 tag, an empty tag that ends the file in the middle,
and two more MP3 tags. -/
def endFile : List UInt8 :=
  [0x46, 0x4C, 0x56, 0x01, 0x05, 0x00, 0x00, 0x00, 0x09, 0x00, 0x00, 0x00, 0x00, 0x09, 0x00, 0x00,
   0x19, 0x00, 0x00, 0x00, 0x00, 0x00, 0x00, 0x00, 0x17, 0x00, 0x00, 0x00, 0x00, 0x01, 0x42, 0xC0,
   0x1E, 0xFF, 0xE1, 0x00, 0x05, 0x67, 0x42, 0xC0, 0x1E, 0xD9, 0x01, 0x00, 0x04, 0x68, 0xCE, 0x3C,
   0x80, 0x00, 0x00, 0x00, 0x24, 0x08, 0x00, 0x00, 0x02, 0x00, 0x00, 0x0A, 0x00, 0x00, 0x00, 0x00,
   0x2F, 0xA1, 0x00, 0x00, 0x00, 0x0D, 0x00, 0x00, 0x00, 0x00, 0x00, 0x00, 0x00, 0x00, 0x00, 0x00,
   0x00, 0x00, 0x00, 0x00, 0x0B, 0x08, 0x00, 0x00, 0x02, 0x00, 0x00, 0x14, 0x00, 0x00, 0x00, 0x00,
   0x2F, 0xA2, 0x00, 0x00, 0x00, 0x0D, 0x08, 0x00, 0x00, 0x02, 0x00, 0x00, 0x1E, 0x00, 0x00, 0x00,
   0x00, 0x2F, 0xA3, 0x00, 0x00, 0x00, 0x0D]

set_option linter.constructorNameAsVariable false in
/-- A run that starts every track and asks the audio track for its samples to the end of the
file: no sample follows an end. -/
theorem samples_stop_at_ends_on_end_file :
    let opened := (Source.create { queueDepth := 1 }).actAll
      (.open { data := endFile } :: List.replicate 7 (.run 0))
    let s := opened.actAll (.start (opened.presentation.getD {}) .current ::
      List.replicate 6 (.run 0) ++ .request .audio (some 1) :: List.replicate 6 (.run 0) ++
      .request .audio (some 2) :: List.replicate 6 (.run 0))
    Every SampleRule s.events := by
  intro opened s
  have h := (stream_ends_accounted { queueDepth := 1 }
    ((.open { data := endFile } :: List.replicate 7 (.run 0)) ++
      (.start (opened.presentation.getD {}) .current :: List.replicate 6 (.run 0) ++
        .request .audio (some 1) :: List.replicate 6 (.run 0) ++
        .request .audio (some 2) :: List.replicate 6 (.run 0)))).2.2.2 (by decide +kernel)
  rwa [Source.actAll_append] at h

set_option linter.constructorNameAsVariable false in
/-- A restart that selects a track a playing demuxer had not starts the reading again: the audio
track, which reached the end of the file at the empty tag, answers a sample read after it. -/
theorem sample_follows_end_on_reselect :
    let opened := (Source.create { queueDepth := 1 }).actAll
      (.open { data := endFile } :: List.replicate 7 (.run 0))
    let p := opened.presentation.getD {}
    let s := opened.actAll (.start (p.selectOnly [.audio]) .current :: List.replicate 6 (.run 0) ++
      .request .audio (some 1) :: List.replicate 6 (.run 0) ++ .start p .current ::
      List.replicate 6 (.run 0) ++ .request .audio (some 2) :: List.replicate 6 (.run 0))
    ¬Every SampleRule s.events := by
  intro opened p s h
  have hlog : s.events =
      [.newStream .audio, .streamStarted .audio, .sourceStarted,
        .sample .audio { buffers := [[0xA1]], timestampHns := 100000 } (some 1),
        .endOfStream .audio, .endOfPresentation,
        .newStream .video, .streamStarted .video, .updatedStream .audio, .streamStarted .audio,
        .sourceStarted] ++
      .sample .audio { buffers := [[0xA2]], timestampHns := 200000 } (some 2) ::
        [.endOfStream .video, .endOfPresentation] := by
    decide +kernel
  -- the sample of the second start follows the end of its track in the same epoch
  exact h _ _ _ hlog (by decide)

end Runs

end FlvDemux.Engine
