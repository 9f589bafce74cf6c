import FlvDemux.Proofs.Actions

/-!
# How the moves of a demuxer keep the accounting of ends

Every move keeps the accounting of ends (`Accounts`). A track that reported its end is left
started, selected and empty, and nothing short of a shutdown touches it again (`Source.Logs`); a
`Sealed` demuxer reads nothing more once a selected track has ended, so no sample reaches an
ended track unless a restart selects a track that has not ended.
-/

namespace FlvDemux.Engine

open Flv

/-- A track as the dispatch that reported its end leaves it: its end reported, nothing ready and
nothing held back, started and selected, unless it has been shut down since. -/
structure Track.Reported (t : Track) : Prop where
  sent : t.eosSent = true
  samples : t.samples = []
  overflow : t.overflow = []
  live : t.phase = .started ∧ t.active = true ∨ t.phase = .shutdown

/-- The track of kind `k` is there, and reported. -/
def Source.Reported (s : Source) (k : TrackKind) : Prop := ∃ t, s.track k = some t ∧ t.Reported

section Reported

variable {s y : Source} {k : TrackKind}

theorem Track.dispatch_reported {u : Track} (hp : u.Packed) (hd : 0 < u.depth)
    (ha : u.active = true) (h : u.dispatch.2.2 = .endOfStream) : u.dispatch.1.Reported := by
  obtain ⟨hph, -, -, hs⟩ := u.dispatch_signal_end h
  refine ⟨by simp [Track.dispatch_eosSent, h], hs, Track.dispatch_overflow_of_end hp hd h,
    .inl ⟨by rw [Track.dispatch_phase]; exact hph, by rw [Track.dispatch_active]; exact ha⟩⟩

theorem Source.Reported.of_track (h : s.Reported k) (ht : y.track k = s.track k) :
    y.Reported k := by
  obtain ⟨t, hs, hr⟩ := h
  exact ⟨t, ht.trans hs, hr⟩

theorem Source.Reported.shutdown (h : s.Reported k) : (shutdownNow.run s).2.Reported k := by
  by_cases hdown : s.phase = .shutdown
  · rw [shutdownNow_of_shutdown hdown]
    exact h
  · obtain ⟨t, ht, hr⟩ := h
    exact ⟨t.shutdown, by rw [shutdownNow_track hdown, ht]; rfl, ⟨hr.sent, rfl, rfl, .inr rfl⟩⟩

theorem Source.Reported.fail (h : s.Reported k) (e : SourceError) :
    ((fail e).run s).2.Reported k := by
  rcases fail_run e s with ⟨x, hx, hrun⟩ | hrun <;> rw [hrun] <;> apply Source.Reported.shutdown
  · exact h.of_track (hx.track k)
  · exact h.of_track (Source.track_congr s _ rfl rfl k)

theorem Source.Reported.calm (h : s.Reported k) (hc : s.Calm y) : y.Reported k := by
  obtain ⟨x, hx, rfl | ⟨e, rfl⟩⟩ := hc
  · exact h.of_track (hx.still.track k)
  · exact (h.of_track (hx.still.track k)).fail e

end Reported

section Pieces

variable (s : Source)

@[simp] theorem Source.setTrack_readInFlight (k : TrackKind) (t : Track) :
    (s.setTrack k t).readInFlight = s.readInFlight := by
  cases k <;> rfl

theorem Source.track_setTrack_events (k : TrackKind) (t : Track) (E : List Event) (j : TrackKind) :
    ({ s.setTrack k t with events := E } : Source).track j = if j = k then some t else s.track j := by
  cases k <;> cases j <;> rfl

theorem onSignal_track (sig : Signal) (k : TrackKind) :
    ((onSignal sig).run s).2.track k = s.track k :=
  Source.track_congr s _ (onSignal_video s sig) (onSignal_audio s sig) k

theorem onSignal_events (sig : Signal) :
    ((onSignal sig).run s).2.events = s.events ∨
      ((onSignal sig).run s).2.events = s.events ++ [.endOfPresentation] := by
  simp only [onSignal, StateT.run_modify, pure_id_eq]
  split_ifs <;> simp

theorem fail_events (e : SourceError) :
    ((fail e).run s).2.events = s.events ∨ ((fail e).run s).2.events = s.events ++ [.error e] := by
  rcases fail_run e s with ⟨x, hx, hrun⟩ | hrun <;> rw [hrun, shutdownNow_events]
  · exact .inl hx.events
  · exact .inr rfl

theorem Source.endTrack_cases (k : TrackKind) :
    s.isActive k = false ∧ s.endTrack k = s ∨ ∃ t, s.track k = some t ∧ t.active = true ∧
      s.endTrack k = ((onSignal t.markEnd.2.2).run
        { s.setTrack k t.markEnd.1 with events := s.events ++ t.markEnd.2.1 }).2 := by
  unfold Source.endTrack
  split
  · rename_i hact
    simp only [Source.isActive, Option.any_eq_true] at hact
    obtain ⟨t, ht, ha⟩ := hact
    refine .inr ⟨t, ht, ha, ?_⟩
    simp only [StateT.run_bind, bind_id_eq, onTrack_some ht]
  · rename_i hact
    exact .inl ⟨by simpa using hact, rfl⟩

theorem deliver_cases {k : TrackKind} (hs : ∀ t, s.track k = some t → t.Sound) (x : Sample) :
    ((deliver k x).run s).2 = s ∨ ∃ t u, s.track k = some t ∧ t.active = true ∧ t.Loads u ∧
      u.phase = t.phase ∧ u.endOfStream = t.endOfStream ∧
      ((deliver k x).run s).2 = ((onSignal u.dispatch.2.2).run
        { s.setTrack k u.dispatch.1 with events := s.events ++ u.dispatch.2.1 }).2 := by
  have h0 : Signal.none ≠ Signal.endOfStream := by decide
  cases ht : s.track k with
  | none =>
    left
    simp only [deliver, StateT.run_bind, bind_id_eq, onTrack_none ht, onSignal_other h0]
  | some t =>
    have hrun : ((deliver k x).run s).2 = ((onSignal (t.deliver x).2.2).run
        { s.setTrack k (t.deliver x).1 with events := s.events ++ (t.deliver x).2.1 }).2 := by
      simp only [deliver, StateT.run_bind, bind_id_eq, onTrack_some ht]
    rcases Track.deliver_cases (hs t ht) x with ⟨-, hd⟩ | ⟨ha, u, hu, hph, he, hd⟩
    · left
      rw [hrun, hd, onSignal_other h0, List.append_nil, Source.setTrack_self ht]
    · exact .inr ⟨t, u, rfl, ha, hu, hph, he, by rw [hrun, hd]⟩

end Pieces

section SampleLog

variable {L M : List Event}

theorem every_sample_append (hL : Every SampleRule L) (hM : served M = []) :
    Every SampleRule (L ++ M) := by
  refine every_append.2 ⟨hL, fun pre e post h => ?_⟩
  have he : e.served? = none := List.filterMap_eq_nil_iff.1 hM e (by rw [h]; simp)
  cases e <;> simp_all [SampleRule, Event.served?]

theorem every_sample_dispatch {u : Track} (hL : Every SampleRule L)
    (hk : served u.dispatch.2.1 ≠ [] → .endOfStream u.kind ∉ sinceStop L) :
    Every SampleRule (L ++ u.dispatch.2.1) := by
  by_cases hs : served u.dispatch.2.1 = []
  · exact every_sample_append hL hs
  have hnot := hk hs
  have hS : Every SampleRule
      (L ++ (served u.dispatch.2.1).map fun p => Event.sample u.kind p.1 p.2) := by
    refine every_append.2 ⟨hL, fun pre e post h => ?_⟩
    have hplain := plain_samples u.kind (served u.dispatch.2.1)
    have hpre : Plain pre := fun x hx => hplain x (by rw [h]; simp [hx])
    obtain ⟨p, -, rfl⟩ := List.mem_map.1 (show e ∈ _ by rw [h]; simp)
    show .endOfStream u.kind ∉ sinceStop (L ++ pre)
    rw [hpre.steady.sinceStop_append, hpre.mem_append_iff (e := .endOfStream u.kind) rfl]
    exact hnot
  rw [u.dispatch_events, ← List.append_assoc]
  split
  · exact every_concat.2 ⟨hS, trivial⟩
  · simpa using hS

end SampleLog

/-- A selected track has reached the end of its stream. -/
def Source.Quenched (s : Source) : Prop :=
  ∃ k t, s.track k = some t ∧ t.active = true ∧ t.endOfStream = true

/-- What keeps a track that has reported its end from answering samples, but for the reading: it
holds no sample; the streams of a stopped demuxer have not ended; a queued restart adds no track;
and no sample in the log follows the end of its track in its epoch. -/
structure Source.Drained (s : Source) : Prop where
  drained : ∀ k t, s.track k = some t → t.eosSent = true → t.samples = [] ∧ t.overflow = []
  stopped : s.phase = .stopped → ∀ k t, s.track k = some t → t.endOfStream = false
  restarts : ∀ sel pos, Task.start sel pos ∈ s.tasks → s.phase = .started ∨ s.phase = .paused →
    ∀ k ∈ sel, s.isActive k = true
  log : Every SampleRule s.events

/-- A drained demuxer that reads no more once a selected track has reached the end of its
stream: every selected track has then, and no read is out. -/
structure Source.Sealed (s : Source) : Prop extends s.Drained where
  quenched : s.Quenched →
    (∀ k t, s.track k = some t → t.active = true → t.endOfStream = true) ∧ s.readInFlight = false

section Sealed

variable {s y : Source}

theorem Source.wantsData_of_ended
    (hall : ∀ k t, s.track k = some t → t.active = true → t.endOfStream = true) :
    s.wantsData = false := by
  have hk : ∀ k, (s.track k).any Track.needsData = false := by
    intro k
    cases ht : s.track k with
    | none => rfl
    | some t =>
      cases ha : t.active
      · simp [Track.needsData, ha]
      · simp [Track.needsData, hall k t ht ha]
  have hv := hk .video
  have ha := hk .audio
  simp only [Source.track] at hv ha
  simp [Source.wantsData, hv, ha]

theorem Source.Sealed.wantsData (h : s.Sealed) (hq : s.Quenched) : s.wantsData = false :=
  Source.wantsData_of_ended (h.quenched hq).1

theorem Source.Sealed.quenched_of (h : s.Sealed)
    (hends : ∀ k t', y.track k = some t' → ∃ t, s.track k = some t ∧
      (t'.active = true → t.active = true) ∧ t'.endOfStream = t.endOfStream)
    (hr : y.readInFlight = s.readInFlight) (hq : y.Quenched) :
    (∀ k t, y.track k = some t → t.active = true → t.endOfStream = true) ∧
      y.readInFlight = false := by
  obtain ⟨k, t', ht', ha, he⟩ := hq
  obtain ⟨t, ht, hact, hend⟩ := hends k t' ht'
  obtain ⟨hall, hidle⟩ := h.quenched ⟨k, t, ht, hact ha, hend ▸ he⟩
  refine ⟨fun j u hu hua => ?_, hr.trans hidle⟩
  obtain ⟨u₀, hu₀, hact', hend'⟩ := hends j u hu
  rw [hend']
  exact hall j u₀ hu₀ (hact' hua)

theorem Source.Drained.congr (h : s.Drained) (hv : y.video = s.video) (ha : y.audio = s.audio)
    (hph : y.phase = s.phase)
    (hstarts : ∀ sel pos, Task.start sel pos ∈ y.tasks → Task.start sel pos ∈ s.tasks)
    (he : ∃ M, y.events = s.events ++ M ∧ served M = []) : y.Drained := by
  have htr := Source.track_congr s y hv ha
  obtain ⟨M, hM, hs⟩ := he
  refine ⟨fun k t ht => h.drained k t (by rw [← htr k]; exact ht),
    fun hp k t ht => h.stopped (by rw [← hph]; exact hp) k t (by rw [← htr k]; exact ht),
    fun sel pos hm hp k hk => ?_, by rw [hM]; exact every_sample_append h.log hs⟩
  rw [Source.isActive_congr s y hv ha]
  exact h.restarts sel pos (hstarts sel pos hm) (by rw [← hph]; exact hp) k hk

theorem Source.Sealed.congr (h : s.Sealed) (hv : y.video = s.video) (ha : y.audio = s.audio)
    (hph : y.phase = s.phase)
    (hstarts : ∀ sel pos, Task.start sel pos ∈ y.tasks → Task.start sel pos ∈ s.tasks)
    (he : ∃ M, y.events = s.events ++ M ∧ served M = [])
    (hr : s.Quenched → y.readInFlight = s.readInFlight) : y.Sealed where
  toDrained := h.toDrained.congr hv ha hph hstarts he
  quenched hq := by
    have htr := Source.track_congr s y hv ha
    have hq' : s.Quenched := by
      obtain ⟨k, t, ht, hact, hend⟩ := hq
      exact ⟨k, t, by rw [← htr k]; exact ht, hact, hend⟩
    exact h.quenched_of (fun k t ht => ⟨t, by rw [← htr k]; exact ht, id, rfl⟩) (hr hq') hq

theorem Source.Sealed.rests (h : s.Sealed) (hr : s.Rests y)
    (hq : s.Quenched → y.readInFlight = s.readInFlight) : y.Sealed :=
  h.congr hr.still.video hr.still.audio hr.still.phase hr.starts
    ⟨[], by simp [hr.still.events], rfl⟩ hq

theorem Source.Drained.signal (h : s.Drained) (sig : Signal) : ((onSignal sig).run s).2.Drained := by
  have hq := onSignal_quiet sig s
  refine h.congr (onSignal_video s sig) (onSignal_audio s sig) hq.phase
    (fun _ _ hm => by rwa [hq.tasks] at hm) ?_
  rcases onSignal_events s sig with he | he
  · exact ⟨[], by simp [he], rfl⟩
  · exact ⟨[.endOfPresentation], he, rfl⟩

theorem Source.Sealed.signal (h : s.Sealed) (sig : Signal) : ((onSignal sig).run s).2.Sealed where
  toDrained := h.toDrained.signal sig
  quenched := h.quenched_of (fun k t ht => ⟨t, by rw [← onSignal_track s sig k]; exact ht, id, rfl⟩)
    (onSignal_quiet sig s).readInFlight

theorem Source.Sealed.shutdown (h : s.Sealed) : (shutdownNow.run s).2.Sealed := by
  by_cases hdown : s.phase = .shutdown
  · rw [shutdownNow_of_shutdown hdown]
    exact h
  have htr := shutdownNow_track hdown
  refine ⟨⟨fun k t ht _ => ?_, fun hp => by simp at hp, fun _ _ _ hp => by simp at hp,
    by rw [shutdownNow_events]; exact h.log⟩, fun ⟨k, t, ht, hact, _⟩ => ?_⟩
  · rw [htr, Option.map_eq_some_iff] at ht
    obtain ⟨t₀, -, rfl⟩ := ht
    exact ⟨rfl, rfl⟩
  · rw [htr, Option.map_eq_some_iff] at ht
    obtain ⟨t₀, -, rfl⟩ := ht
    simp [Track.shutdown] at hact

theorem Source.Sealed.fail (h : s.Sealed) (e : SourceError) : ((fail e).run s).2.Sealed := by
  simp only [Engine.fail, StateT.run_bind, StateT.run_get, bind_id_eq, pure_id_eq]
  split
  · show (shutdownNow.run { s with awaitingOpen := false, openResult := some (.error e) }).2.Sealed
    apply Source.Sealed.shutdown
    exact h.congr rfl rfl rfl (fun _ _ hm => hm) ⟨[], by simp, rfl⟩ fun _ => rfl
  · show (shutdownNow.run { s with events := s.events ++ [.error e] }).2.Sealed
    apply Source.Sealed.shutdown
    exact h.congr rfl rfl rfl (fun _ _ hm => hm) ⟨[.error e], rfl, rfl⟩ fun _ => rfl

theorem Source.Sealed.calm (h : s.Sealed) (hc : s.Calm y) (hq : ¬s.Quenched) : y.Sealed := by
  obtain ⟨x, hx, rfl | ⟨e, rfl⟩⟩ := hc
  · exact h.rests hx fun h' => absurd h' hq
  · exact (h.rests hx fun h' => absurd h' hq).fail e

theorem Source.Sealed.pump (h : s.Sealed) : (pump.run s).2.Sealed := by
  rcases pump_cases s with hrun | ⟨-, -, hw, hc⟩
  · rw [hrun]
    exact h
  · exact h.calm hc fun hq => by rw [h.wantsData hq] at hw; cases hw

end Sealed

section Dispatch

variable {s : Source} {k : TrackKind} {t u : Track}

theorem Track.Reported.dispatch {u : Track} (h : u.Reported) : u.dispatch.1.Reported := by
  have hq := u.dispatch_samples
  rw [h.samples, h.overflow] at hq
  simp only [List.append_nil, List.append_eq_nil_iff] at hq
  refine ⟨by simp [Track.dispatch_eosSent, h.sent], hq.1.2, hq.2, ?_⟩
  rw [Track.dispatch_phase, Track.dispatch_active]
  exact h.live

theorem Source.Reported.endTrack {j : TrackKind} (h : s.Reported j) (k : TrackKind) :
    (s.endTrack k).Reported j := by
  rcases s.endTrack_cases k with ⟨-, hrun⟩ | ⟨t, ht, -, hrun⟩
  · rw [hrun]
    exact h
  · obtain ⟨t', hj, hr⟩ := h
    rw [hrun]
    refine ⟨if j = k then t.markEnd.1 else t', ?_, ?_⟩
    · rw [onSignal_track, Source.track_setTrack_events]
      split <;> simp_all
    · split
      · subst j
        obtain rfl : t = t' := Option.some.inj (ht.symm.trans hj)
        exact Track.Reported.dispatch (u := { t with endOfStream := true })
          ⟨hr.sent, hr.samples, hr.overflow, hr.live⟩
      · exact hr

theorem Track.dispatch_drained (hu : t.Loads u) (hd : 0 < t.depth)
    (hdrained : t.eosSent = true → u.samples = [] ∧ u.overflow = [])
    (hs : u.dispatch.1.eosSent = true) :
    u.dispatch.1.samples = [] ∧ u.dispatch.1.overflow = [] := by
  rw [Track.dispatch_eosSent] at hs
  rcases Bool.or_eq_true_iff.1 hs with hs | hs
  · obtain ⟨h1, h2⟩ := hdrained (hu.eosSent ▸ hs)
    have hq := u.dispatch_samples
    rw [h1, h2] at hq
    simp only [List.append_nil, List.append_eq_nil_iff] at hq
    exact ⟨hq.1.2, hq.2⟩
  · have hsig : u.dispatch.2.2 = .endOfStream := by simpa using hs
    exact ⟨(u.dispatch_signal_end hsig).2.2.2,
      Track.dispatch_overflow_of_end hu.packed (by rw [hu.depth]; exact hd) hsig⟩

/-- A dispatch in place of a track in shape keeps a demuxer drained, when what the track was
given added nothing to a track that had reported its end, and moved no end of a stream in a
stopped demuxer. -/
theorem Source.Drained.dispatch (h : s.Drained) (hc : Core s) (ht : s.track k = some t)
    (hu : t.Loads u) (hdrained : t.eosSent = true → u.samples = [] ∧ u.overflow = [])
    (hend : s.phase = .stopped → u.endOfStream = t.endOfStream) :
    ({ s.setTrack k u.dispatch.1 with events := s.events ++ u.dispatch.2.1 } : Source).Drained := by
  have hacc := hc.tracks k t ht
  set x : Source := { s.setTrack k u.dispatch.1 with events := s.events ++ u.dispatch.2.1 }
    with hx
  have hxtrack : ∀ j, x.track j = if j = k then some u.dispatch.1 else s.track j :=
    Source.track_setTrack_events s k u.dispatch.1 _
  have hxph : x.phase = s.phase := by simp [hx]
  have hxtasks : x.tasks = s.tasks := by simp [hx]
  refine ⟨fun j t' ht' => ?_, fun hp j t' ht' => ?_, fun sel pos hm hp j hj => ?_, ?_⟩
  · rw [hxtrack] at ht'
    split at ht'
    · cases ht'
      exact Track.dispatch_drained hu hacc.depth hdrained
    · exact h.drained j t' ht'
  · rw [hxph] at hp
    rw [hxtrack] at ht'
    split at ht'
    · cases ht'
      rw [Track.dispatch_endOfStream, hend hp]
      exact h.stopped hp k t ht
    · exact h.stopped hp j t' ht'
  · rw [hxph] at hp
    rw [hxtasks] at hm
    have hact := h.restarts sel pos hm hp j hj
    rw [Source.isActive_congr (s.setTrack k u.dispatch.1) x rfl rfl, Source.isActive_setTrack]
    split
    · subst j
      simp only [Source.isActive, ht, Option.any_some] at hact
      rw [Track.dispatch_active, hu.active, hact]
    · exact hact
  · -- samples answered mean the queues were not empty, so the track had not reported its end
    refine every_sample_dispatch h.log fun hs => ?_
    rw [hu.kind, hacc.kind, ← hacc.sent]
    intro he
    obtain ⟨h1, h2⟩ := hdrained he
    exact hs (Track.dispatch_served_nil h1 h2)

theorem Source.Sealed.dispatch (h : s.Sealed) (hc : Core s) (ht : s.track k = some t)
    (hu : t.Loads u) (hdrained : t.eosSent = true → u.samples = [] ∧ u.overflow = [])
    (hend : u.endOfStream = t.endOfStream) :
    ({ s.setTrack k u.dispatch.1 with events := s.events ++ u.dispatch.2.1 } : Source).Sealed where
  toDrained := h.toDrained.dispatch hc ht hu hdrained fun _ => hend
  quenched := by
    refine h.quenched_of (fun j t' ht' => ?_) (by simp)
    rw [Source.track_setTrack_events] at ht'
    split at ht'
    · subst j
      cases ht'
      exact ⟨t, ht, by rw [Track.dispatch_active, hu.active]; exact id,
        by rw [Track.dispatch_endOfStream, hend]⟩
    · exact ⟨t', ht', id, rfl⟩

end Dispatch

/-- `y` accounts for its ends, its log extends that of `s`, and each end reported on the way
left its track reported. -/
structure Source.Logs (s y : Source) : Prop where
  accounts : Accounts y
  log : ∃ M, y.events = s.events ++ M ∧ ∀ k, .endOfStream k ∈ M → y.Reported k

namespace Source.Logs

variable {s x y : Source} {k : TrackKind} {t u : Track}

theorem trans (h : s.Logs x) (h' : x.Logs y) (hr : ∀ k, x.Reported k → y.Reported k) :
    s.Logs y := by
  obtain ⟨M, hM, hk⟩ := h.log
  obtain ⟨N, hN, hk'⟩ := h'.log
  refine ⟨h'.accounts, M ++ N, by rw [hN, hM, List.append_assoc], fun k hm => ?_⟩
  rcases List.mem_append.1 hm with hm | hm
  · exact hr k (hk k hm)
  · exact hk' k hm

theorem of_events (ha : Accounts y) (M : List Event) (he : y.events = s.events ++ M)
    (hM : ∀ k, .endOfStream k ∉ M) : s.Logs y :=
  ⟨ha, M, he, fun k hk => absurd hk (hM k)⟩

theorem rests (hs : Accounts s) (hr : s.Rests y) : s.Logs y :=
  of_events (hs.still hr.still) [] (by simp [hr.still.events]) fun _ => List.not_mem_nil

theorem rests_trans (hr : s.Rests x) (h : x.Logs y) : s.Logs y := by
  obtain ⟨M, hM, hk⟩ := h.log
  exact ⟨h.accounts, M, by rw [hM, hr.still.events], hk⟩

theorem fail (hs : Accounts s) (e : SourceError) : s.Logs ((Engine.fail e).run s).2 := by
  rcases fail_events s e with he | he
  · exact of_events (hs.fail e) [] (by simp [he]) fun _ => List.not_mem_nil
  · exact of_events (hs.fail e) [.error e] he fun _ => by simp

theorem calm (hs : Accounts s) (hc : s.Calm y) : s.Logs y := by
  obtain ⟨x, hx, rfl | ⟨e, rfl⟩⟩ := hc
  · exact rests hs hx
  · exact (rests hs hx).trans (Logs.fail (hs.still hx.still) e) fun _ h => h.fail e

theorem trans_calm (h : s.Logs x) (hc : x.Calm y) : s.Logs y :=
  h.trans (calm h.accounts hc) fun _ h' => h'.calm hc

theorem pump (hs : Accounts s) : s.Logs (Engine.pump.run s).2 := calm hs (pump_calm s)

theorem dispatch (hs : Accounts s) (ht : s.track k = some t) (ha : t.active = true)
    (hu : t.Loads u) (hph : u.phase = t.phase) :
    s.Logs ((onSignal u.dispatch.2.2).run
      { s.setTrack k u.dispatch.1 with events := s.events ++ u.dispatch.2.1 }).2 := by
  have hacc := hs.tracks k t ht
  set x : Source := { s.setTrack k u.dispatch.1 with events := s.events ++ u.dispatch.2.1 }
    with hx
  have hrep : ∀ j, .endOfStream j ∈ u.dispatch.2.1 → ((onSignal u.dispatch.2.2).run x).2.Reported j := by
    intro j hj
    obtain ⟨rfl, hsig⟩ := u.endOfStream_mem_dispatch.1 hj
    refine ⟨u.dispatch.1, ?_, Track.dispatch_reported hu.packed (by rw [hu.depth]; exact hacc.depth)
      (by rw [hu.active]; exact ha) hsig⟩
    rw [onSignal_track, hx, Source.track_setTrack_events, if_pos (by rw [hu.kind, hacc.kind])]
  refine ⟨hs.dispatch ht ha hu hph, ?_⟩
  rcases onSignal_events x u.dispatch.2.2 with he | he
  · exact ⟨u.dispatch.2.1, he, hrep⟩
  · refine ⟨u.dispatch.2.1 ++ [.endOfPresentation], by rw [he, List.append_assoc], fun j hj => ?_⟩
    rcases List.mem_append.1 hj with hj | hj
    · exact hrep j hj
    · simp at hj

theorem deliver (hs : Accounts s) (k : TrackKind) (smp : Sample) :
    s.Logs ((Engine.deliver k smp).run s).2 := by
  rcases deliver_cases s (fun t ht => (hs.tracks k t ht).sound) smp with
    hrun | ⟨t, u, ht, ha, hu, hph, -, hrun⟩ <;> rw [hrun]
  · exact of_events hs [] (by simp) fun _ => List.not_mem_nil
  · exact dispatch hs ht ha hu hph

theorem endTrack (hs : Accounts s) (k : TrackKind) : s.Logs (s.endTrack k) := by
  rcases s.endTrack_cases k with ⟨-, hrun⟩ | ⟨t, ht, ha, hrun⟩ <;> rw [hrun]
  · exact of_events hs [] (by simp) fun _ => List.not_mem_nil
  · exact dispatch hs ht ha (Track.markEnd_loads (hs.tracks k t ht).sound) rfl

theorem endTracks (hs : Accounts s) : s.Logs ((s.endTrack .video).endTrack .audio) :=
  (endTrack hs .video).trans (endTrack (endTrack hs .video).accounts .audio)
    fun _ h => h.endTrack .audio

theorem streamStep (hs : Accounts s) (step : ReadStep) (data : List UInt8) (o : Nat) :
    s.Logs ((guarded (Engine.streamStep step data o)).run s).2 := by
  rcases streamStep_moves step data o s with hc | ⟨x, k, smp, hx, hc⟩ | hrun
  · exact calm hs hc
  · exact rests_trans hx ((deliver (hs.still hx.still) k smp).trans_calm hc)
  · rw [hrun]
    exact endTracks hs

end Source.Logs

section Opened

variable {x y : Source}

theorem SourceConfig.clampDepth_pos (d : Nat) : 0 < SourceConfig.clampDepth d := by
  unfold SourceConfig.clampDepth maxQueueDepth
  omega

theorem Source.Opened.new_tracks (hy : x.Opened y) (hnone : ∀ k, x.track k = none) (k : TrackKind)
    (t : Track) (ht : y.track k = some t) :
    t = Track.new k (SourceConfig.clampDepth x.config.queueDepth) := by
  rcases hy.tracks k with h | h <;> rw [h] at ht
  · exact (Option.some.inj ht).symm
  · rw [hnone k] at ht
    cases ht

theorem Core.no_tracks (hc : Core x) (hph : x.phase = .opening) (k : TrackKind) : x.track k = none := by
  obtain ⟨hv, ha⟩ := hc.fresh (.inr hph)
  cases k
  · exact hv
  · exact ha

theorem Accounts.opened (hs : Accounts x) (hph : x.phase = .opening) (hy : x.Opened y) :
    Accounts y := by
  have hnone := hs.no_tracks hph
  have hnew := hy.new_tracks hnone
  have hplay : ¬(y.phase = .started ∨ y.phase = .paused) := by simp [hy.phase]
  refine
    { word := fun h => by simp [hy.phase] at h
      fresh := fun h => by simp [hy.phase] at h
      opening := fun h => by simp [hy.phase] at h
      tracks := fun k t ht => ?_
      absent := fun k _ => by rw [hy.events]; exact hs.absent k (hnone k)
      log := by rw [hy.events]; exact hs.log
      running := fun k t ht hst => by rw [hnew k t ht] at hst; cases hst
      reported := by rw [hy.events]; exact hs.reported
      playing := fun h => absurd h hplay
      owing := fun h => absurd h (Nat.lt_irrefl 0)
      concludes := fun _ => by rw [hy.events]; exact hs.concludes (by simp [hph]) }
  obtain rfl := hnew k t ht
  refine ⟨Track.new_sound k _, SourceConfig.clampDepth_pos _, rfl, ?_, fun h => by cases h⟩
  simp only [Track.new, Bool.false_eq_true, false_iff]
  exact fun h => hs.absent k (hnone k) (by rw [← hy.events]; exact mem_of_mem_afterLast h)

theorem Source.Logs.opened (hs : Accounts x) (hph : x.phase = .opening) (hy : x.Opened y) :
    x.Logs y :=
  .of_events (hs.opened hph hy) [] (by simp [hy.events]) fun _ => List.not_mem_nil

theorem Source.Sealed.opened (h : x.Sealed) (hc : Core x) (hph : x.phase = .opening)
    (hy : x.Opened y) : y.Sealed := by
  have hnew := hy.new_tracks (hc.no_tracks hph)
  refine ⟨⟨fun k t ht hs => ?_, fun _ k t ht => ?_, fun _ _ _ hp => ?_,
    by rw [hy.events]; exact h.log⟩, fun ⟨k, t, ht, hact, _⟩ => ?_⟩
  · rw [hnew k t ht] at hs
    cases hs
  · rw [hnew k t ht]
    rfl
  · rw [hy.phase] at hp
    simp at hp
  · rw [hnew k t ht] at hact
    cases hact

end Opened

section Reading

variable {s : Source}

theorem Source.Quenched.of_track_eq {y : Source} (h : y.Quenched) (ht : ∀ k, y.track k = s.track k) :
    s.Quenched := by
  obtain ⟨k, t, hk, ha, he⟩ := h
  exact ⟨k, t, by rw [← ht k]; exact hk, ha, he⟩

theorem Source.Logs.scan (hs : Accounts s) (hph : s.phase = .opening) {m : Step Unit}
    (hm : Step.Opens m) : s.Logs ((guarded m).run s).2 := by
  rcases guarded_opens hm (hs.opening hph) with hc | ⟨x, y, hx, hy, hrun⟩
  · exact .calm hs hc
  · rw [hrun]
    exact .rests_trans hx (.opened (hs.still hx.still) (hx.still.phase.trans hph) hy)

theorem Source.Sealed.scan (h : s.Sealed) (hs : Accounts s) (hph : s.phase = .opening)
    {m : Step Unit} (hm : Step.Opens m) : ((guarded m).run s).2.Sealed := by
  have hq : ¬s.Quenched := fun ⟨k, t, ht, _⟩ => by rw [hs.no_tracks hph k] at ht; cases ht
  rcases guarded_opens hm (hs.opening hph) with hc | ⟨x, y, hx, hy, hrun⟩
  · exact h.calm hc hq
  · rw [hrun]
    exact (h.rests hx fun h' => absurd h' hq).opened (hs.still hx.still).toCore
      (hx.still.phase.trans hph) hy

/-- A sample handed to a track of a sealed demuxer that still reads: a selected track has not
reached the end of its stream, so it has not reported its end, and takes the sample; the
reading goes on. -/
theorem Source.Sealed.deliver (h : s.Sealed) (hc : Core s) (hq : ¬s.Quenched) (k : TrackKind)
    (smp : Sample) : ((deliver k smp).run s).2.Sealed ∧ ¬((deliver k smp).run s).2.Quenched := by
  rcases deliver_cases s (fun t ht => (hc.tracks k t ht).sound) smp with
    hrun | ⟨t, u, ht, ha, hu, -, hend, hrun⟩ <;> rw [hrun]
  · exact ⟨h, hq⟩
  have hopen : t.endOfStream = false := by
    cases he : t.endOfStream
    · rfl
    · exact absurd ⟨k, t, ht, ha, he⟩ hq
  have hsent : t.eosSent = false := by
    cases hs : t.eosSent
    · rfl
    · have := (hc.tracks k t ht).ended hs
      rw [hopen] at this
      cases this
  refine ⟨(h.dispatch hc ht hu (fun h' => by rw [hsent] at h'; cases h') hend).signal _, ?_⟩
  rintro ⟨j, t', ht', hact, hend'⟩
  rw [onSignal_track, Source.track_setTrack_events] at ht'
  split at ht'
  · cases ht'
    rw [Track.dispatch_endOfStream, hend, hopen] at hend'
    cases hend'
  · exact hq ⟨j, t', ht', hact, hend'⟩

theorem Source.endTrack_ended (s : Source) (k : TrackKind) (t : Track)
    (ht : (s.endTrack k).track k = some t) (ha : t.active = true) : t.endOfStream = true := by
  rcases s.endTrack_cases k with ⟨hna, hrun⟩ | ⟨t₀, -, -, hrun⟩ <;> rw [hrun] at ht
  · simp [Source.isActive, ht, ha] at hna
  · rw [onSignal_track, Source.track_setTrack_events, if_pos rfl] at ht
    cases ht
    simp [Track.markEnd]

theorem Source.Sealed.endTracks (h : s.Sealed) (hs : Accounts s) (hr : s.readInFlight = false)
    (hph : s.phase ≠ .stopped) : ((s.endTrack .video).endTrack .audio).Sealed := by
  have hd : ∀ x : Source, Accounts x → x.Drained → x.phase ≠ .stopped → ∀ k,
      (x.endTrack k).Drained := by
    intro x hx hdx hxph k
    rcases x.endTrack_cases k with ⟨-, hrun⟩ | ⟨t, ht, -, hrun⟩ <;> rw [hrun]
    · exact hdx
    · exact (hdx.dispatch hx.toCore ht (Track.markEnd_loads (hx.tracks k t ht).sound)
        (hdx.drained k t ht) fun h' => absurd h' hxph).signal _
  have hv := Source.Logs.endTrack hs .video
  have hmv := endTrack_minor s .video
  have hma := endTrack_minor (s.endTrack .video) .audio
  refine ⟨hd _ hv.accounts (hd s hs h.toDrained hph .video) (by rw [hmv.phase]; exact hph) .audio,
    fun _ => ⟨fun k t ht ha => ?_, by rw [hma.readInFlight, hmv.readInFlight, hr]⟩⟩
  cases k
  · rw [Source.endTrack_other _ _ (by decide)] at ht
    exact s.endTrack_ended .video t ht ha
  · exact (s.endTrack .video).endTrack_ended .audio t ht ha

theorem Source.Sealed.streamStep (h : s.Sealed) (hs : Accounts s) (hq : ¬s.Quenched)
    (hr : s.readInFlight = false) (hph : s.phase = .started ∨ s.phase = .paused)
    (step : ReadStep) (data : List UInt8) (o : Nat) :
    ((guarded (Engine.streamStep step data o)).run s).2.Sealed := by
  rcases streamStep_moves step data o s with hc | ⟨x, k, smp, hx, hc⟩ | hrun
  · exact h.calm hc hq
  · have hxq : ¬x.Quenched := fun hq' => hq (hq'.of_track_eq hx.still.track)
    obtain ⟨hd, hdq⟩ := (h.rests hx fun h' => absurd h' hq).deliver
      (hs.still hx.still).toCore hxq k smp
    exact hd.calm hc hdq
  · rw [hrun]
    exact h.endTracks hs hr (by rcases hph with h' | h' <;> simp [h'])

end Reading

end FlvDemux.Engine
