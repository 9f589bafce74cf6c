import FlvDemux.Proofs.EventLog
import FlvDemux.Proofs.Tasks
import FlvDemux.Proofs.TrackFlow

/-!
# What a demuxer keeps for the accounting of ends

`Tally n s` is what a demuxer keeps for the accounting of ends against its event log while `n`
reported ends wait to be counted, and `Accounts s` is the tally with none waiting. It is kept by a
dispatch (`Tally.dispatch`), by the counting (`Tally.count`), by steps that change nothing it
reads (`Still`), and by a failure.
-/

namespace FlvDemux.Engine

open Flv

namespace Track

section Ends

variable (t : Track)

theorem dispatch_events :
    t.dispatch.2.1 = (served t.dispatch.2.1).map (fun p => .sample t.kind p.1 p.2) ++
      if t.dispatch.2.2 = .endOfStream then [.endOfStream t.kind] else [] := by
  by_cases h : t.phase = .started
  · rw [dispatch_of_started h]
    have hev := serve_events t.refill t.requests
    rw [refill_kind] at hev
    by_cases he : (t.refill.serve t.requests).1.Ends
    · rw [conclude_of_ends he]
      simp only [served_append, served_cons, Event.served?, Option.toList_none, served_nil, List.append_nil, if_true, serve_kind, refill_kind]
      rw [← hev]
    · obtain ⟨-, hevs, hsig⟩ := conclude_of_not_ends he (t.refill.serve t.requests).2
      rw [hevs, if_neg hsig, List.append_nil]
      exact hev
  · simp [dispatch_of_not_started h]

theorem dispatch_eosSent :
    t.dispatch.1.eosSent = (t.eosSent || decide (t.dispatch.2.2 = .endOfStream)) := by
  by_cases h : t.phase = .started
  · rw [dispatch_of_started h]
    by_cases he : (t.refill.serve t.requests).1.Ends
    · simp [conclude_of_ends he]
    · obtain ⟨hu, -, hsig⟩ := conclude_of_not_ends he (t.refill.serve t.requests).2
      simp [hu, hsig]
  · simp [dispatch_of_not_started h]

theorem dispatch_signal_end (h : t.dispatch.2.2 = .endOfStream) :
    t.phase = .started ∧ t.endOfStream = true ∧ t.eosSent = false ∧ t.dispatch.1.samples = [] := by
  by_cases hs : t.phase = .started
  · rw [dispatch_of_started hs] at h ⊢
    by_cases he : (t.refill.serve t.requests).1.Ends
    · obtain ⟨hsam, hend, hsent⟩ := he
      rw [conclude_of_ends ⟨hsam, hend, hsent⟩]
      simp only [serve_endOfStream, refill_endOfStream, serve_eosSent, refill_eosSent] at hend hsent
      exact ⟨hs, hend, hsent, hsam⟩
    · exact absurd h (conclude_of_not_ends he _).2.2
  · simp [dispatch_of_not_started hs] at h

theorem dispatch_overflow_of_end {t : Track} (hp : t.Packed) (hd : 0 < t.depth)
    (h : t.dispatch.2.2 = .endOfStream) : t.dispatch.1.overflow = [] := by
  have hs := (dispatch_signal_end t h).2.2.2
  have hpacked : t.dispatch.1.Packed := by
    rw [dispatch_of_started (dispatch_signal_end t h).1, conclude_track]
    exact serve_packed t.refill t.requests (refill_packed t hp.1)
  by_contra hne
  have hlen := hpacked.2 hne
  rw [hs, dispatch_depth] at hlen
  simp at hlen
  omega

theorem dispatch_served_nil {t : Track} (hs : t.samples = []) (ho : t.overflow = []) :
    served t.dispatch.2.1 = [] := by
  have h := dispatch_samples t
  rw [hs, ho, List.append_nil] at h
  simp only [List.append_eq_nil_iff, List.map_eq_nil_iff] at h
  exact h.1.1

theorem mem_dispatch_events {e : Event} (h : e ∈ t.dispatch.2.1) :
    (∃ x tok, e = .sample t.kind x tok) ∨ e = .endOfStream t.kind ∧ t.dispatch.2.2 = .endOfStream := by
  rw [dispatch_events] at h
  rcases List.mem_append.1 h with h | h
  · obtain ⟨p, -, rfl⟩ := List.mem_map.1 h
    exact .inl ⟨p.1, p.2, rfl⟩
  · split at h
    · exact .inr ⟨List.mem_singleton.1 h, by assumption⟩
    · simp at h

theorem dispatch_steady : Steady t.dispatch.2.1 := by
  intro e he
  rcases mem_dispatch_events t he with ⟨x, tok, rfl⟩ | ⟨rfl, -⟩ <;> rfl

theorem endOfStream_mem_dispatch {j : TrackKind} :
    .endOfStream j ∈ t.dispatch.2.1 ↔ j = t.kind ∧ t.dispatch.2.2 = .endOfStream := by
  constructor
  · intro h
    rcases mem_dispatch_events t h with ⟨x, tok, h⟩ | ⟨h, hs⟩
    · cases h
    · cases h
      exact ⟨rfl, hs⟩
  · rintro ⟨rfl, hs⟩
    rw [dispatch_events, if_pos hs]
    simp

theorem endOfPresentation_not_mem_dispatch : .endOfPresentation ∉ t.dispatch.2.1 := fun h => by
  rcases mem_dispatch_events t h with ⟨x, tok, h⟩ | ⟨h, -⟩ <;> cases h

end Ends

/-- A track as its demuxer's log `L` tells it: in shape, with room for a sample, of its kind,
and having reported its end in the current epoch exactly when its flag says so, which only an
ended stream does. -/
structure Accounted (L : List Event) (k : TrackKind) (t : Track) : Prop where
  sound : t.Sound
  depth : 0 < t.depth
  kind : t.kind = k
  sent : t.eosSent = true ↔ .endOfStream k ∈ sinceStop L
  ended : t.eosSent = true → t.endOfStream = true

theorem Accounted.append {L M : List Event} {k : TrackKind} {t : Track} (h : t.Accounted L k)
    (hM : Steady M) (hk : .endOfStream k ∉ M) : t.Accounted (L ++ M) k :=
  ⟨h.sound, h.depth, h.kind, by rw [hM.sinceStop_append, List.mem_append, or_iff_left hk]; exact h.sent,
    h.ended⟩

end Track

namespace Source

/-- The number of selected tracks that have not reported their end. -/
def unended (s : Source) : Nat :=
  TrackKind.all.countP fun k => (s.track k).any fun t => t.active && !t.eosSent

theorem unended_eq_zero {s : Source} :
    s.unended = 0 ↔ ∀ k t, s.track k = some t → t.active = true → t.eosSent = true := by
  simp only [unended, List.countP_eq_zero, TrackKind.all, List.mem_cons, List.mem_nil_iff,
    or_false, Option.any_eq_true, Bool.and_eq_true, Bool.not_eq_true', not_exists, not_and]
  constructor
  · intro h k t ht ha
    cases hs : t.eosSent
    · cases k <;> simp_all
    · rfl
  · rintro h k - t ht ha
    simp [h k t ht ha]

theorem unended_setTrack {s : Source} {k : TrackKind} {t : Track} (ht : s.track k = some t)
    (t' : Track) :
    (s.setTrack k t').unended + (if t.active && !t.eosSent then 1 else 0) =
      s.unended + (if t'.active && !t'.eosSent then 1 else 0) := by
  cases k <;> simp only [track] at ht <;>
    simp only [unended, TrackKind.all, List.countP_cons, List.countP_nil, track, setTrack, ht,
      Option.any_some] <;> split_ifs <;> omega

end Source

/-- `s'` is `s` with nothing changed that the accounting of ends reads: the same tracks, end
bookkeeping, events, phase and session, and a stream if `s` had one. -/
structure Source.Still (s s' : Source) : Prop where
  video : s'.video = s.video
  audio : s'.audio = s.audio
  pendingEos : s'.pendingEos = s.pendingEos
  eopSent : s'.eopSent = s.eopSent
  events : s'.events = s.events
  phase : s'.phase = s.phase
  session : s'.session = s.session
  stream : s.stream.isSome → s'.stream.isSome

namespace Source.Still

variable {s s' s'' : Source}

theorem refl (s : Source) : s.Still s :=
  ⟨rfl, rfl, rfl, rfl, rfl, rfl, rfl, id⟩

theorem trans (h : s.Still s') (h' : s'.Still s'') : s.Still s'' :=
  ⟨h'.video.trans h.video, h'.audio.trans h.audio, h'.pendingEos.trans h.pendingEos,
    h'.eopSent.trans h.eopSent, h'.events.trans h.events, h'.phase.trans h.phase,
    h'.session.trans h.session, fun hs => h'.stream (h.stream hs)⟩

theorem track (h : s.Still s') (k : TrackKind) : s'.track k = s.track k := by
  cases k
  · exact h.video
  · exact h.audio

theorem isActive (h : s.Still s') (k : TrackKind) : s'.isActive k = s.isActive k := by
  simp [Source.isActive, h.track k]

theorem unended (h : s.Still s') : s'.unended = s.unended := by
  simp [Source.unended, h.track]

end Source.Still

/-- What the tracks and the log of a demuxer keep, through every step and inside them: a
shut-down demuxer is shut down for good; a demuxer not opened yet has no tracks, and one opening
has a stream; each track agrees with the log; a track the file lacks never ended; and every event
of the log follows the rule of the ends. -/
structure Core (s : Source) : Prop where
  word : s.phase = .shutdown → s.session.word &&& shutdownBit ≠ 0
  fresh : s.phase = .invalid ∨ s.phase = .opening → s.video = none ∧ s.audio = none
  opening : s.phase = .opening → s.stream.isSome
  tracks : ∀ k t, s.track k = some t → t.Accounted s.events k
  absent : ∀ k, s.track k = none → .endOfStream k ∉ s.events
  log : Every EndRule s.events

/-- What a playing demuxer keeps, with `n` reported ends not counted yet: its start is live; the
count of tracks still to end, and of the ends to count, is `pendingEos`; the presentation has
ended since the start exactly when `eopSent` says so; the selected tracks are those of the
latest start; and once nothing is left to count, a track of the start that ended after it was
announced has ended the presentation. -/
structure Playing (n : Nat) (s : Source) : Prop where
  live : LiveStart s.events
  pending : s.pendingEos = s.unended + n
  eop : s.eopSent = true ↔ .endOfPresentation ∈ sinceStart s.events
  selected : ∀ k, k ∈ (selection s.events).latest ↔ s.isActive k = true
  owed : s.pendingEos = 0 →
    (∃ k ∈ (selection s.events).latest, .endOfStream k ∈ afterLast (Event.announces k) s.events) →
    s.eopSent = true

/-- The accounting of ends with `n` reported ends waiting to be counted. Ends are reported only
by started tracks, which only a playing demuxer has; no start is half reported; and a demuxer
that is not playing has concluded the presentation when it should. -/
structure Tally (n : Nat) (s : Source) : Prop extends Core s where
  running : ∀ k t, s.track k = some t → t.phase = .started → s.phase = .started ∨ s.phase = .paused
  reported : (selection s.events).announced = []
  playing : s.phase = .started ∨ s.phase = .paused → Playing n s
  owing : 0 < n → s.phase = .started ∨ s.phase = .paused
  concludes : ¬(s.phase = .started ∨ s.phase = .paused) → Concludes s.events

/-- The accounting of ends between the steps of a demuxer: nothing waits to be counted. -/
abbrev Accounts (s : Source) : Prop := Tally 0 s


section Still

variable {n : Nat} {s s' : Source}

theorem Core.still (hc : Core s) (h : s.Still s') : Core s' where
  word hp := by rw [h.session]; exact hc.word (by rw [← h.phase]; exact hp)
  fresh hp := by rw [h.video, h.audio]; exact hc.fresh (by rw [← h.phase]; exact hp)
  opening hp := h.stream (hc.opening (by rw [← h.phase]; exact hp))
  tracks k t ht := by rw [h.events]; exact hc.tracks k t (by rw [← h.track k]; exact ht)
  absent k ht := by rw [h.events]; exact hc.absent k (by rw [← h.track k]; exact ht)
  log := h.events ▸ hc.log

theorem Playing.still (hp : Playing n s) (h : s.Still s') : Playing n s' where
  live := h.events ▸ hp.live
  pending := by rw [h.pendingEos, h.unended]; exact hp.pending
  eop := by rw [h.eopSent, h.events]; exact hp.eop
  selected k := by rw [h.events, h.isActive]; exact hp.selected k
  owed := by rw [h.pendingEos, h.events, h.eopSent]; exact hp.owed

theorem Tally.still (hs : Tally n s) (h : s.Still s') : Tally n s' where
  toCore := hs.toCore.still h
  running k t ht hst := by rw [h.phase]; exact hs.running k t (by rw [← h.track k]; exact ht) hst
  reported := h.events ▸ hs.reported
  playing hph := (hs.playing (by rw [← h.phase]; exact hph)).still h
  owing hn := by rw [h.phase]; exact hs.owing hn
  concludes hph := h.events ▸ hs.concludes (by rw [← h.phase]; exact hph)

end Still

theorem Playing.concludes {s : Source} (hc : Core s) (hp : Playing 0 s) : Concludes s.events := by
  intro _ hall hone
  rw [← hp.eop]
  apply hp.owed _ hone
  rw [hp.pending, Nat.add_zero, Source.unended_eq_zero]
  intro j t ht ha
  have hj : j ∈ (selection s.events).latest := (hp.selected j).2 (by simp [Source.isActive, ht, ha])
  exact (hc.tracks j t ht).sent.2 (hall j hj)

theorem Tally.concluded {s : Source} (hs : Tally 0 s) : Concludes s.events := by
  by_cases hph : s.phase = .started ∨ s.phase = .paused
  · exact (hs.playing hph).concludes hs.toCore
  · exact hs.concludes hph

section Plain

variable {n : Nat} {s : Source} {M : List Event}

theorem Core.plain (hc : Core s) (hM : Plain M) : Core { s with events := s.events ++ M } where
  word := hc.word
  fresh := hc.fresh
  opening := hc.opening
  tracks k t ht := (hc.tracks k t ht).append hM.steady (hM.not_mem (e := .endOfStream k) rfl)
  absent k ht := by
    show .endOfStream k ∉ s.events ++ M
    rw [hM.mem_append_iff (e := .endOfStream k) rfl]
    exact hc.absent k ht
  log := (hM.every_end s.events).2 hc.log

theorem Playing.plain (hp : Playing n s) (hM : Plain M) :
    Playing n { s with events := s.events ++ M } where
  live := (hM.steady.liveStart_append s.events).2 hp.live
  pending := hp.pending
  eop := by
    show s.eopSent = true ↔ _ ∈ sinceStart (s.events ++ M)
    rw [hM.steady.sinceStart_append, hM.mem_append_iff (e := .endOfPresentation) rfl]
    exact hp.eop
  selected k := by
    show k ∈ (selection (s.events ++ M)).latest ↔ _
    rw [hM.steady.selection_append]
    exact hp.selected k
  owed h0 hone := by
    obtain ⟨k, hk, hm⟩ := hone
    change k ∈ (selection (s.events ++ M)).latest at hk
    change _ ∈ afterLast _ (s.events ++ M) at hm
    rw [hM.steady.selection_append] at hk
    rw [hM.steady.afterLast_announces, hM.mem_append_iff (e := .endOfStream k) rfl] at hm
    exact hp.owed h0 ⟨k, hk, hm⟩

theorem Tally.plain (hs : Tally n s) (hM : Plain M) : Tally n { s with events := s.events ++ M } where
  toCore := hs.toCore.plain hM
  running := hs.running
  reported := by
    show (selection (s.events ++ M)).announced = []
    rw [hM.steady.selection_append]
    exact hs.reported
  playing hph := (hs.playing hph).plain hM
  owing := hs.owing
  concludes hph := hM.concludes (hs.concludes hph)

end Plain

section Failure

variable {s : Source}

theorem shutdownNow_track (h : s.phase ≠ .shutdown) (k : TrackKind) :
    (shutdownNow.run s).2.track k = (s.track k).map Track.shutdown := by
  cases k <;> simp [shutdownNow, h, Source.track] <;> split <;> rfl

theorem Track.Accounted.shutdown {L : List Event} {k : TrackKind} {t : Track}
    (h : t.Accounted L k) : t.shutdown.Accounted L k :=
  ⟨Track.shutdown_sound, h.depth, h.kind, h.sent, h.ended⟩

theorem Accounts.shutdown (hs : Accounts s) : Accounts (shutdownNow.run s).2 := by
  by_cases hdown : s.phase = .shutdown
  · rw [shutdownNow_of_shutdown hdown]
    exact hs
  have htr : ∀ k, (shutdownNow.run s).2.track k = (s.track k).map Track.shutdown :=
    shutdownNow_track hdown
  have hev : (shutdownNow.run s).2.events = s.events := shutdownNow_events s
  refine ⟨⟨fun _ => ?_, fun h => by simp at h, fun h => by simp at h, fun k t ht => ?_,
    fun k ht => ?_, ?_⟩, fun k t ht hst => ?_, ?_, fun h => by simp at h,
    fun h => absurd h (by omega), fun _ => ?_⟩
  · rw [shutdownNow_session hdown]
    exact s.session.shutdown_bit
  · rw [htr k, Option.map_eq_some_iff] at ht
    obtain ⟨t₀, ht₀, rfl⟩ := ht
    rw [hev]
    exact (hs.tracks k t₀ ht₀).shutdown
  · rw [htr k, Option.map_eq_none_iff] at ht
    rw [hev]
    exact hs.absent k ht
  · rw [hev]
    exact hs.log
  · rw [htr k, Option.map_eq_some_iff] at ht
    obtain ⟨t₀, -, rfl⟩ := ht
    simp [Track.shutdown] at hst
  · rw [hev]
    exact hs.reported
  · rw [hev]
    exact hs.concluded

theorem fail_run (e : SourceError) (s : Source) :
    (∃ x, s.Still x ∧ ((fail e).run s).2 = (shutdownNow.run x).2) ∨
      ((fail e).run s).2 = (shutdownNow.run { s with events := s.events ++ [.error e] }).2 := by
  simp only [fail, StateT.run_bind, StateT.run_get, bind_id_eq, pure_id_eq]
  split
  · exact .inl ⟨{ s with awaitingOpen := false, openResult := some (.error e) },
      ⟨rfl, rfl, rfl, rfl, rfl, rfl, rfl, id⟩, rfl⟩
  · exact .inr rfl

theorem Accounts.fail (hs : Accounts s) (e : SourceError) : Accounts ((fail e).run s).2 := by
  have hM : Plain [.error e] := by
    intro e' he'
    rw [List.mem_singleton] at he'
    simp [he', Event.isMark, Event.isControl]
  rcases fail_run e s with ⟨x, hx, hrun⟩ | hrun
  · rw [hrun]
    exact Accounts.shutdown (hs.still hx)
  · rw [hrun]
    exact Accounts.shutdown (hs.plain hM)

end Failure

section Records

variable (s : Source) (k j : TrackKind) (t : Track) (E : List Event)

theorem Source.track_congr (s s' : Source) (hv : s'.video = s.video) (ha : s'.audio = s.audio)
    (j : TrackKind) : s'.track j = s.track j := by
  cases j
  · exact hv
  · exact ha

theorem Source.unended_congr (s s' : Source) (hv : s'.video = s.video) (ha : s'.audio = s.audio) :
    s'.unended = s.unended := by
  simp [Source.unended, Source.track_congr s s' hv ha]

theorem Source.isActive_congr (s s' : Source) (hv : s'.video = s.video) (ha : s'.audio = s.audio)
    (j : TrackKind) : s'.isActive j = s.isActive j := by
  simp [Source.isActive, Source.track_congr s s' hv ha]

@[simp] theorem Source.setTrack_phase : (s.setTrack k t).phase = s.phase := by cases k <;> rfl
@[simp] theorem Source.setTrack_session : (s.setTrack k t).session = s.session := by cases k <;> rfl
@[simp] theorem Source.setTrack_stream : (s.setTrack k t).stream = s.stream := by cases k <;> rfl
@[simp] theorem Source.setTrack_events : (s.setTrack k t).events = s.events := by cases k <;> rfl
@[simp] theorem Source.setTrack_pendingEos : (s.setTrack k t).pendingEos = s.pendingEos := by
  cases k <;> rfl
@[simp] theorem Source.setTrack_eopSent : (s.setTrack k t).eopSent = s.eopSent := by
  cases k <;> rfl
@[simp] theorem Source.setTrack_tasks : (s.setTrack k t).tasks = s.tasks := by cases k <;> rfl
@[simp] theorem Source.setTrack_pending : (s.setTrack k t).pending = s.pending := by
  cases k <;> rfl

theorem Source.isActive_setTrack : (s.setTrack k t).isActive j = if j = k then t.active else s.isActive j := by
  by_cases h : j = k <;> simp [Source.isActive, h]

end Records

theorem plain_samples (k : TrackKind) (xs : List (Sample × Option UInt64)) :
    Plain (xs.map fun p => .sample k p.1 p.2) := by
  intro e he
  obtain ⟨p, -, rfl⟩ := List.mem_map.1 he
  rfl

section Dispatch

variable {n : Nat} {s : Source} {k : TrackKind} {t u : Track} {pre : List Event}

/-- A track operation that reports `pre` and dispatches `u` in place of the track of kind `k`
keeps the tracks and the log in agreement: the track reports its end only if it had not, and no
other track's account moves. -/
theorem Core.dispatch (hc : Core s) (ht : s.track k = some t) (hu : u.Packed) (hi : u.Idle)
    (hd : 0 < u.depth) (hk : u.kind = k) (he : u.eosSent = t.eosSent)
    (hend : u.eosSent = true → u.endOfStream = true) (hpre : Plain pre) :
    Core { s.setTrack k u.dispatch.1 with events := s.events ++ (pre ++ u.dispatch.2.1) } := by
  set x : Source := { s.setTrack k u.dispatch.1 with events := s.events ++ (pre ++ u.dispatch.2.1) }
    with hx
  have hxtrack : ∀ j, x.track j = if j = k then some u.dispatch.1 else s.track j := fun j => by
    rw [Source.track_congr (s.setTrack k u.dispatch.1) x rfl rfl, Source.track_setTrack]
  have hsteady : Steady (pre ++ u.dispatch.2.1) := hpre.steady.append u.dispatch_steady
  have hmem : ∀ j, .endOfStream j ∈ pre ++ u.dispatch.2.1 ↔ j = k ∧ u.dispatch.2.2 = .endOfStream := by
    intro j
    rw [List.mem_append, u.endOfStream_mem_dispatch, hk]
    simp [hpre.not_mem (e := .endOfStream j) rfl]
  have hnot : s.phase ≠ .invalid ∧ s.phase ≠ .opening := by
    constructor <;> intro hph <;> have := hc.fresh (by simp [hph]) <;>
      cases k <;> simp_all [Source.track]
  obtain ⟨S, hS, hsplit⟩ : ∃ S, Plain S ∧ u.dispatch.2.1 = S ++
      if u.dispatch.2.2 = .endOfStream then [.endOfStream u.kind] else [] :=
    ⟨_, plain_samples _ _, u.dispatch_events⟩
  have hxph : x.phase = s.phase := by simp [hx]
  refine ⟨fun hph => by
      rw [show x.session = s.session by simp [hx]]
      exact hc.word (by rw [← hxph]; exact hph),
    fun hph => by
      rw [hxph] at hph
      rcases hph with h | h
      · exact absurd h hnot.1
      · exact absurd h hnot.2,
    fun hph => by rw [hxph] at hph; exact absurd hph hnot.2, fun j t' ht' => ?_, fun j ht' => ?_, ?_⟩
  · rw [hxtrack] at ht'
    split at ht'
    · subst j
      cases ht'
      refine ⟨Track.dispatch_sound hu hi, by rw [Track.dispatch_depth]; exact hd, by rw [Track.dispatch_kind, hk], ?_,
        fun h => ?_⟩
      · rw [hsteady.sinceStop_append, List.mem_append, hmem, Track.dispatch_eosSent, he,
          ← (hc.tracks k t ht).sent]
        simp
      · rw [Track.dispatch_endOfStream]
        rw [Track.dispatch_eosSent] at h
        rcases Bool.or_eq_true_iff.1 h with h | h
        · exact hend h
        · exact (u.dispatch_signal_end (by simpa using h)).2.1
    · exact (hc.tracks j t' ht').append hsteady (by rw [hmem]; simp [*])
  · rw [hxtrack] at ht'
    split at ht'
    · cases ht'
    · rw [List.mem_append, hmem]
      simp [*, hc.absent j ht']
  · show Every EndRule (s.events ++ (pre ++ u.dispatch.2.1))
    rw [hsplit, ← List.append_assoc, ← List.append_assoc]
    split
    · rename_i hsig
      rw [every_concat, hS.every_end, hpre.every_end]
      refine ⟨hc.log, ?_⟩
      show .endOfStream u.kind ∉ sinceStop (s.events ++ pre ++ S)
      rw [hS.steady.sinceStop_append, hpre.steady.sinceStop_append, hk,
        hS.mem_append_iff (e := .endOfStream k) rfl, hpre.mem_append_iff (e := .endOfStream k) rfl,
        ← (hc.tracks k t ht).sent, ← he, (u.dispatch_signal_end hsig).2.2.1]
      simp
    · rw [List.append_nil, hS.every_end, hpre.every_end]
      exact hc.log

theorem Source.unended_dispatch (ht : s.track k = some t) (he : u.eosSent = t.eosSent)
    (ha : u.active = t.active) (hsel : u.dispatch.2.2 = .endOfStream → t.active = true) :
    s.unended = (s.setTrack k u.dispatch.1).unended +
      if u.dispatch.2.2 = .endOfStream then 1 else 0 := by
  have h := Source.unended_setTrack ht u.dispatch.1
  rw [Track.dispatch_active, Track.dispatch_eosSent, ha, he] at h
  split
  · rename_i hsig
    have hsent := (u.dispatch_signal_end hsig).2.2.1
    rw [he] at hsent
    simp [hsent, hsel hsig, hsig] at h
    omega
  · rename_i hsig
    simp [hsig] at h
    omega

theorem Playing.dispatch (hp : Playing n s) (ht : s.track k = some t) (he : u.eosSent = t.eosSent)
    (ha : u.active = t.active) (hsel : u.dispatch.2.2 = .endOfStream → t.active = true)
    (hpre : Plain pre) :
    Playing (n + if u.dispatch.2.2 = .endOfStream then 1 else 0)
      { s.setTrack k u.dispatch.1 with events := s.events ++ (pre ++ u.dispatch.2.1) } := by
  set x : Source := { s.setTrack k u.dispatch.1 with events := s.events ++ (pre ++ u.dispatch.2.1) }
    with hx
  have hxact : ∀ j, x.isActive j = if j = k then u.dispatch.1.active else s.isActive j := fun j => by
    rw [Source.isActive_congr (s.setTrack k u.dispatch.1) x rfl rfl, Source.isActive_setTrack]
  have hxpe : x.pendingEos = s.pendingEos := by simp [hx]
  have hxeop : x.eopSent = s.eopSent := by simp [hx]
  have hcount : s.unended = x.unended + if u.dispatch.2.2 = .endOfStream then 1 else 0 := by
    rw [Source.unended_congr (s.setTrack k u.dispatch.1) x rfl rfl]
    exact Source.unended_dispatch ht he ha hsel
  have hsteady : Steady (pre ++ u.dispatch.2.1) := hpre.steady.append u.dispatch_steady
  have heop : .endOfPresentation ∉ pre ++ u.dispatch.2.1 := by
    simp [hpre.not_mem (e := .endOfPresentation) rfl, u.endOfPresentation_not_mem_dispatch]
  refine ⟨?_, ?_, ?_, fun j => ?_, fun h0 hone => ?_⟩
  · show LiveStart (s.events ++ (pre ++ u.dispatch.2.1))
    rw [hsteady.liveStart_append]; exact hp.live
  · rw [hxpe, hp.pending, hcount]
    omega
  · rw [hxeop, hp.eop]
    show _ ↔ _ ∈ sinceStart (s.events ++ (pre ++ u.dispatch.2.1))
    rw [hsteady.sinceStart_append, List.mem_append, or_iff_left heop]
  · show j ∈ (selection (s.events ++ (pre ++ u.dispatch.2.1))).latest ↔ _
    rw [hsteady.selection_append, hxact, hp.selected j]
    split
    · subst j
      simp [Source.isActive, ht, Track.dispatch_active, ha]
    · rfl
  · rw [hxpe] at h0
    have hsig : u.dispatch.2.2 ≠ .endOfStream := by
      intro hsig
      rw [hp.pending, hcount, if_pos hsig] at h0
      omega
    have hnoend : ∀ j, .endOfStream j ∉ pre ++ u.dispatch.2.1 := by
      intro j hj
      rw [List.mem_append, u.endOfStream_mem_dispatch] at hj
      rcases hj with hj | hj
      · exact hpre.not_mem (e := .endOfStream j) rfl hj
      · exact hsig hj.2
    obtain ⟨j, hj, hm⟩ := hone
    change j ∈ (selection (s.events ++ (pre ++ u.dispatch.2.1))).latest at hj
    change _ ∈ afterLast _ (s.events ++ (pre ++ u.dispatch.2.1)) at hm
    rw [hsteady.selection_append] at hj
    rw [hsteady.afterLast_announces, List.mem_append, or_iff_left (hnoend j)] at hm
    rw [hxeop]
    exact hp.owed h0 ⟨j, hj, hm⟩

/-- A track operation that dispatches keeps the tally, with the end it may report left to
count. Only a selected track may report its end, and only a started one, which only a playing
demuxer has. -/
theorem Tally.dispatch (hs : Tally n s) (ht : s.track k = some t) (hu : u.Packed) (hi : u.Idle)
    (hd : 0 < u.depth) (hk : u.kind = k) (he : u.eosSent = t.eosSent)
    (hend : u.eosSent = true → u.endOfStream = true) (ha : u.active = t.active)
    (hsel : u.dispatch.2.2 = .endOfStream → t.active = true)
    (hph : u.phase = .started → s.phase = .started ∨ s.phase = .paused) (hpre : Plain pre) :
    Tally (n + if u.dispatch.2.2 = .endOfStream then 1 else 0)
      { s.setTrack k u.dispatch.1 with events := s.events ++ (pre ++ u.dispatch.2.1) } := by
  set x : Source := { s.setTrack k u.dispatch.1 with events := s.events ++ (pre ++ u.dispatch.2.1) }
    with hx
  have hxtrack : ∀ j, x.track j = if j = k then some u.dispatch.1 else s.track j := fun j => by
    rw [Source.track_congr (s.setTrack k u.dispatch.1) x rfl rfl, Source.track_setTrack]
  have hxph : x.phase = s.phase := by simp [hx]
  refine ⟨hs.toCore.dispatch ht hu hi hd hk he hend hpre, fun j t' ht' hst => ?_, ?_,
    fun hplay => ?_, fun hn => ?_, fun hplay => ?_⟩
  · rw [hxtrack] at ht'
    rw [hxph]
    split at ht'
    · cases ht'
      rw [Track.dispatch_phase] at hst
      exact hph hst
    · exact hs.running j t' ht' hst
  · show (selection (s.events ++ (pre ++ u.dispatch.2.1))).announced = []
    rw [(hpre.steady.append u.dispatch_steady).selection_append]; exact hs.reported
  · rw [hxph] at hplay
    exact (hs.playing hplay).dispatch ht he ha hsel hpre
  · rw [hxph]
    rcases Nat.eq_zero_or_pos n with rfl | hn'
    · rw [Nat.zero_add] at hn
      split at hn
      · rename_i hsig
        exact hph (u.dispatch_signal_end hsig).1
      · simp at hn
    · exact hs.owing hn'
  · rw [hxph] at hplay
    have hsig : u.dispatch.2.2 ≠ .endOfStream := fun hsig =>
      hplay (hph (u.dispatch_signal_end hsig).1)
    have hplain : Plain (pre ++ u.dispatch.2.1) := by
      refine hpre.append fun e he' => ?_
      rcases u.mem_dispatch_events he' with ⟨x, tok, rfl⟩ | ⟨-, hs'⟩
      · rfl
      · exact absurd hs' hsig
    exact hplain.concludes (hs.concludes hplay)

theorem Tally.count (hs : Tally (n + 1) s) : Tally n ((onSignal .endOfStream).run s).2 := by
  have hplay := hs.owing (Nat.succ_pos n)
  have hp := hs.playing hplay
  have hpos : s.pendingEos ≠ 0 := by rw [hp.pending]; omega
  simp only [onSignal, StateT.run_modify, pure_id_eq, ne_eq, not_true_eq_false, decide_false,
    Bool.false_or, decide_eq_true_eq, hpos, if_false]
  split
  · rename_i hlast
    simp only [Bool.and_eq_true, decide_eq_true_eq, Bool.not_eq_true'] at hlast
    have hn : n = 0 := by rw [hp.pending] at hlast; omega
    subst hn
    have hall : s.unended = 0 := by rw [hp.pending] at hlast; omega
    have hsteady : Steady [Event.endOfPresentation] := Steady.singleton rfl
    refine ⟨⟨fun h => hs.word h, hs.fresh, hs.opening, fun j t ht => ?_, fun j ht => ?_, ?_⟩,
      hs.running, by rw [hsteady.selection_append]; exact hs.reported, fun _ => ?_,
      fun h => absurd h (by omega), fun h => absurd hplay h⟩
    · exact (hs.tracks j t ht).append hsteady (by simp)
    · rw [List.mem_append, not_or]
      exact ⟨hs.absent j ht, by simp⟩
    · rw [every_concat]
      refine ⟨hs.log, hp.live, by rw [← hp.eop, hlast.2]; simp, fun j hj => ?_⟩
      obtain ⟨t, ht, ha⟩ : ∃ t, s.track j = some t ∧ t.active = true := by
        have := (hp.selected j).1 hj
        simp only [Source.isActive, Option.any_eq_true] at this
        exact this
      exact (hs.tracks j t ht).sent.1 (Source.unended_eq_zero.1 hall j t ht ha)
    · refine ⟨by rw [hsteady.liveStart_append]; exact hp.live, ?_, ?_, fun j => ?_,
        fun _ _ => rfl⟩
      · show s.pendingEos - 1 = s.unended + 0
        omega
      · simp [hsteady.sinceStart_append]
      · rw [hsteady.selection_append]; exact hp.selected j
  · rename_i hmore
    simp only [Bool.and_eq_true, decide_eq_true_eq, Bool.not_eq_true', not_and] at hmore
    refine ⟨⟨hs.word, hs.fresh, hs.opening,
      fun j t ht => hs.tracks j t ht, fun j ht => hs.absent j ht, hs.log⟩,
      fun j t ht => hs.running j t ht, hs.reported,
      fun _ => ?_, fun _ => hplay, fun h => absurd hplay h⟩
    refine ⟨hp.live, ?_, hp.eop, hp.selected,
      fun h0 _ => ?_⟩
    · show s.pendingEos - 1 = s.unended + n
      rw [hp.pending]
      omega
    simp only at h0
    cases he : s.eopSent
    · exact absurd he (by simpa using hmore h0)
    · rfl

theorem onSignal_other {sig : Signal} (h : sig ≠ .endOfStream) (s : Source) :
    ((onSignal sig).run s).2 = s := by
  simp [onSignal, h]

theorem Tally.signal (sig : Signal) (hs : Tally (n + if sig = .endOfStream then 1 else 0) s) :
    Tally n ((onSignal sig).run s).2 := by
  split at hs
  · subst sig
    exact hs.count
  · rename_i h
    rw [onSignal_other h]
    simpa using hs

theorem Tally.signals (sigs : List Signal) (hs : Tally (n + sigs.count .endOfStream) s) :
    Tally n ((sigs.forM onSignal).run s).2 := by
  induction sigs generalizing s n with
  | nil => simpa using hs
  | cons sig sigs ih =>
    have hrun : ((sig :: sigs).forM onSignal).run s =
        (sigs.forM onSignal).run ((onSignal sig).run s).2 := rfl
    rw [hrun]
    apply ih
    apply Tally.signal
    rw [List.count_cons] at hs
    simpa [Nat.add_assoc, Nat.add_comm] using hs

end Dispatch

section Operations

variable {s : Source} {k : TrackKind} {t u : Track}

theorem onTrack_none (ht : s.track k = none) (g : Track → Track × List Event × Signal) :
    (onTrack k g).run s = (.none, s) := by
  simp [onTrack, ht]

theorem onTrack_some (ht : s.track k = some t) (g : Track → Track × List Event × Signal) :
    (onTrack k g).run s =
      ((g t).2.2, { s.setTrack k (g t).1 with events := s.events ++ (g t).2.1 }) := by
  cases k <;> simp [onTrack, ht, emit, Source.setTrack]

/-- `u` is `t` with samples given, requests filed, the end of its stream marked or started:
what an operation on a selected track does to it before it dispatches. -/
structure Track.Loads (t u : Track) : Prop where
  kind : u.kind = t.kind
  active : u.active = t.active
  depth : u.depth = t.depth
  eosSent : u.eosSent = t.eosSent
  ended : t.endOfStream = true → u.endOfStream = true
  packed : u.Packed
  idle : u.Idle

theorem Accounts.dispatch (hs : Accounts s) (ht : s.track k = some t) (ha : t.active = true)
    (hu : t.Loads u) (hph : u.phase = t.phase) :
    Accounts ((onSignal u.dispatch.2.2).run
      { s.setTrack k u.dispatch.1 with events := s.events ++ u.dispatch.2.1 }).2 := by
  have hacc := hs.tracks k t ht
  exact Tally.signal _ (Tally.dispatch hs ht hu.packed hu.idle (by rw [hu.depth]; exact hacc.depth)
    (by rw [hu.kind, hacc.kind]) hu.eosSent (fun h => hu.ended (hacc.ended (hu.eosSent ▸ h)))
    hu.active (fun _ => ha) (fun h => hs.running k t ht (hph ▸ h)) Plain.nil)

end Operations

end FlvDemux.Engine
