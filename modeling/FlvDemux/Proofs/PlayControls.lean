import FlvDemux.Proofs.Playing
import FlvDemux.Proofs.Controls
import FlvDemux.Proofs.ConfigRuns

/-!
# The client's operations keep the playing

`Source.Plays` is kept by a control operation queued, a request filed, a queued pause or start
run, and a queued stop run, after which the demuxer has played nothing and its dialog starts
again. A stopped demuxer awaits no read, so its playing stands at the first media tag.
-/

namespace FlvDemux.Flv

theorem ChainFrom.eq_of_nil {f : List UInt8} {o b : Nat} (h : ChainFrom f o [] b) : b = o := by
  generalize hn : ([] : List (Nat × TagHeader)) = l at h
  cases h with
  | nil => rfl
  | snoc _ _ _ => simp at hn

end FlvDemux.Flv

namespace FlvDemux.Engine

open Flv

section Place

variable {f : List UInt8} {e b : Nat} {s y : Source}

theorem Source.awaits_iff (hreads : ∀ t o n, Task.read t o n ∈ y.tasks ↔ Task.read t o n ∈ s.tasks)
    (hpend : y.pending = s.pending) (hsess : y.session = s.session) (step : ReadStep) :
    y.Awaits step ↔ s.Awaits step := by
  simp only [Source.Awaits, hreads, hpend, hsess]

theorem Source.Place.congr (h : s.Place f e b)
    (hreads : ∀ t o n, Task.read t o n ∈ y.tasks ↔ Task.read t o n ∈ s.tasks)
    (hpend : y.pending = s.pending) (hsess : y.session = s.session)
    (hread : y.readInFlight = s.readInFlight)
    (hend : s.phase = .started ∨ s.phase = .paused →
      (∀ k t, s.track k = some t → t.active = true → t.endOfStream = true) →
      (y.phase = .started ∨ y.phase = .paused) ∧
        ∀ k t, y.track k = some t → t.active = true → t.endOfStream = true) :
    y.Place f e b := by
  have haw := Source.awaits_iff hreads hpend hsess
  cases h with
  | between hb hstep => exact .between hb fun step hw => hstep step ((haw step).1 hw)
  | inTag hstep hr ht hk he hR => exact .inTag ((haw _).2 hstep) (hread.trans hr) ht hk he hR
  | ended hph hr hall =>
    obtain ⟨hph', hall'⟩ := hend hph hall
    exact .ended hph' (hread.trans hr) hall'

theorem Walking.not_awaits (hw : Walking f e s) (hph : s.phase = .stopped) (step : ReadStep) :
    ¬s.Awaits step := by
  rintro ⟨⟨t, o, n, hm, hcur⟩, -⟩
  obtain ⟨-, rfl⟩ := (Session.isCurrent_iff _ _).1 hcur
  rcases (hw.current o n hm).phase with h | h | h <;> simp [hph] at h

variable {v : Survey} {S : List TrackKind} {U : List Exchange} {tags : List (Nat × TagHeader)}

theorem Walking.plays_stopped (hw : Walking f e s) (hph : s.phase = .stopped)
    (h : s.Holds f v S U tags b) (hc : s.Configured f v tags) : s.Plays f v S e U tags b := by
  have hb : b = v.firstMediaOffset := by
    have hchain := h.chain
    rw [h.fresh hph] at hchain
    exact hchain.eq_of_nil
  have he : e = v.firstMediaOffset := by rw [hw.stopped_first hph, h.survey]
  exact { h with
    config := hc
    place := .between (hb.trans he.symm) fun step hs => absurd hs (hw.not_awaits hph step) }

end Place

section Tracks

variable {f : List UInt8} {v : Survey} {S : List TrackKind} {U : List Exchange}
  {tags : List (Nat × TagHeader)} {b e : Nat} {x : Source}

theorem Source.Plays.untouched (h : x.Plays f v S e U tags b) {y : Source} (hu : x.Untouched y)
    (hreads : ∀ t o n, Task.read t o n ∈ y.tasks ↔ Task.read t o n ∈ x.tasks)
    (hpend : y.pending = x.pending) (hsess : y.session = x.session)
    (hread : y.readInFlight = x.readInFlight) : y.Plays f v S e U tags b :=
  { h.toHolds.untouched hu with
    config := h.config.untouched hu
    place := h.place.congr hreads hpend hsess hread fun hp hall =>
      ⟨by rwa [hu.phase], fun k t ht => hall k t (by rwa [hu.track] at ht)⟩ }

theorem Source.Plays.setPhase (h : x.Plays f v S e U tags b) {ph : Phase}
    (hph : ph = .started ∨ ph = .paused) (hall : ∀ k t, x.track k = some t → k ∈ S → t.active = true) :
    ({ x with phase := ph } : Source).Plays f v S e U tags b := by
  have hstop : ph ≠ .stopped := by rcases hph with rfl | rfl <;> simp
  exact {
    toHolds := { h.toHolds with
      fresh := fun hp => absurd hp hstop
      isOpen := by rcases hph with rfl | rfl <;> rfl
      playing := fun _ => hall }
    config := ⟨h.config.1, fun hp => absurd hp hstop⟩
    place := h.place.congr (fun _ _ _ => Iff.rfl) rfl rfl rfl fun _ hend => ⟨hph, hend⟩ }

theorem Source.Plays.emit (h : x.Plays f v S e U tags b) {M : List Event} (hM : served M = []) :
    ({ x with events := x.events ++ M } : Source).Plays f v S e (U ++ M.map .told) tags b :=
  { h.toHolds.told hM (fun _ => rfl) rfl rfl rfl with
    config := h.config
    place := h.place.congr (fun _ _ _ => Iff.rfl) rfl rfl rfl fun hp hall => ⟨hp, hall⟩ }

theorem Source.Plays.onTrack (h : x.Plays f v S e U tags b) {j : TrackKind} {t t' : Track}
    {M : List Event} {rs : List (Option UInt64)} (ht : x.track j = some t)
    (hm : t.Moves t' M [] rs) (hkind : t'.kind = t.kind) (hend : t'.endOfStream = t.endOfStream) :
    ({ x.setTrack j t' with events := x.events ++ M } : Source).Plays f v S e
      (U ++ rs.map (.asked j) ++ M.map .told) tags b := by
  have hH := h.toHolds.onTrack ht hm hkind (fun _ => rfl) h.chain (fun _ _ => by simp) h.fresh
  have htrack := Source.track_setTrack_events (s := x) j t' (x.events ++ M)
  have hact : ∀ k, ({ x.setTrack j t' with events := x.events ++ M } : Source).isActive k =
      x.isActive k := by
    intro k
    simp only [Source.isActive, htrack]
    split
    · subst k
      simp [ht, hm.active]
    · rfl
  refine { hH with
    config := h.config.congr (hact .video) (by cases j <;> rfl) (by cases j <;> rfl)
      (by cases j <;> rfl)
    place := h.place.congr (fun _ _ _ => by cases j <;> rfl) (by cases j <;> rfl)
      (by cases j <;> rfl) (by cases j <;> rfl) fun hp hall => ⟨by cases j <;> exact hp, ?_⟩ }
  intro k u hu ha
  rw [htrack] at hu
  split at hu
  · subst k
    cases hu
    rw [hend]
    exact hall j t ht (by rwa [hm.active] at ha)
  · exact hall k u hu ha

theorem Source.Plays.signal (h : x.Plays f v S e U tags b) (sig : Signal) :
    ∃ M, ((onSignal sig).run x).2.events = x.events ++ M ∧ (∀ e ∈ M, e.isStop = false) ∧
      ((onSignal sig).run x).2.Plays f v S e (U ++ M.map .told) tags b := by
  obtain ⟨M, hev, hstop, hH⟩ := h.toHolds.signal sig
  have hq := onSignal_quiet sig x
  obtain ⟨hc, hs⟩ := onSignal_keeps sig x
  refine ⟨M, hev, hstop, { hH with
    config := h.config.congr (by simp [Source.isActive, onSignal_track]) hc hs hq.phase
    place := h.place.congr (fun _ _ _ => by rw [hq.tasks]) hq.pending hq.session hq.readInFlight
      fun hp hall => ⟨by rwa [hq.phase], fun k t ht => hall k t (by rwa [onSignal_track] at ht)⟩ }⟩

theorem Source.Plays.signals (h : x.Plays f v S e U tags b) (sigs : List Signal) :
    ∃ M, ((sigs.forM onSignal).run x).2.events = x.events ++ M ∧ (∀ e ∈ M, e.isStop = false) ∧
      ((sigs.forM onSignal).run x).2.Plays f v S e (U ++ M.map .told) tags b := by
  induction sigs generalizing x U with
  | nil => exact ⟨[], by simp, by simp, by simpa using h⟩
  | cons sig sigs ih =>
    obtain ⟨M₁, hev₁, hs₁, h₁⟩ := h.signal sig
    obtain ⟨M₂, hev₂, hs₂, h₂⟩ := ih h₁
    have h₂' : ((sigs.forM onSignal).run ((onSignal sig).run x).2).2.Plays f v S e
        (U ++ (M₁ ++ M₂).map .told) tags b := by
      simpa only [List.map_append, List.append_assoc] using h₂
    refine ⟨M₁ ++ M₂, hev₂.trans (by rw [hev₁, List.append_assoc]), fun e he => ?_, h₂'⟩
    rcases List.mem_append.1 he with he | he
    · exact hs₁ e he
    · exact hs₂ e he

theorem Source.Plays.onTrackQuietly (h : x.Plays f v S e U tags b) (k : TrackKind)
    (g : Track → Track × List Event) (hg : ∀ t : Track, t.Moves (g t).1 (g t).2 [] [])
    (hkind : ∀ t : Track, (g t).1.kind = t.kind)
    (hend : ∀ t : Track, (g t).1.endOfStream = t.endOfStream) :
    ∃ M, ((onTrackQuietly k g).run x).2.events = x.events ++ M ∧ (∀ e ∈ M, e.isStop = false) ∧
      ((onTrackQuietly k g).run x).2.Plays f v S e (U ++ M.map .told) tags b := by
  simp only [Engine.onTrackQuietly, StateT.run_bind, bind_id_eq]
  cases ht : x.track k with
  | none =>
    rw [onTrack_none ht]
    exact ⟨[], by simp, by simp, by simpa using h⟩
  | some t =>
    rw [onTrack_some ht]
    refine ⟨(g t).2, rfl, fun e he => Event.isStop_of_steady (hg t).ofKind.1 he, ?_⟩
    simpa using h.onTrack ht (hg t) (hkind t) (hend t)

end Tracks

section Calls

variable {f : List UInt8} {v : Survey} {S : List TrackKind} {U : List Exchange}
  {tags : List (Nat × TagHeader)} {b e : Nat} {x : Source}

theorem Source.Plays.enqueue (h : x.Plays f v S e U tags b) {c : Task} (hc : c.isRead = false)
    (hS : ∀ sel pos, c = .start sel pos → ∀ k, k ∈ sel ↔ k ∈ S) :
    ({ x with pendingOp := true, tasks := x.tasks ++ [c] } : Source).Plays f v S e U tags b := by
  refine { h with
    starts := fun sel pos hm => ?_
    place := h.place.congr (fun t o n => ?_) rfl rfl rfl fun hp hall => ⟨hp, hall⟩ }
  · rcases List.mem_append.1 hm with hm | hm
    · exact h.starts sel pos hm
    · exact hS sel pos (List.mem_singleton.1 hm).symm
  · simp only [List.mem_append, List.mem_singleton]
    constructor
    · rintro (hm | rfl)
      · exact hm
      · cases hc
    · exact .inl

theorem requestSample_outcome (k : TrackKind) (token : Option UInt64) (x : Source) :
    (∃ err, Step.exec (requestSample k token) x = (.error err, x)) ∨
      ∃ t r, x.track k = some t ∧ t.request token = .ok r ∧
        Step.exec (requestSample k token) x = (.ok (), (pump.run ((onSignal r.2.2).run
          { x.setTrack k r.1 with events := x.events ++ r.2.1 }).2).2) := by
  simp only [requestSample, Step.exec_bind, Step.exec_get]
  split_ifs
  · exact .inl ⟨_, rfl⟩
  · cases ht : x.track k with
    | none => exact .inl ⟨_, rfl⟩
    | some t =>
      dsimp only
      cases hr : t.request token with
      | error err => exact .inl ⟨_, rfl⟩
      | ok r =>
        obtain ⟨t', evs, sig⟩ := r
        exact .inr ⟨t, (t', evs, sig), rfl, hr, by cases k <;> rfl⟩

theorem Source.Plays.request (h : x.Plays f v S e U tags b)
    (hword : x.session.word &&& shutdownBit = 0) (k : TrackKind) (token : Option UInt64) :
    (x.act (.request k token)).2.PlaysOn f v S e
      (U ++ if (x.act (.request k token)).1 = .ok () then [.asked k token] else []) x.events := by
  rcases requestSample_outcome k token x with ⟨err, herr⟩ | ⟨t, r, ht, hr, hok⟩
  · have hact : x.act (.request k token) = (.error err, x) := herr
    rw [hact]
    simpa using h.playsOn
  · have hact : x.act (.request k token) = (.ok (), _) := hok
    obtain ⟨-, -, -, rfl⟩ := Track.request_ok hr
    rw [hact, if_pos rfl]
    have h₁ := h.onTrack ht (t.moves_request token) (Track.dispatch_kind _)
      (Track.dispatch_endOfStream _)
    obtain ⟨M, hev, hstop, h₂⟩ := h₁.signal (Track.dispatch { t with requests := t.requests ++ [token] }).2.2
    have h₃ := h₂.pump (by rw [(onSignal_quiet _ _).session]; cases k <;> exact hword)
    rw [hev] at h₃
    refine (PlaysOn.after (M := (Track.dispatch { t with requests := t.requests ++ [token] }).2.1 ++ M)
      (by simpa [List.append_assoc] using h₃) fun e he => ?_)
    rcases List.mem_append.1 he with he | he
    · exact Event.isStop_of_steady (Track.dispatch_ofKind _).1 he
    · exact hstop e he

end Calls

section Runs

variable {f : List UInt8} {v : Survey} {S : List TrackKind} {U : List Exchange}
  {tags : List (Nat × TagHeader)} {b e : Nat} {x : Source}

theorem Source.Plays.runPause (h : x.Plays f v S e U tags b) (hph : x.phase = .started) :
    ∃ M, (runPause.run x).2.events = x.events ++ M ∧ (∀ e ∈ M, e.isStop = false) ∧
      (runPause.run x).2.Plays f v S e (U ++ M.map .told) tags b := by
  set y₀ : Source := { x with pendingOp := false, phase := .paused }
  set y₁ := ((Engine.onTrackQuietly .video Track.pause).run y₀).2
  set y₂ := ((Engine.onTrackQuietly .audio Track.pause).run y₁).2
  have hrun : (Engine.runPause.run x).2 = { y₂ with events := y₂.events ++ [.sourcePaused] } := by
    simp only [Engine.runPause, StateT.run_bind, StateT.run_modify, StateT.run_get, bind_id_eq,
      pure_id_eq, if_pos hph, emit_run]
    rfl
  have h₀ : y₀.Plays f v S e U tags b :=
    (h.untouched (y := { x with pendingOp := false }) ⟨rfl, rfl, rfl, rfl, rfl, rfl, rfl,
      fun _ _ hm => hm⟩ (fun _ _ _ => Iff.rfl) rfl rfl rfl).setPhase (.inr rfl)
      (h.playing (.inl hph))
  obtain ⟨M₁, hev₁, hs₁, h₁⟩ :=
    h₀.onTrackQuietly .video Track.pause Track.moves_pause (fun _ => rfl) (fun _ => rfl)
  obtain ⟨M₂, hev₂, hs₂, h₂⟩ :=
    h₁.onTrackQuietly .audio Track.pause Track.moves_pause (fun _ => rfl) (fun _ => rfl)
  have h₃ : ({ y₂ with events := y₂.events ++ [.sourcePaused] } : Source).Plays f v S e
      (U ++ (M₁ ++ M₂ ++ [Event.sourcePaused]).map .told) tags b := by
    simpa only [List.map_append, List.append_assoc] using h₂.emit (M := [.sourcePaused]) rfl
  rw [hrun]
  refine ⟨M₁ ++ M₂ ++ [.sourcePaused], ?_, fun e he => ?_, h₃⟩
  · show y₂.events ++ [.sourcePaused] = x.events ++ (M₁ ++ M₂ ++ [.sourcePaused])
    rw [hev₂, hev₁]
    simp [y₀]
  rcases List.mem_append.1 he with he | he
  · rcases List.mem_append.1 he with he | he
    · exact hs₁ e he
    · exact hs₂ e he
  · rw [List.mem_singleton.1 he]
    rfl

theorem runStop_track (hlive : x.phase ≠ .shutdown) (k : TrackKind) :
    (runStop.run x).2.track k = (x.track k).map fun t => t.stop.1 := by
  rw [runStop_moves hlive]
  cases k <;> rfl

/-- A stop of a live demuxer leaves it with nothing played and its dialog to start again: the
tracks hold nothing and wait for nothing, the configuration found at open is in force, not sent,
and the stop is reported last. -/
theorem Source.Holds.runStop (h : x.Holds f v S U tags b) (hlive : x.phase ≠ .shutdown) :
    (runStop.run x).2.Holds f v S [] [] v.firstMediaOffset ∧ (runStop.run x).2.Configured f v [] ∧
      ∃ M, (runStop.run x).2.events = x.events ++ M ++ [.sourceStopped] := by
  have htrack := runStop_track hlive (x := x)
  have hact : ∀ k, (Engine.runStop.run x).2.isActive k = x.isActive k := by
    intro k
    rw [Source.isActive, Source.isActive, htrack]
    cases x.track k <;> rfl
  have hbooks : ∀ k, Source.BalancedOn [] (played f v k []).1 (Engine.runStop.run x).2 k := by
    intro k
    refine ⟨?_, ?_⟩ <;>
      simp only [Source.heldOn, Source.waitingOn, htrack, answers_nil, asked_nil, List.map_nil,
        List.nil_append, played_nil, ite_self] <;>
      cases x.track k <;> rfl
  rw [runStop_moves hlive] at hact htrack hbooks ⊢
  refine ⟨?_, ⟨fun _ => by simp [h.survey], fun _ => ⟨by simp [h.survey], rfl⟩⟩, _,
    (List.append_assoc _ _ _).symm⟩
  exact {
    survey := h.survey
    chain := .nil
    books := hbooks
    fresh := fun _ => rfl
    isOpen := rfl
    chosen := fun k hk => h.chosen k (by rwa [← hact])
    playing := fun hp => by rcases hp with hp | hp <;> cases hp
    kinds := fun k t ht => by
      rw [htrack] at ht
      obtain ⟨t₀, ht₀, rfl⟩ := Option.map_eq_some_iff.1 ht
      exact h.kinds k t₀ ht₀
    starts := h.starts }

end Runs

section Starts

variable {f : List UInt8} {v : Survey} {S : List TrackKind} {U : List Exchange}
  {tags : List (Nat × TagHeader)} {b e : Nat} {x : Source} {k : TrackKind} {t : Track}

theorem Track.held_activate_true (t : Track) : (t.activate true).held = t.held := by
  unfold Track.activate
  split_ifs with h₁ h₂
  · rfl
  · rfl
  · exact absurd rfl h₂

theorem Source.Holds.held_nil (h : x.Holds f v S U [] b) (ht : x.track k = some t) :
    t.held = [] := by
  have hb := (h.books k).1
  simp only [Source.heldOn, ht, Option.map_some, Option.getD_some, played_nil, ite_self,
    List.append_eq_nil_iff] at hb
  exact hb.2

theorem Source.Plays.activate (h : x.Plays f v S e U tags b) (ht : x.track k = some t)
    (hk : k ∈ S) (hfresh : t.active = false → x.phase = .stopped) :
    (x.setTrack k (t.activate true)).Plays f v S e U tags b := by
  cases ha : t.active
  case true => rwa [Track.activate_of_eq t ha, Source.setTrack_self ht]
  case false =>
  have hph := hfresh ha
  have htags := h.fresh hph
  subst htags
  have hon : t.activate true = { t with active := true } := by simp [Track.activate, ha]
  have htrack : ∀ j, (x.setTrack k (t.activate true)).track j =
      if j = k then some (t.activate true) else x.track j := by
    intro j
    cases j <;> cases k <;> rfl
  have hact : ∀ j, (x.setTrack k (t.activate true)).isActive j =
      if j = k then true else x.isActive j := by
    intro j
    simp only [Source.isActive, htrack]
    split
    · simp [hon]
    · rfl
  have hcfg : (⟨x.avcConfig, x.avcConfigSent⟩ : AvcState) = (played f v .video []).2 := by
    obtain ⟨hc, hs⟩ := h.config.2 hph
    rw [played_nil, hc, hs]
  have hbooks : ∀ j, (x.setTrack k (t.activate true)).BalancedOn U (played f v j []).1 j := by
    intro j
    by_cases hj : j = k
    · subst hj
      obtain ⟨hs, hr⟩ := h.books j
      simp only [Source.heldOn, Source.waitingOn, ht, Option.map_some, Option.getD_some,
        played_nil, ite_self] at hs hr
      refine ⟨?_, ?_⟩
      · rw [Source.heldOn, htrack, if_pos rfl, Option.map_some, Option.getD_some, played_nil,
          ite_self, hon]
        exact hs
      · rw [Source.waitingOn, htrack, if_pos rfl, Option.map_some, Option.getD_some, hon]
        exact hr
    · exact (h.books j).frame (by rw [htrack, if_neg hj]) rfl rfl fun _ => rfl
  refine {
    survey := by cases k <;> exact h.survey
    chain := h.chain
    books := hbooks
    fresh := fun _ => rfl
    isOpen := by cases k <;> exact h.isOpen
    chosen := fun j hj => ?_
    playing := fun hp => by cases k <;> simp [hph] at hp
    kinds := fun j u hu => ?_
    starts := by cases k <;> exact h.starts
    config := ⟨fun _ => by cases k <;> exact hcfg, fun hp => by cases k <;> exact h.config.2 hph⟩
    place := h.place.congr (fun _ _ _ => by cases k <;> rfl) (by cases k <;> rfl)
      (by cases k <;> rfl) (by cases k <;> rfl) fun hp => by simp [hph] at hp }
  · rw [hact] at hj
    split at hj
    · rename_i hjk
      rw [hjk]
      exact hk
    · exact h.chosen j hj
  · rw [htrack] at hu
    split at hu
    · rename_i hjk
      cases hu
      rw [hjk, Track.activate_kind]
      exact h.kinds k t ht
    · exact h.kinds j u hu

theorem startTrack_unselected (ht : x.track k = some t) (ha : t.active = false)
    {sel : List TrackKind} (hk : k ∉ sel) (pos : StartPosition) :
    (startTrack sel pos k).run x = (none, x) := by
  simp [startTrack, ht, hk, Track.activate_of_eq t ha, ha, Source.setTrack_self ht]

/-- A track started by a start that selects the tracks played: one left out is not selected and
is left alone; a selected one is selected, reported, and started where it stands, or afresh in a
stopped demuxer. -/
theorem Source.Plays.startTrack (h : x.Plays f v S e U tags b) {sel : List TrackKind}
    (hsel : ∀ k, k ∈ sel ↔ k ∈ S) {pos : StartPosition}
    (hpos : pos = .current ∨ x.phase = .stopped) (k : TrackKind) :
    ∃ M, ((startTrack sel pos k).run x).2.events = x.events ++ M ∧ (∀ e ∈ M, e.isStop = false) ∧
      ((startTrack sel pos k).run x).2.Plays f v S e (U ++ M.map .told) tags b ∧
      ∀ t, ((startTrack sel pos k).run x).2.track k = some t → k ∈ S → t.active = true := by
  rcases startTrack_cases sel pos k x with ⟨hnone, hrun⟩ | ⟨t, ht, hk, -⟩ | ⟨t, ht, hk, hrun⟩
  · rw [hrun]
    exact ⟨[], by simp, by simp, by simpa using h, fun t ht => by simp [hnone] at ht⟩
  · have ha : t.active = false := by
      cases ha : t.active
      · rfl
      · exact absurd ((hsel k).2 (h.chosen k (by simp [Source.isActive, ht, ha]))) hk
    rw [startTrack_unselected ht ha hk pos]
    exact ⟨[], by simp, by simp, by simpa using h, fun _ _ hS => absurd ((hsel k).2 hS) hk⟩
  · rw [hrun]
    -- only a stopped demuxer, which has played nothing, has a track of the selection not selected
    have hfresh : t.active = false → x.phase = .stopped := by
      intro ha
      have hopen := h.isOpen
      simp only [Source.isOpen, Bool.or_eq_true, decide_eq_true_eq] at hopen
      rcases hopen with (hph | hph) | hph
      · exact hph
      · simp [h.playing (.inl hph) k t ht ((hsel k).1 hk)] at ha
      · simp [h.playing (.inr hph) k t ht ((hsel k).1 hk)] at ha
    have h₁ := h.activate ht ((hsel k).1 hk) hfresh
    set M₀ : List Event := [if t.active then .updatedStream k else .newStream k, .streamStarted t.kind]
    have h₂ : ({ x.setTrack k (t.activate true) with
        pendingEos := x.pendingEos + (if t.eosSent then 0 else 1)
        events := x.events ++ M₀ } : Source).Plays f v S e (U ++ M₀.map .told) tags b :=
      (h₁.emit (M := M₀) (by show served [_, _] = []; cases t.active <;> rfl)).untouched
        (by cases k <;> exact ⟨rfl, rfl, rfl, rfl, rfl, rfl, rfl, fun _ _ hm => hm⟩)
        (fun _ _ _ => by cases k <;> rfl) (by cases k <;> rfl) (by cases k <;> rfl)
        (by cases k <;> rfl)
    have hheld : ((t.activate true).started pos).held = (t.activate true).held := by
      cases pos with
      | current => rfl
      | «at» _ =>
        -- a start at a time runs only on a stopped demuxer, which holds nothing
        obtain rfl := h.fresh (hpos.resolve_left (by simp))
        rw [Track.held_activate_true, h.toHolds.held_nil ht]
        rfl
    have hm := Track.moves_dispatch (t.activate true) (Track.started_kind _ _)
      (by cases pos <;> rfl) hheld (by cases pos <;> rfl)
    have ht₂ : ({ x.setTrack k (t.activate true) with
        pendingEos := x.pendingEos + (if t.eosSent then 0 else 1)
        events := x.events ++ M₀ } : Source).track k = some (t.activate true) := by
      cases k <;> rfl
    have h₃ := h₂.onTrack ht₂ hm (by simp) (by simp)
    refine ⟨M₀ ++ ((t.activate true).started pos).dispatch.2.1, by simp, fun e he => ?_,
      by simpa [List.append_assoc] using h₃, fun u hu _ => ?_⟩
    · rcases List.mem_append.1 he with he | he
      · simp only [M₀, List.mem_cons, List.mem_nil_iff, or_false] at he
        rcases he with rfl | rfl
        · split <;> rfl
        · rfl
      · exact Event.isStop_of_steady (Track.dispatch_ofKind _).1 he
    · rw [Source.track_setTrack_events, if_pos rfl] at hu
      cases hu
      simp only [Track.dispatch_active]
      cases pos <;> exact Track.activate_active t true

theorem Source.Plays.runStart (h : x.Plays f v S e U tags b)
    (hword : x.session.word &&& shutdownBit = 0) (hlive : x.phase ≠ .shutdown)
    {sel : List TrackKind} (hsel : ∀ k, k ∈ sel ↔ k ∈ S) {pos : StartPosition}
    (hpos : pos = .current ∨ x.phase = .stopped) :
    ((runStart sel pos).run x).2.PlaysOn f v S e U x.events := by
  rw [runStart_eq hlive, startTrack_all_run]
  set x₀ : Source := { x with pendingOp := false, pendingEos := 0, eopSent := false }
  have h₀ : x₀.Plays f v S e U tags b :=
    h.untouched ⟨rfl, rfl, rfl, rfl, rfl, rfl, rfl, fun _ _ hm => hm⟩ (fun _ _ _ => Iff.rfl) rfl
      rfl rfl
  obtain ⟨M₁, hev₁, hs₁, h₁, ha₁⟩ := h₀.startTrack hsel hpos .video
  have hq₁ := startTrack_quiet sel pos .video x₀
  obtain ⟨M₂, hev₂, hs₂, h₂, ha₂⟩ := h₁.startTrack hsel (by rw [hq₁.phase]; exact hpos) .audio
  set y := ((Engine.startTrack sel pos .audio).run ((Engine.startTrack sel pos .video).run x₀).2).2
  have hq₂ := startTrack_quiet sel pos .audio ((Engine.startTrack sel pos .video).run x₀).2
  have hall : ∀ k t, y.track k = some t → k ∈ S → t.active = true := by
    intro k t ht hk
    cases k with
    | video =>
      rw [startTrack_track_other (by decide)] at ht
      exact ha₁ t ht hk
    | audio => exact ha₂ t ht hk
  have h₃ := (h₂.setPhase (.inl rfl) hall).emit (M := [.sourceStarted]) rfl
  obtain ⟨M₄, hev₄, hs₄, h₄⟩ := h₃.signals
    (((Engine.startTrack sel pos .video).run x₀).1.toList ++ ((Engine.startTrack sel pos .audio).run
      ((Engine.startTrack sel pos .video).run x₀).2).1.toList)
  have hsess := forM_onSignal_of (P := fun z => z.session = x.session)
    (fun sig z hz => ((onSignal_quiet sig z).session).trans hz) (x := { y with
      phase := .started, events := y.events ++ [.sourceStarted] })
    (((Engine.startTrack sel pos .video).run x₀).1.toList ++ ((Engine.startTrack sel pos .audio).run
      ((Engine.startTrack sel pos .video).run x₀).2).1.toList) (hq₂.session.trans hq₁.session)
  have hon := h₄.pump (by rw [hsess]; exact hword)
  rw [hev₄] at hon
  refine Source.PlaysOn.after (M := M₁ ++ M₂ ++ [.sourceStarted] ++ M₄) ?_ fun z hz => ?_
  · simpa only [hev₂, hev₁, List.map_append, List.append_assoc] using hon
  · simp only [List.mem_append, List.mem_singleton] at hz
    rcases hz with ((hz | hz) | rfl) | hz
    · exact hs₁ z hz
    · exact hs₂ z hz
    · rfl
    · exact hs₄ z hz

end Starts

end FlvDemux.Engine
