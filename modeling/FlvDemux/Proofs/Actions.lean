import FlvDemux.Proofs.Books

/-!
# What one action does to the books

`Source.Move` says what a client call, or the run of any queued task, does to a demuxer whose
books are in order (`act_move`). Every move keeps the demuxer orderly (`Source.Move.orderly`), so
every run from a new demuxer does (`Source.orderly_actAll`).
-/

namespace FlvDemux.Engine

section Pieces

variable {s x : Source}

theorem Source.Minor.setTrack (s : Source) (k : TrackKind) (t : Track) : s.Minor (s.setTrack k t) :=
  .of_quiet (s.setTrack_quiet k t) ⟨[], by simp, Faultless.nil⟩

theorem emit_minor {evs : List Event} (h : Faultless evs) (s : Source) :
    s.Minor ((emit evs).run s).2 :=
  ⟨rfl, rfl, rfl, rfl, rfl, rfl, rfl, id, fun _ => rfl, evs, rfl, h⟩

theorem Source.Minor.withPhase (h : s.Minor x) (p : Phase) :
    ({ s with phase := p } : Source).Minor { x with phase := p } :=
  ⟨h.tasks, h.readInFlight, h.pending, h.pendingOp, rfl, h.session, h.awaitingOpen, h.stream,
    h.rewind, h.events⟩

theorem forM_minor {α : Type} {g : α → StateM Source PUnit}
    (hg : ∀ a (s : Source), s.Minor ((g a).run s).2) (as : List α) (s : Source) :
    s.Minor ((as.forM g).run s).2 := by
  induction as generalizing s with
  | nil => exact .refl s
  | cons a as ih =>
    have hrun : ((a :: as).forM g).run s = (as.forM g).run ((g a).run s).2 := rfl
    rw [hrun]
    exact (hg a s).trans (ih _)

theorem filterMapM_minor {α β : Type} {g : α → StateM Source (Option β)}
    (hg : ∀ a (s : Source), s.Minor ((g a).run s).2) (as : List α) (s : Source) :
    s.Minor ((as.filterMapM g).run s).2 := by
  induction as generalizing s with
  | nil => exact .refl s
  | cons a as ih =>
    rw [List.filterMapM_cons]
    simp only [StateT.run_bind, bind_id_eq]
    split <;> exact (hg a s).trans (ih _)

theorem startTrack_minor (selection : List TrackKind) (pos : StartPosition) (k : TrackKind)
    (s : Source) : s.Minor ((startTrack selection pos k).run s).2 := by
  simp only [startTrack, StateT.run_bind, StateT.run_get, bind_id_eq, pure_id_eq]
  cases h : s.track k with
  | none => exact .refl s
  | some t =>
    dsimp only
    split
    · simp only [StateT.run_bind, bind_id_eq, StateT.run_set, StateT.run_pure, pure_id_eq]
      split
      · exact (Source.Minor.setTrack s k _).trans (.of_eq rfl rfl rfl rfl rfl rfl rfl id (fun _ => rfl) rfl)
      · exact Source.Minor.setTrack s k _
    · simp only [StateT.run_bind, bind_id_eq, StateT.run_set, StateT.run_map, map_id_eq,
        pure_id_eq]
      refine ((?_ : s.Minor _).trans (emit_minor (Faultless.cons (by split <;> rfl) .nil) _)).trans
        (onTrack_minor (fun t => t.start_faultless pos) _)
      split
      · exact Source.Minor.setTrack s k _
      · exact (Source.Minor.setTrack s k _).trans (.of_eq rfl rfl rfl rfl rfl rfl rfl id (fun _ => rfl) rfl)

end Pieces

/-- The failures a refused control call answers with: another operation still waiting, a
shut-down demuxer, or a request that does not fit the state. -/
def SourceError.IsRefusal (e : SourceError) : Prop :=
  e = .notAccepting ∨ e = .shutdown ∨ ∃ r, e = .invalidRequest r

/-- A control call refuses with nothing changed, or, while no operation is accepted, queues its
operation `c`, which the phase admits. -/
def Step.Checks (m : Step Unit) (c : Task) (s : Source) : Prop :=
  (∃ e, Step.exec m s = (.error e, s) ∧ e.IsRefusal) ∨
    c.Admits s.phase ∧ s.pendingOp = false ∧
      Step.exec m s = (.ok (), { s with pendingOp := true, tasks := s.tasks ++ [c] })

namespace Step.Checks

variable {c : Task} {s : Source}

theorem throw_bind {α : Type} {e : SourceError} (he : e.IsRefusal) (k : α → Step Unit) :
    Checks (throw e >>= k) c s :=
  .inl ⟨e, by rw [Step.exec_bind, Step.exec_throw], he⟩

theorem bind_ok {α : Type} {a : Step α} {x : α} {k : α → Step Unit}
    (ha : Step.exec a s = (.ok x, s)) (hk : Checks (k x) c s) : Checks (a >>= k) c s := by
  unfold Checks at hk ⊢
  rw [Step.exec_bind, ha]
  exact hk

theorem bind_error {α : Type} {a : Step α} {e : SourceError} {k : α → Step Unit}
    (ha : Step.exec a s = (.error e, s)) (he : e.IsRefusal) : Checks (a >>= k) c s :=
  .inl ⟨e, by rw [Step.exec_bind, ha], he⟩

theorem enqueue (hadm : c.Admits s.phase) : Checks (do beginOperation; spawn c) c s := by
  unfold Checks
  rw [enqueue_exec]
  cases h : s.pendingOp
  · exact .inr ⟨hadm, rfl, rfl⟩
  · exact .inl ⟨_, rfl, .inl rfl⟩

end Step.Checks

theorem requireOpen_cases (s : Source) :
    Step.exec requireOpen s = (.ok (), s) ∧
        (s.phase = .stopped ∨ s.phase = .started ∨ s.phase = .paused) ∨
      ∃ e, Step.exec requireOpen s = (.error e, s) ∧ e.IsRefusal := by
  simp only [requireOpen, Step.exec_bind, Step.exec_get]
  cases h : s.phase <;> simp [h, Source.isOpen, SourceError.IsRefusal]

theorem start_checks (given : Presentation) (pos : StartPosition) (s : Source) :
    Step.Checks (start given pos) (.start given.selected pos) s := by
  rcases requireOpen_cases s with ⟨hreq, hph⟩ | ⟨e, hreq, he⟩
  · refine .bind_ok hreq (.bind_ok (Step.exec_get s) ?_)
    have hthrow : ∀ (r : Refusal) (k : PUnit → Step Unit),
        Step.Checks (throw (.invalidRequest r) >>= k) (.start given.selected pos) s :=
      fun r k => .throw_bind (.inr (.inr ⟨r, rfl⟩)) k
    cases pos
    · dsimp only
      split_ifs <;> first | exact hthrow _ _ | exact .enqueue hph
    · dsimp only
      split_ifs <;> first
        | exact hthrow _ _
        | (rename_i h; exact .enqueue (by simpa [Task.Admits] using h))
  · exact .bind_error hreq he

theorem pause_checks (s : Source) : Step.Checks pause .pause s := by
  refine .bind_ok (Step.exec_get s) ?_
  by_cases h₁ : s.phase = .shutdown
  · rw [if_pos h₁]
    exact .throw_bind (.inr (.inl rfl)) _
  rw [if_neg h₁]
  by_cases h₂ : s.phase = .started
  · rw [if_neg (not_not.2 h₂)]
    exact .enqueue h₂
  · rw [if_pos h₂]
    exact .throw_bind (.inr (.inr ⟨_, rfl⟩)) _

theorem stop_checks (s : Source) : Step.Checks stop .stop s := by
  rcases requireOpen_cases s with ⟨hreq, hph⟩ | ⟨e, hreq, he⟩
  · exact .bind_ok hreq (.enqueue hph)
  · exact .bind_error hreq he

section Tasks

variable {s : Source} {t : UInt64} {o n : Nat} {rest : List Task}

theorem runTask_read (t : UInt64) (o n : Nat) (s : Source) :
    ∃ r, ((runTask (.read t o n)).run s).2 =
      ((resume t o r).run { s with stream := s.stream.map fun st => (st.perform (.read n)).2 }).2 := by
  cases hs : s.stream with
  | none =>
    refine ⟨.ok [], ?_⟩
    simp only [runTask, StateT.run_bind, StateT.run_get, bind_id_eq, hs, pure_id_eq, Option.map_none]
    congr
    cases s
    simp_all
  | some st =>
    cases hr : st.read n with
    | ok p =>
      refine ⟨.ok p.1, ?_⟩
      rw [runTask_read_ok hs hr]
      simp [ByteStream.perform, hr]
    | error f =>
      refine ⟨.error f, ?_⟩
      rw [runTask_read_error hs hr]
      simp only [Option.map_some, ByteStream.perform, hr]
      congr
      cases s
      simp_all

theorem runTask_stale (hst : s.session.isCurrent t = false) :
    ((runTask (.read t o n)).run { s with tasks := rest }).2 =
      (pump.run { s with tasks := rest, readInFlight := false, pending := none,
                         stream := s.stream.map fun st => (st.perform (.read n)).2 }).2 := by
  obtain ⟨r, hr⟩ := runTask_read t o n { s with tasks := rest }
  rw [hr, resume_stale (by exact hst)]

theorem runTask_current (hb : s.Booked) (ht : (.read t o n :: rest).Perm s.tasks)
    (hcur : s.session.isCurrent t = true) :
    ({ s with tasks := rest, readInFlight := false, pending := none } : Source).Outcome
      s.phase.Reads (s.phase = .opening) ((runTask (.read t o n)).run { s with tasks := rest }).2 := by
  have hm : Task.read t o n ∈ s.tasks := ht.subset List.mem_cons_self
  have hlive : s.phase ≠ .shutdown := fun h => by rw [hb.isCurrent_of_shutdown h] at hcur; cases hcur
  obtain ⟨step, hp, hscan⟩ := hb.awaits (hb.reading hm) hlive
  obtain ⟨r, hrun⟩ := runTask_read t o n { s with tasks := rest }
  rw [hrun]
  have hx : ({ s with tasks := rest, readInFlight := false, pending := none } : Source).Minor
      { s with tasks := rest, readInFlight := false, pending := none,
               stream := s.stream.map fun st => (st.perform (.read n)).2 } :=
    .of_eq rfl rfl rfl rfl rfl rfl rfl (fun h => by simpa using h) (fun _ => rfl) rfl
  cases r with
  | error f =>
    rw [resume_error (by exact hcur) (by exact hp)]
    exact .failed hx _
  | ok data =>
    rcases hb.current_phase hm hcur with hph | hph | hph
    · rw [resume_scan (by exact hcur) (by exact hp) (by exact hph)]
      exact (((Step.Ends.scanStep step data o).guarded rfl).after hx).mono
        (fun _ _ => .inl hph) fun _ => hph
    · have hstream : step.scanOnly = false := by
        cases h : step.scanOnly
        · rfl
        · rcases hph with hph | hph <;> simp [hscan h] at hph
      rw [resume_stream (by exact hcur) (by exact hp) (by exact hph)]
      exact (((Step.Ends.streamStep hstream data o : Step.Ends _ False _).guarded rfl).after hx).mono
        (fun _ h => .inr ⟨by rcases hph with hph | hph <;> simp [hph], h⟩) False.elim
    · -- a stopped demuxer finds a read of its session only once its count has gone round
      rw [resume_stopped (by exact hcur) (by exact hp) (by exact hph)]
      exact .rest hx fun h => by simp [hph] at h

theorem runStart_outcome (h : s.phase ≠ .shutdown) (selection : List TrackKind)
    (pos : StartPosition) :
    ∃ x, ({ s with pendingOp := false } : Source).Minor x ∧
      ({ x with phase := .started } : Source).Outcome (Phase.Reads .started) False
        ((runStart selection pos).run s).2 := by
  simp only [runStart, StateT.run_bind, StateT.run_modify, StateT.run_get, bind_id_eq, pure_id_eq]
  rw [if_pos h]
  simp only [StateT.run_bind, StateT.run_modify, bind_id_eq]
  have hreset : ({ s with pendingOp := false } : Source).Minor
      { s with pendingOp := false, pendingEos := 0, eopSent := false } :=
    .of_eq rfl rfl rfl rfl rfl rfl rfl id (fun _ => rfl) rfl
  refine ⟨_, hreset.trans (filterMapM_minor (startTrack_minor selection pos) TrackKind.all _), ?_⟩
  exact (pump_outcome _ fun _ => .inr ⟨.inl rfl, rfl⟩).after
    ((emit_minor (Faultless.cons rfl .nil) _).trans (forM_minor (fun sig => onSignal_minor sig) _ _))

@[simp] theorem Track.pause_needsData (t : Track) : t.pause.1.needsData = t.needsData := rfl

theorem runPause_minor (h : s.phase = .started) :
    ({ s with pendingOp := false, phase := .paused } : Source).Minor (runPause.run s).2 ∧
      (runPause.run s).2.wantsData = s.wantsData := by
  rw [runPause_moves h]
  refine ⟨⟨rfl, rfl, rfl, rfl, rfl, rfl, rfl, fun h => h, fun _ => rfl, _, rfl, ?_⟩, ?_⟩
  · refine Faultless.append (Faultless.append ?_ ?_) (Faultless.cons rfl .nil)
    · cases s.video <;> simp [Faultless.nil, Track.pause_faultless]
    · cases s.audio <;> simp [Faultless.nil, Track.pause_faultless]
  · cases hv : s.video <;> cases ha : s.audio <;> simp [Source.wantsData, hv, ha]

theorem runStop_minor (h : s.phase ≠ .shutdown) :
    ({ s with pendingOp := false, session := s.session.restart, phase := .stopped,
              rewindPending := true } : Source).Minor (runStop.run s).2 := by
  rw [runStop_moves h]
  refine ⟨rfl, rfl, rfl, rfl, rfl, rfl, rfl, fun h => by simpa using h, fun _ => rfl, _, rfl, ?_⟩
  refine Faultless.append (Faultless.append ?_ ?_) (Faultless.cons rfl .nil)
  · cases s.video <;> simp [Faultless.nil, Track.stop_faultless]
  · cases s.audio <;> simp [Faultless.nil, Track.stop_faultless]

end Tasks

/-- What one action can do to a demuxer whose books are in order, in the terms of its books. A
task that runs is `c` with the queue left `rest`, `c :: rest` being the queue in some order. -/
inductive Source.Move (s : Source) : Source → Prop where
  /-- A call is refused, or there is no task to run: nothing changes. -/
  | stay : Move s s
  /-- A shutdown, asked for or forced by a stream that cannot be used. -/
  | halt : Move s (shutdownNow.run s).2
  | enqueue {c : Task} (hc : c.isRead = false) (hop : s.pendingOp = false)
      (hadm : c.Admits s.phase) : Move s { s with pendingOp := true, tasks := s.tasks ++ [c] }
  | open {st : ByteStream} {y : Source} (hph : s.phase = .invalid)
      (hy : ({ s with phase := .opening, stream := some st, awaitingOpen := true } : Source).Outcome
        (Phase.Reads .opening) False y) : Move s y
  | request {x y : Source} (hlive : s.phase ≠ .shutdown) (hx : s.Minor x)
      (hy : x.Outcome s.phase.Reads False y) : Move s y
  /-- A read of the current session completes. -/
  | complete {t : UInt64} {o n : Nat} {rest : List Task} {y : Source}
      (ht : (.read t o n :: rest).Perm s.tasks) (hcur : s.session.isCurrent t = true)
      (hy : ({ s with tasks := rest, readInFlight := false, pending := none } : Source).Outcome
        s.phase.Reads (s.phase = .opening) y) : Move s y
  /-- A stale read completes: its bytes are taken and dropped, and the demuxer reads on. -/
  | stale {t : UInt64} {o n : Nat} {rest : List Task} {y : Source}
      (ht : (.read t o n :: rest).Perm s.tasks) (hst : s.session.isCurrent t = false)
      (hlive : s.phase ≠ .shutdown)
      (hy : ({ s with tasks := rest, readInFlight := false, pending := none,
                      stream := s.stream.map fun st => (st.perform (.read n)).2 } : Source).Outcome
        s.phase.Reads False y) : Move s y
  /-- A read completes in a shut-down demuxer and is dropped. -/
  | drain {t : UInt64} {o n : Nat} {rest : List Task} (ht : (.read t o n :: rest).Perm s.tasks)
      (hph : s.phase = .shutdown) :
      Move s { s with tasks := rest, readInFlight := false, pending := none,
                      stream := s.stream.map fun st => (st.perform (.read n)).2 }
  /-- A queued control operation finds the demuxer shut down and is dropped. -/
  | drop {c : Task} {rest : List Task} (ht : (c :: rest).Perm s.tasks) (hc : c.isRead = false)
      (hph : s.phase = .shutdown) : Move s { s with tasks := rest, pendingOp := false }
  | start {selection : List TrackKind} {pos : StartPosition} {rest : List Task} {x y : Source}
      (ht : (.start selection pos :: rest).Perm s.tasks) (hlive : s.phase ≠ .shutdown)
      (hx : ({ s with tasks := rest, pendingOp := false } : Source).Minor x)
      (hy : ({ x with phase := .started } : Source).Outcome (Phase.Reads .started) False y) :
      Move s y
  /-- A queued pause runs on a started demuxer; the tracks want what they wanted. -/
  | pause {rest : List Task} {y : Source} (ht : (.pause :: rest).Perm s.tasks)
      (hph : s.phase = .started)
      (hy : ({ s with tasks := rest, pendingOp := false, phase := .paused } : Source).Minor y)
      (hwants : y.wantsData = s.wantsData) : Move s y
  /-- A queued stop runs: the demuxer stops in a new session, with a rewind pending. -/
  | stop {rest : List Task} {y : Source} (ht : (.stop :: rest).Perm s.tasks)
      (hlive : s.phase ≠ .shutdown)
      (hy : ({ s with tasks := rest, pendingOp := false, session := s.session.restart,
                      phase := .stopped, rewindPending := true } : Source).Minor y) : Move s y

section Moves

variable {s : Source}

theorem Step.Checks.move {m : Step Unit} {c : Task} (hc : c.isRead = false)
    (h : Step.Checks m c s) : s.Move (Step.exec m s).2 := by
  rcases h with ⟨e, he, -⟩ | ⟨hadm, hop, he⟩
  · rw [he]
    exact .stay
  · rw [he]
    exact .enqueue hc hop hadm

theorem beginOpen_move (hb : s.Booked) (st : ByteStream) : s.Move (Step.exec (beginOpen st) s).2 := by
  simp only [beginOpen, Step.exec_bind, Step.exec_get]
  cases hph : s.phase
  case invalid =>
    dsimp only
    split_ifs
    · simp only [Step.exec_bind, Step.exec_lift, Step.exec_throw]
      exact .halt
    · simp only [Step.exec_bind, Step.exec_set, Step.exec_lift]
      exact .open hph ((Step.Ends.issueRead (Or.inl rfl) _ _).guarded (hb.invalid hph))
  all_goals exact .stay

theorem requestSample_move (k : TrackKind) (token : Option UInt64) :
    s.Move (Step.exec (requestSample k token) s).2 := by
  simp only [requestSample, Step.exec_bind, Step.exec_get]
  split_ifs with hsh
  · exact .stay
  · cases ht : s.track k with
    | none => exact .stay
    | some t =>
      dsimp only
      cases hr : t.request token with
      | error e => exact .stay
      | ok r =>
        obtain ⟨t', evs, sig⟩ := r
        have hx := ((Source.Minor.setTrack s k t').trans (emit_minor (t.request_faultless hr) _)).trans
          (onSignal_minor sig _)
        exact .request hsh hx (pump_outcome _ fun hph => .inr ⟨by rwa [← hx.phase], rfl⟩)

theorem runTask_move (hb : s.Booked) {c : Task} {rest : List Task} (ht : (c :: rest).Perm s.tasks) :
    s.Move ((runTask c).run { s with tasks := rest }).2 := by
  have hmem : c ∈ s.tasks := ht.subset List.mem_cons_self
  cases c with
  | read t o n =>
    cases hcur : s.session.isCurrent t
    · rw [runTask_stale hcur]
      by_cases hph : s.phase = .shutdown
      · rw [pump_idle_phase (by simp [hph])]
        exact .drain ht hph
      · exact .stale ht hcur hph (pump_outcome _ fun hph => .inr ⟨hph, rfl⟩)
    · exact .complete ht hcur (runTask_current hb ht hcur)
  | start selection pos =>
    by_cases hph : s.phase = .shutdown
    · have : ((runTask (.start selection pos)).run { s with tasks := rest }).2 =
          { s with tasks := rest, pendingOp := false } := by simp [runTask, runStart, hph]
      rw [this]
      exact .drop ht rfl hph
    · obtain ⟨x, hx, hy⟩ := runStart_outcome (s := { s with tasks := rest }) hph selection pos
      exact .start ht hph hx hy
  | pause =>
    by_cases hph : s.phase = .started
    · obtain ⟨hy, hw⟩ := runPause_minor (s := { s with tasks := rest }) hph
      exact .pause ht hph hy hw
    · -- a queued pause runs only on a started demuxer, or one shut down since
      have hsh : s.phase = .shutdown := (hb.queued .pause hmem rfl).resolve_left hph
      show s.Move (runPause.run { s with tasks := rest }).2
      rw [runPause_run_other (by exact hph)]
      exact .drop ht rfl hsh
  | stop =>
    by_cases hph : s.phase = .shutdown
    · have : ((runTask .stop).run { s with tasks := rest }).2 =
          { s with tasks := rest, pendingOp := false } := by simp [runTask, runStop, hph]
      rw [this]
      exact .drop ht rfl hph
    · exact .stop ht hph (runStop_minor (s := { s with tasks := rest }) hph)

theorem act_move (hb : s.Booked) (a : Action) : s.Move (s.act a).2 := by
  cases a with
  | «open» st => exact beginOpen_move hb st
  | start given pos => exact (start_checks given pos s).move rfl
  | pause => exact (pause_checks s).move rfl
  | stop => exact (stop_checks s).move rfl
  | shutdown => exact .halt
  | request k token => exact requestSample_move k token
  | run i =>
    rcases Source.act_run s i with h | ⟨c, rest, ht, h⟩ <;> rw [h]
    · exact .stay
    · exact runTask_move hb ht

end Moves

theorem Source.Move.orderly {s y : Source} (hs : s.Orderly) (hm : s.Move y) : y.Orderly := by
  have hb := hs.toBooked
  cases hm with
  | stay => exact hs
  | halt => exact ⟨hb.shutdown, fun h => by rcases h with h | h <;> simp at h⟩
  | enqueue hc hop hadm => exact ⟨hb.enqueue hc hop hadm, hs.flowing⟩
  | «open» hph hy =>
    exact hy.orderly (hb.begin hph _) (fun h => by cases h) (fun _ h => h) False.elim
  | request hlive hx hy =>
    exact hy.orderly (hb.minor hx) (by rw [hx.phase]; exact hlive)
      (fun _ h => by rw [hx.phase]; exact h) False.elim
  | complete ht hcur hy =>
    have hlive : s.phase ≠ .shutdown := fun h => by rw [hb.isCurrent_of_shutdown h] at hcur; cases hcur
    exact hy.orderly (hb.popRead ht) hlive (fun _ h => h) fun h => ⟨h, rfl⟩
  | stale ht hst hlive hy => exact hy.orderly (hb.popStale ht) hlive (fun _ h => h) False.elim
  | drain ht hph =>
    refine ⟨hb.popStale ht, fun h => ?_⟩
    rcases h with h | h <;> simp [hph] at h
  | drop ht hc hph =>
    exact ⟨hb.drop ht hc hph, fun h => by rcases h with h | h <;> simp [hph] at h⟩
  | start ht hlive hx hy =>
    exact hy.orderly ((hb.started ht hlive).minor (hx.withPhase _)) (fun h => by cases h)
      (fun _ h => h) False.elim
  | pause ht hph hy hwants =>
    refine ⟨(hb.paused ht hph).minor hy, fun _ hw => ?_⟩
    rw [hy.readInFlight]
    exact hs.flowing (.inl hph) (hwants ▸ hw)
  | stop ht hlive hy =>
    refine ⟨(hb.stopped ht hlive).minor hy, fun hph => ?_⟩
    rw [hy.phase] at hph
    rcases hph with h | h <;> cases h

theorem Source.Orderly.act {s : Source} (hs : s.Orderly) (a : Action) : (s.act a).2.Orderly :=
  (act_move hs.toBooked a).orderly hs

theorem Source.Orderly.actAll {s : Source} (hs : s.Orderly) (as : List Action) :
    (s.actAll as).Orderly := by
  induction as generalizing s with
  | nil => exact hs
  | cons a as ih => exact ih (hs.act a)

theorem Source.orderly_actAll (config : SourceConfig) (as : List Action) :
    ((Source.create config).actAll as).Orderly :=
  (Source.orderly_create config).actAll as

/-- The demuxers some run from a new one reaches. -/
def Source.Reachable (s : Source) : Prop :=
  ∃ config as, (Source.create config).actAll as = s

theorem Source.Reachable.orderly {s : Source} (hs : s.Reachable) : s.Orderly := by
  obtain ⟨config, as, rfl⟩ := hs
  exact Source.orderly_actAll config as

theorem Source.Reachable.act {s : Source} (hs : s.Reachable) (a : Action) : (s.act a).2.Reachable := by
  obtain ⟨config, as, rfl⟩ := hs
  exact ⟨config, as ++ [a], by rw [Source.actAll_append]; rfl⟩

end FlvDemux.Engine
