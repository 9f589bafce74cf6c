import FlvDemux.Proofs.Scanning

/-!
# Queued work and client calls keep the walk

The queue holds at most one read and at most one control operation, and either may run first. A
read of the current session completes where the walk needs it; a stale one finds a rewind
pending. Start and pause change only the phase, stop restarts the session and rewinds, and client
calls are refused with nothing changed or queue their operation (`Queues`).
-/

namespace FlvDemux.Engine

open Flv

section Tasks

variable {s : Source}

theorem runTask_read_ok {st st' : ByteStream} (hs : s.stream = some st) {n : Nat}
    {data : List UInt8} (hr : st.read n = .ok (data, st')) (t : UInt64) (o : Nat) :
    ((runTask (.read t o n)).run s).2 = ((resume t o (.ok data)).run { s with stream := some st' }).2 := by
  simp [runTask, hs, hr]

theorem runTask_read_error {st : ByteStream} (hs : s.stream = some st) {n : Nat} {fl : Fault}
    (hr : st.read n = .error fl) (t : UInt64) (o : Nat) :
    ((runTask (.read t o n)).run s).2 = ((resume t o (.error fl)).run s).2 := by
  simp [runTask, hs, hr]

theorem resume_stale {t : UInt64} (h : s.session.isCurrent t = false) (o : Nat)
    (r : Except Fault (List UInt8)) :
    ((resume t o r).run s).2 = (pump.run { s with readInFlight := false, pending := none }).2 := by
  simp [resume, h]

theorem resume_error {t : UInt64} (h : s.session.isCurrent t = true) {step : ReadStep}
    (hp : s.pending = some step) (o : Nat) (fl : Fault) :
    ((resume t o (.error fl)).run s).2 =
      ((fail (.io fl)).run { s with readInFlight := false, pending := none }).2 := by
  simp [resume, h, hp]

theorem resume_scan {t : UInt64} (h : s.session.isCurrent t = true) {step : ReadStep}
    (hp : s.pending = some step) (hph : s.phase = .opening) (o : Nat) (data : List UInt8) :
    ((resume t o (.ok data)).run s).2 =
      ((guarded (scanStep step data o)).run { s with readInFlight := false, pending := none }).2 := by
  simp [resume, h, hp, hph]

theorem resume_stream {t : UInt64} (h : s.session.isCurrent t = true) {step : ReadStep}
    (hp : s.pending = some step) (hph : s.phase = .started ∨ s.phase = .paused) (o : Nat)
    (data : List UInt8) :
    ((resume t o (.ok data)).run s).2 =
      ((guarded (streamStep step data o)).run { s with readInFlight := false, pending := none }).2 := by
  rcases hph with hph | hph <;> simp [resume, h, hp, hph]

theorem resume_stopped {t : UInt64} (h : s.session.isCurrent t = true) {step : ReadStep}
    (hp : s.pending = some step) (hph : s.phase = .stopped) (o : Nat) (data : List UInt8) :
    ((resume t o (.ok data)).run s).2 = { s with readInFlight := false, pending := none } := by
  simp [resume, h, hp, hph]

end Tasks

section Reads

variable {f : List UInt8} {e : Nat} {s : Source} {t : UInt64} {o n : Nat} {rest : List Task}

theorem Walking.reads_rest (hw : Walking f e s) (ht : (.read t o n :: rest).Perm s.tasks) :
    s.readInFlight = true ∧ rest.countP Task.isRead = 0 := by
  have h := hw.reads
  rw [← ht.countP_eq, List.countP_cons] at h
  cases hin : s.readInFlight
  · simp [hin] at h
  · simp only [hin, if_true, Task.isRead_read] at h
    exact ⟨rfl, by omega⟩

theorem Walking.controls_rest (hw : Walking f e s) (ht : (.read t o n :: rest).Perm s.tasks) :
    rest.countP (fun t => !t.isRead) = if s.pendingOp then 1 else 0 := by
  have h := hw.controls
  rw [← ht.countP_eq, List.countP_cons] at h
  simpa using h

theorem Walking.idle_after_read (hw : Walking f e s) (ht : (.read t o n :: rest).Perm s.tasks)
    (hph : s.phase ≠ .invalid) {st' : ByteStream} (hd : st'.data = f) :
    Idle f st'.position { s with tasks := rest, stream := some st', readInFlight := false,
                                 pending := none } :=
  ⟨⟨hw.live, hph⟩, hw.word, (hw.reads_rest ht).2, by simpa using hw.controls_rest ht, rfl, rfl,
    ⟨st', rfl, hd, rfl⟩, hw.opening, hw.first⟩

end Reads

section QuietSteps

theorem emit_quiet (evs : List Event) (s : Source) : s.Quiet ((emit evs).run s).2 := rfl

theorem forM_quiet {α : Type} {g : α → StateM Source PUnit}
    (hg : ∀ a (s : Source), s.Quiet ((g a).run s).2)
    (as : List α) (s : Source) : s.Quiet ((as.forM g).run s).2 := by
  induction as generalizing s with
  | nil => exact .refl s
  | cons a as ih =>
    have hrun : ((a :: as).forM g).run s = (as.forM g).run ((g a).run s).2 := rfl
    rw [hrun]
    exact (hg a s).trans (ih _)

theorem filterMapM_quiet {α β : Type} {g : α → StateM Source (Option β)}
    (hg : ∀ a (s : Source), s.Quiet ((g a).run s).2) (as : List α) (s : Source) :
    s.Quiet ((as.filterMapM g).run s).2 := by
  induction as generalizing s with
  | nil => exact .refl s
  | cons a as ih =>
    rw [List.filterMapM_cons]
    simp only [StateT.run_bind, bind_id_eq]
    split <;> exact (hg a s).trans (ih _)

theorem onTrackQuietly_quiet (k : TrackKind) (g : Track → Track × List Event) (s : Source) :
    s.Quiet ((onTrackQuietly k g).run s).2 := by
  simp only [onTrackQuietly, StateT.run_bind, bind_id_eq]
  exact onTrack_quiet k _ s

theorem startTrack_quiet (selection : List TrackKind) (pos : StartPosition) (k : TrackKind)
    (s : Source) : s.Quiet ((startTrack selection pos k).run s).2 := by
  simp only [startTrack, StateT.run_bind, StateT.run_get, bind_id_eq, pure_id_eq]
  cases h : s.track k with
  | none => exact .refl s
  | some t =>
    dsimp only
    split
    · simp only [StateT.run_bind, bind_id_eq, StateT.run_set, StateT.run_pure, pure_id_eq]
      split <;> exact (s.setTrack_quiet k _).trans rfl
    · simp only [StateT.run_bind, bind_id_eq, StateT.run_set, StateT.run_map, map_id_eq,
        pure_id_eq]
      refine Source.Quiet.trans (Source.Quiet.trans ?_ (emit_quiet _ _)) (onTrack_quiet k _ _)
      split <;> exact (s.setTrack_quiet k _).trans rfl

end QuietSteps

section Transport

variable {f : List UInt8} {e : Nat} {s s' : Source}

theorem Awaiting.congr {o n : Nat} (ha : Awaiting f e s o n) (hp : s'.pending = s.pending)
    (hph : s'.phase = s.phase) (hst : s'.stream = s.stream)
    (hr : s'.rewindPending = s.rewindPending) (hk : s'.skipPrefix = s.skipPrefix) :
    Awaiting f e s' o n := by
  obtain ⟨hstep, hpos, hrw, hsk, hphase⟩ := ha
  refine ⟨by rw [hp, hph]; exact hstep, by simpa [Source.position, hst] using hpos, by rw [hr]; exact hrw,
    by rw [hk]; exact hsk, by rw [hph]; exact hphase⟩

theorem Resting.congr (hr : Resting f e s) (hph : s'.phase = s.phase)
    (hsv : s'.survey = s.survey) (hnext : s'.nextHeaderAt = s.nextHeaderAt) : Resting f e s' := by
  obtain ⟨hop, hst, hnx⟩ := hr
  refine ⟨by rw [hph]; exact hop, fun h => ?_, fun h => ?_⟩
  · rw [hsv, hnext]
    exact hst (hph ▸ h)
  · rw [hnext]
    exact hnx (hph ▸ h)

theorem Walking.quiet (hw : Walking f e s) (hq : s.Quiet s') : Walking f e s' := by
  have hnext : s'.nextHeaderAt = s.nextHeaderAt := by
    simp [Source.nextHeaderAt, Source.position, hq.rewindPending, hq.skipPrefix, hq.survey, hq.stream]
  refine ⟨?_, ?_, ?_, ?_, ?_, ?_, ?_, ?_, ?_, hw.chain, ?_, ?_, ?_⟩
  all_goals simp only [hq.phase, hq.session, hq.tasks, hq.readInFlight, hq.pendingOp, hq.pending,
    hq.stream, hq.survey, hq.rewindPending, hq.skipPrefix]
  · exact hw.live
  · exact hw.word
  · exact hw.reads
  · exact hw.controls
  · exact hw.pending
  · exact hw.stream
  · exact hw.invalid
  · exact hw.opening
  · exact hw.first
  · exact fun o n h => (hw.current o n h).congr hq.pending hq.phase hq.stream hq.rewindPending
      hq.skipPrefix
  · exact hw.stale
  · exact fun h => (hw.resting h).congr hq.phase hq.survey hnext

end Transport

section Stale

variable {f : List UInt8} {e : Nat} {s : Source} {t : UInt64} {o n : Nat} {rest : List Task}

theorem Walking.after_stale (hw : Walking f e s) (ht : (.read t o n :: rest).Perm s.tasks)
    (hne : t ≠ s.session.word) {str : Option ByteStream}
    (hstr : ∃ st, str = some st ∧ st.data = f) :
    Walking f e { s with tasks := rest, stream := str, readInFlight := false, pending := none } := by
  have hmem : Task.read t o n ∈ s.tasks := ht.subset List.mem_cons_self
  obtain ⟨hrw, hopen⟩ := hw.stale t o n hmem hne
  have hnone := not_mem_of_countP_isRead (hw.reads_rest ht).2
  have hinv : s.phase ≠ .invalid := fun h => by simp [(hw.invalid h).1] at hmem
  have hrest : Resting f e s := hw.resting fun o' n' h => by
    rcases List.mem_cons.1 (ht.symm.subset h) with h | h
    · cases h
      exact hne rfl
    · exact hnone _ _ _ h
  refine ⟨hw.live, hw.word, by simpa using (hw.reads_rest ht).2, by simpa using hw.controls_rest ht,
    fun h => by simp at h, .inr hstr, fun h => absurd h hinv, fun h => absurd h hopen,
    hw.first, hw.chain, fun o' n' h => absurd h (hnone _ _ _), fun t' o' n' h => absurd h (hnone _ _ _),
    fun _ => hrest.congr rfl rfl ?_⟩
  simp [Source.nextHeaderAt, hrw]

end Stale

section Controls

variable {f : List UInt8} {e : Nat} {s : Source} {c : Task} {rest : List Task}

theorem Walking.control (hw : Walking f e s) (ht : (c :: rest).Perm s.tasks)
    (hc : c.isRead = false) :
    s.pendingOp = true ∧ rest.countP (fun t => !t.isRead) = 0 ∧
      (s.phase = .stopped ∨ s.phase = .started ∨ s.phase = .paused) := by
  have hctl := hw.controls
  rw [← ht.countP_eq, List.countP_cons] at hctl
  have hop : s.pendingOp = true := by
    cases hp : s.pendingOp
    · simp [hp, hc] at hctl
    · rfl
  refine ⟨hop, by simp only [hop, hc, Bool.not_false, if_true] at hctl; omega, ?_⟩
  have hinv : s.phase ≠ .invalid := fun h => by
    simpa [(hw.invalid h).1] using ht.subset List.mem_cons_self
  have hopen : s.phase ≠ .opening := fun h => by simp [hw.opening h] at hop
  have hlive := hw.live
  cases hph : s.phase <;> simp_all

theorem Walking.popControl (hw : Walking f e s) (ht : (c :: rest).Perm s.tasks)
    (hc : c.isRead = false) : Walking f e { s with tasks := rest, pendingOp := false } := by
  obtain ⟨-, hctl, hph⟩ := hw.control ht hc
  have hmem : ∀ x, x ∈ rest → x ∈ s.tasks := fun x hx => ht.subset (List.mem_cons_of_mem _ hx)
  have hinv : s.phase ≠ .invalid := by rcases hph with h | h | h <;> simp [h]
  have hopen : s.phase ≠ .opening := by rcases hph with h | h | h <;> simp [h]
  refine ⟨hw.live, hw.word, ?_, by simpa using hctl, hw.pending, hw.stream, fun h => absurd h hinv,
    fun h => absurd h hopen, hw.first, hw.chain,
    fun o n h => (hw.current o n (hmem _ h)).congr rfl rfl rfl rfl rfl,
    fun t o n h hne => hw.stale t o n (hmem _ h) hne, fun h => ?_⟩
  · have := hw.reads
    rw [← ht.countP_eq, List.countP_cons] at this
    simpa [hc] using this
  · refine (hw.resting fun o n hm => ?_).congr rfl rfl rfl
    rcases List.mem_cons.1 (ht.symm.subset hm) with hm | hm
    · subst hm
      simp at hc
    · exact h o n hm

theorem Walking.setPhase (hw : Walking f e s)
    (hph : s.phase = .stopped ∨ s.phase = .started ∨ s.phase = .paused) {ph : Phase}
    (hnew : ph = .started ∨ ph = .paused) : Walking f e { s with phase := ph } := by
  have hinv : s.phase ≠ .invalid := by rcases hph with h | h | h <;> simp [h]
  have hopen : s.phase ≠ .opening := by rcases hph with h | h | h <;> simp [h]
  have hlive : ph ≠ .shutdown ∧ ph ≠ .invalid ∧ ph ≠ .opening ∧ ph ≠ .stopped := by
    rcases hnew with rfl | rfl <;> simp
  refine ⟨hlive.1, hw.word, hw.reads, hw.controls, hw.pending, .inr (hw.stream.resolve_left hinv),
    fun h => absurd h hlive.2.1, fun h => absurd h hlive.2.2.1, hw.first, hw.chain, fun o n h => ?_,
    fun t o n h hne => ⟨(hw.stale t o n h hne).1, hlive.2.2.1⟩, fun h => ?_⟩
  · obtain ⟨⟨step, hp, hfit, hscan⟩, hpos, hrw, hsk, -⟩ := hw.current o n h
    exact ⟨⟨step, hp, hfit, fun _ => hscan hopen⟩, hpos, hrw, hsk, .inr hnew⟩
  · obtain ⟨-, -, hnext⟩ := hw.resting h
    exact ⟨hlive.2.2.1, fun h => absurd h hlive.2.2.2, fun _ => hnext hinv⟩

theorem Walking.enqueue (hw : Walking f e s) (hop : s.pendingOp = false)
    (hph : s.phase = .stopped ∨ s.phase = .started ∨ s.phase = .paused) (hc : c.isRead = false) :
    Walking f e { s with pendingOp := true, tasks := s.tasks ++ [c] } := by
  have hinv : s.phase ≠ .invalid := by rcases hph with h | h | h <;> simp [h]
  have hopen : s.phase ≠ .opening := by rcases hph with h | h | h <;> simp [h]
  have hmem : ∀ t o n, Task.read t o n ∈ s.tasks ++ [c] → Task.read t o n ∈ s.tasks := by
    intro t o n h
    rcases List.mem_append.1 h with h | h
    · exact h
    · rw [List.mem_singleton] at h
      subst h
      simp at hc
  refine ⟨hw.live, hw.word, ?_, ?_, hw.pending, hw.stream, fun h => absurd h hinv,
    fun h => absurd h hopen, hw.first, hw.chain,
    fun o n h => (hw.current o n (hmem _ _ _ h)).congr rfl rfl rfl rfl rfl, fun t o n h hne => ?_,
    fun h => (hw.resting fun o n hm => h o n (List.mem_append_left _ hm)).congr rfl rfl rfl⟩
  · simpa [List.countP_append, hc] using hw.reads
  · have := hw.controls
    simp [List.countP_append, hc, hop] at this ⊢
    exact this
  · exact hw.stale t o n (hmem _ _ _ h) hne

end Controls

section ControlRuns

variable {s : Source}

theorem runStart_run (h : s.phase ≠ .shutdown) (selection : List TrackKind) (pos : StartPosition) :
    ∃ x y, ({ s with pendingOp := false } : Source).Quiet x ∧
      ({ x with phase := .started } : Source).Quiet y ∧
      ((runStart selection pos).run s).2 = (pump.run y).2 := by
  simp only [runStart, StateT.run_bind, StateT.run_modify, StateT.run_get, bind_id_eq, pure_id_eq]
  rw [if_pos h]
  simp only [StateT.run_bind, StateT.run_modify, bind_id_eq]
  refine ⟨_, _, Source.Quiet.trans ?_ (filterMapM_quiet (startTrack_quiet selection pos) _ _),
    (emit_quiet _ _).trans (forM_quiet onSignal_quiet _ _), rfl⟩
  rfl

theorem runPause_run_started (h : s.phase = .started) :
    ∃ y, ({ s with pendingOp := false, phase := .paused } : Source).Quiet y ∧
      (runPause.run s).2 = y := by
  simp only [runPause, StateT.run_bind, StateT.run_modify, StateT.run_get, bind_id_eq, pure_id_eq]
  rw [if_pos h]
  simp only [StateT.run_bind, StateT.run_modify, bind_id_eq]
  exact ⟨_, (forM_quiet (fun k => onTrackQuietly_quiet k _) _ _).trans (emit_quiet _ _), rfl⟩

theorem runPause_run_other (h : s.phase ≠ .started) :
    (runPause.run s).2 = { s with pendingOp := false } := by
  simp only [runPause, StateT.run_bind, StateT.run_modify, StateT.run_get, bind_id_eq, pure_id_eq]
  rw [if_neg h]
  rfl

theorem runStop_run (h : s.phase ≠ .shutdown) {st : ByteStream} (hs : s.stream = some st) :
    ∃ x, ({ s with pendingOp := false, stream := some { st with position := 0 },
                   session := s.session.restart } : Source).Quiet x ∧
      (runStop.run s).2 = { x with rewindPending := true, avcConfig := x.survey.avcConfig,
                                   avcConfigSent := false, pendingEos := 0, eopSent := false,
                                   phase := .stopped, events := x.events ++ [.sourceStopped] } := by
  simp only [runStop, StateT.run_bind, StateT.run_modify, StateT.run_get, bind_id_eq, pure_id_eq]
  rw [if_pos h]
  simp only [StateT.run_bind, StateT.run_get, bind_id_eq, pure_id_eq, hs, ByteStream.seek_start]
  dsimp only [Functor.map, Except.map]
  simp only [StateT.run_bind, StateT.run_set, StateT.run_modify, bind_id_eq, pure_id_eq]
  exact ⟨_, forM_quiet (fun k => onTrackQuietly_quiet k Track.stop) TrackKind.all _, rfl⟩

end ControlRuns

section ControlSteps

variable {f : List UInt8} {e : Nat} {s : Source} {rest : List Task}

theorem Walking.runTask_start (hw : Walking f e s) {selection : List TrackKind}
    {pos : StartPosition} (ht : (.start selection pos :: rest).Perm s.tasks) :
    Sound f e ((runTask (.start selection pos)).run { s with tasks := rest }).2 := by
  obtain ⟨-, -, hph⟩ := hw.control ht rfl
  have hw₁ := hw.popControl ht rfl
  obtain ⟨x, y, hx, hy, hrun⟩ := runStart_run (s := { s with tasks := rest }) hw.live selection pos
  simp only [runTask]
  rw [hrun]
  have hph' : x.phase = .stopped ∨ x.phase = .started ∨ x.phase = .paused := by
    rw [hx.phase]
    exact hph
  exact pump_sound (((hw₁.quiet hx).setPhase hph' (.inl rfl)).quiet hy)

theorem Walking.runTask_pause (hw : Walking f e s) (ht : (.pause :: rest).Perm s.tasks) :
    Sound f e ((runTask .pause).run { s with tasks := rest }).2 := by
  obtain ⟨-, -, hph⟩ := hw.control ht rfl
  have hw₁ := hw.popControl ht rfl
  simp only [runTask]
  by_cases hst : s.phase = .started
  · obtain ⟨y, hy, hrun⟩ := runPause_run_started (s := { s with tasks := rest }) hst
    rw [hrun]
    exact .inr ((hw₁.setPhase hph (.inr rfl)).quiet hy)
  · rw [runPause_run_other (s := { s with tasks := rest }) hst]
    exact .inr hw₁

theorem Walking.runTask_stop (hw : Walking f e s) (ht : (.stop :: rest).Perm s.tasks)
    (hnew : ∀ t o n, Task.read t o n ∈ s.tasks → t ≠ s.session.restart.word) :
    Rewound f ((runTask .stop).run { s with tasks := rest }).2 ∧
      ((runTask .stop).run { s with tasks := rest }).2.survey = s.survey := by
  obtain ⟨-, hctl, hph⟩ := hw.control ht rfl
  have hinv : s.phase ≠ .invalid := by rcases hph with h | h | h <;> simp [h]
  obtain ⟨st, hs, hd⟩ := hw.stream.resolve_left hinv
  obtain ⟨x, hx, hrun⟩ := runStop_run (s := { s with tasks := rest }) hw.live hs
  simp only [runTask]
  rw [hrun]
  have hmem : ∀ t o n, Task.read t o n ∈ x.tasks → Task.read t o n ∈ s.tasks := fun t o n h => by
    rw [hx.tasks] at h
    exact ht.subset (List.mem_cons_of_mem _ h)
  have hreads : rest.countP Task.isRead = if s.readInFlight then 1 else 0 := by
    have := hw.reads
    rw [← ht.countP_eq, List.countP_cons] at this
    simpa [Task.isRead] using this
  have hfirst := hw.first
  rw [← hx.survey] at hfirst
  refine ⟨⟨rfl, .inr ⟨by simp, ?_, ?_, ?_, ?_, ?_, fun h => by simp at h, fun h => by simp at h,
    hfirst, hfirst, fun o n h => ?_, fun t o n _ _ => ⟨rfl, by simp⟩, fun _ => ?_⟩⟩, hx.survey⟩
  · rw [hx.session]
    simpa [Session.restart_bit] using hw.word
  · simpa [hx.tasks, hx.readInFlight] using hreads
  · simp [hx.tasks, hx.pendingOp, hctl]
  · simpa [hx.pending, hx.readInFlight] using hw.pending
  · exact .inr ⟨_, hx.stream, hd⟩
  · exact (hnew _ _ _ (hmem _ _ _ h) (by rw [hx.session])).elim
  · exact ⟨by simp, fun _ => ⟨rfl, by simp [Source.nextHeaderAt]⟩,
      fun _ => .inl (by simp [Source.nextHeaderAt])⟩

end ControlSteps

section Client

variable {f : List UInt8} {e : Nat} {s : Source}

theorem enqueue_exec (c : Task) (s : Source) :
    Step.exec (do beginOperation; spawn c : Step Unit) s =
      if s.pendingOp then (.error .notAccepting, s)
      else (.ok (), { s with pendingOp := true, tasks := s.tasks ++ [c] }) := by
  cases h : s.pendingOp <;> simp [beginOperation, h, Step.exec_bind]

/-- The outcomes of a control call: refused with nothing changed, or its operation queued, which
only an open demuxer with no operation queued accepts. -/
def Queues (m : Step Unit) (c : Task) (s : Source) : Prop :=
  (Step.exec m s).2 = s ∨
    (s.phase = .stopped ∨ s.phase = .started ∨ s.phase = .paused) ∧ s.pendingOp = false ∧
      (Step.exec m s).2 = { s with pendingOp := true, tasks := s.tasks ++ [c] }

namespace Queues

variable {c : Task} {m : Step Unit}

theorem throw_bind {α : Type} (err : SourceError) (k : α → Step Unit) : Queues (throw err >>= k) c s :=
  .inl (by rw [Step.exec_bind, Step.exec_throw])

theorem ite {p : Prop} [Decidable p] {a b : Step Unit} (ha : Queues a c s) (hb : Queues b c s) :
    Queues (if p then a else b) c s := by
  split <;> assumption

theorem bind_ok {α : Type} {a : Step α} {x : α} {k : α → Step Unit} (ha : Step.exec a s = (.ok x, s))
    (hk : Queues (k x) c s) : Queues (a >>= k) c s := by
  unfold Queues at hk ⊢
  rw [Step.exec_bind, ha]
  exact hk

theorem bind_error {α : Type} {a : Step α} {err : SourceError} {k : α → Step Unit}
    (ha : Step.exec a s = (.error err, s)) : Queues (a >>= k) c s :=
  .inl (by rw [Step.exec_bind, ha])

theorem enqueue (hph : s.phase = .stopped ∨ s.phase = .started ∨ s.phase = .paused) :
    Queues (do beginOperation; spawn c) c s := by
  unfold Queues
  rw [enqueue_exec]
  cases h : s.pendingOp
  · exact .inr ⟨hph, rfl, rfl⟩
  · exact .inl rfl

end Queues

theorem requireOpen_exec (s : Source) :
    Step.exec requireOpen s = (.ok (), s) ∧ (s.phase = .stopped ∨ s.phase = .started ∨ s.phase = .paused) ∨
      ∃ err, Step.exec requireOpen s = (.error err, s) := by
  simp only [requireOpen, Step.exec_bind, Step.exec_get]
  cases h : s.phase <;> simp [h, Source.isOpen]

theorem start_queues (given : Presentation) (pos : StartPosition) (s : Source) :
    Queues (start given pos) (.start given.selected pos) s := by
  rcases requireOpen_exec s with ⟨hreq, hph⟩ | ⟨err, hreq⟩
  · refine Queues.bind_ok hreq (Queues.bind_ok (Step.exec_get s) ?_)
    cases pos <;> dsimp only <;>
      repeat (first | exact Queues.enqueue hph | apply Queues.ite | apply Queues.throw_bind)
  · exact Queues.bind_error hreq

theorem pause_queues (s : Source) : Queues pause .pause s := by
  refine Queues.bind_ok (Step.exec_get s) ?_
  by_cases h₁ : s.phase = .shutdown
  · rw [if_pos h₁]
    exact Queues.throw_bind _ _
  · rw [if_neg h₁]
    by_cases h₂ : s.phase = .started
    · rw [if_neg (not_not.2 h₂)]
      exact Queues.enqueue (.inr (.inl h₂))
    · rw [if_pos h₂]
      exact Queues.throw_bind _ _

theorem stop_queues (s : Source) : Queues stop .stop s := by
  rcases requireOpen_exec s with ⟨hreq, hph⟩ | ⟨err, hreq⟩
  · exact Queues.bind_ok hreq (Queues.enqueue hph)
  · exact Queues.bind_error hreq

theorem Walking.queues (hw : Walking f e s) {m : Step Unit} {c : Task} (hc : c.isRead = false)
    (hq : Queues m c s) : Sound f e (Step.exec m s).2 := by
  rcases hq with h | ⟨hph, hop, h⟩
  · rw [h]
    exact .inr hw
  · rw [h]
    exact .inr (hw.enqueue hop hph hc)

theorem requestSample_cases (k : TrackKind) (token : Option UInt64) (s : Source) :
    (Step.exec (requestSample k token) s).2 = s ∨
      ∃ s', s.Quiet s' ∧ (Step.exec (requestSample k token) s).2 = (pump.run s').2 := by
  simp only [requestSample, Step.exec_bind, Step.exec_get]
  split_ifs
  · left
    rfl
  · cases ht : s.track k with
    | none => exact .inl rfl
    | some t =>
      dsimp only
      cases t.request token with
      | error err => exact .inl rfl
      | ok r =>
        obtain ⟨t', evs, sig⟩ := r
        exact .inr ⟨_, ((s.setTrack_quiet k t').trans (emit_quiet evs _)).trans (onSignal_quiet sig _),
          rfl⟩

theorem Walking.opens (hw : Walking f e s) {st : ByteStream} (hd : st.data = f) :
    Sound f e (Step.exec (beginOpen st) s).2 := by
  simp only [beginOpen, Step.exec_bind, Step.exec_get]
  cases hph : s.phase
  case invalid =>
    obtain ⟨htasks, hin, hrw, hsk, he⟩ := hw.invalid hph
    dsimp only
    split_ifs with hok
    · left
      simp only [Step.exec_bind, Step.exec_lift, Step.exec_throw]
      exact ⟨shutdownNow_phase _, by rw [shutdownNow_session (by simp [hph])]; exact s.session.shutdown_bit⟩
    · simp only [Step.exec_bind, Step.exec_set, Step.exec_lift]
      have hop : s.pendingOp = false := by
        have := hw.controls
        simp only [htasks, List.countP_nil] at this
        cases hp : s.pendingOp <;> simp_all
      have hpend : s.pending = none := by
        cases hp : s.pending with
        | none => rfl
        | some _ => simp [hw.pending (by simp [hp])] at hin
      have hi : Idle f 0 { s with phase := .opening, stream := some { st with position := 0 },
                                  awaitingOpen := true } :=
        ⟨⟨by simp, by simp⟩, hw.word, by simp [htasks], hw.controls, hin, hpend, ⟨_, rfl, hd, rfl⟩,
          fun _ => hop, hw.first⟩
      rw [guarded_ok (issueRead_some rfl (ByteStream.seek_start st 0) _ _)]
      exact .inr (hi.issued ⟨rfl, rfl, he⟩ (fun h => absurd rfl h) hrw hsk (.inl rfl)
        (he ▸ onChain_first f))
  all_goals exact .inr hw

end Client

section ShutDown

variable {s : Source}

theorem pump_idle_phase (h : s.phase ≠ .started ∧ s.phase ≠ .paused) : (pump.run s).2 = s := by
  simp [pump, h.1, h.2]

theorem act_of_shutdown (h : s.phase = .shutdown) (hw : s.session.word &&& shutdownBit ≠ 0)
    (a : Action) : (s.act a).2.phase = .shutdown ∧ (s.act a).2.session = s.session := by
  have hfixed : ∀ {m : Step Unit} {c : Task}, Queues m c s → (Step.exec m s).2 = s := by
    intro m c hq
    rcases hq with hq | ⟨hph, -⟩
    · exact hq
    · rcases hph with hph | hph | hph <;> simp [h] at hph
  cases a with
  | «open» st => simp [Source.act, beginOpen, Step.exec_bind, h]
  | start given pos => rw [Source.act, hfixed (start_queues given pos s)]; exact ⟨h, rfl⟩
  | pause => rw [Source.act, hfixed (pause_queues s)]; exact ⟨h, rfl⟩
  | stop => rw [Source.act, hfixed (stop_queues s)]; exact ⟨h, rfl⟩
  | shutdown => simp [Source.act, shutdownNow_of_shutdown h, h]
  | request k token =>
    simp only [Source.act]
    rcases requestSample_cases k token s with hr | ⟨s', hq, hr⟩
    · rw [hr]; exact ⟨h, rfl⟩
    · rw [hr, pump_idle_phase (by simp [hq.phase, h])]
      exact ⟨hq.phase ▸ h, hq.session⟩
  | run i =>
    rcases Source.act_run s i with hrun | ⟨c, rest, -, hrun⟩
    · rw [hrun]
      exact ⟨h, rfl⟩
    rw [hrun]
    cases c with
    | read t o n =>
      have hstale : s.session.isCurrent t = false := Session.isCurrent_of_shutdown hw t
      have hres : ∀ (s' : Source) r, s'.phase = .shutdown → s'.session = s.session →
          ((resume t o r).run s').2.phase = .shutdown ∧ ((resume t o r).run s').2.session = s.session := by
        intro s' r hph hss
        rw [resume_stale (by rw [hss]; exact hstale), pump_idle_phase (by simp [hph])]
        exact ⟨hph, hss⟩
      rcases Option.eq_none_or_eq_some s.stream with hs | ⟨st, hs⟩
      · simp only [runTask, StateT.run_bind, StateT.run_get, bind_id_eq, hs, pure_id_eq]
        exact hres _ _ h rfl
      · cases hr : st.read n with
        | error fl =>
          rw [runTask_read_error (s := { s with tasks := rest }) hs hr]
          exact hres _ _ h rfl
        | ok r =>
          rw [runTask_read_ok (s := { s with tasks := rest }) hs hr]
          exact hres _ _ h rfl
    | start selection pos => simp [runTask, runStart, h]
    | pause => simp only [runTask]; rw [runPause_run_other (by simp [h])]; exact ⟨h, rfl⟩
    | stop => simp [runTask, runStop, h]

end ShutDown

end FlvDemux.Engine
