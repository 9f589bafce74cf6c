import FlvDemux.Proofs.Moves

/-!
# What a step does to the books of reads, operations and failures

Most of what a step does leaves the books on reads, operations, phase and failures alone
(`Source.Minor`). What else a read completion or a pump may do is said once, as an `Outcome`: it
stops, issues the next read, fails, or ends the scan. `Step.Ends` says this of a whole step.
-/

namespace FlvDemux.Engine

open Flv

/-- Whether an event reports a failure. -/
def Event.isError : Event → Bool
  | .error _ => true
  | _ => false

def Faultless (M : List Event) : Prop := ∀ e ∈ M, e.isError = false

theorem Faultless.nil : Faultless [] := fun _ h => absurd h List.not_mem_nil

theorem Faultless.append {M N : List Event} (hM : Faultless M) (hN : Faultless N) :
    Faultless (M ++ N) := by
  intro e he
  rcases List.mem_append.1 he with h | h
  · exact hM e h
  · exact hN e h

theorem Faultless.cons {e : Event} {M : List Event} (he : e.isError = false) (hM : Faultless M) :
    Faultless (e :: M) := by
  intro e' h
  rcases List.mem_cons.1 h with rfl | h
  · exact he
  · exact hM e' h

/-- `s'` is `s` with its books as they were: the same queue, read awaited, accepted operation,
phase, session and waiting open, a stream if `s` had one, the rewind flag while a read is out,
and only events that report no failure added to the log. -/
structure Source.Minor (s s' : Source) : Prop where
  tasks : s'.tasks = s.tasks
  readInFlight : s'.readInFlight = s.readInFlight
  pending : s'.pending = s.pending
  pendingOp : s'.pendingOp = s.pendingOp
  phase : s'.phase = s.phase
  session : s'.session = s.session
  awaitingOpen : s'.awaitingOpen = s.awaitingOpen
  stream : s.stream.isSome → s'.stream.isSome
  rewind : s.readInFlight = true → s'.rewindPending = s.rewindPending
  events : ∃ M, s'.events = s.events ++ M ∧ Faultless M

namespace Source.Minor

variable {s s' s'' : Source}

theorem refl (s : Source) : s.Minor s :=
  ⟨rfl, rfl, rfl, rfl, rfl, rfl, rfl, id, fun _ => rfl, [], by simp, Faultless.nil⟩

theorem trans (h : s.Minor s') (h' : s'.Minor s'') : s.Minor s'' := by
  obtain ⟨M, hM, hf⟩ := h.events
  obtain ⟨N, hN, hg⟩ := h'.events
  exact ⟨h'.tasks.trans h.tasks, h'.readInFlight.trans h.readInFlight, h'.pending.trans h.pending,
    h'.pendingOp.trans h.pendingOp, h'.phase.trans h.phase, h'.session.trans h.session,
    h'.awaitingOpen.trans h.awaitingOpen, fun hs => h'.stream (h.stream hs),
    fun hr => (h'.rewind (h.readInFlight.trans hr)).trans (h.rewind hr), M ++ N,
    by rw [hN, hM, List.append_assoc], hf.append hg⟩

theorem of_eq (ht : s'.tasks = s.tasks) (hr : s'.readInFlight = s.readInFlight)
    (hp : s'.pending = s.pending) (ho : s'.pendingOp = s.pendingOp) (hph : s'.phase = s.phase)
    (hss : s'.session = s.session) (ha : s'.awaitingOpen = s.awaitingOpen)
    (hst : s.stream.isSome → s'.stream.isSome)
    (hrw : s.readInFlight = true → s'.rewindPending = s.rewindPending) (he : s'.events = s.events) :
    s.Minor s' :=
  ⟨ht, hr, hp, ho, hph, hss, ha, hst, hrw, [], by simp [he], Faultless.nil⟩

theorem of_quiet (hq : s.Quiet s') (he : ∃ M, s'.events = s.events ++ M ∧ Faultless M) :
    s.Minor s' :=
  ⟨hq.tasks, hq.readInFlight, hq.pending, hq.pendingOp, hq.phase, hq.session, by rw [hq],
    fun h => by rw [hq.stream]; exact h, fun _ => by rw [hq.rewindPending], he⟩

end Source.Minor

instance : Std.Refl Source.Minor := ⟨Source.Minor.refl⟩

instance : IsTrans Source Source.Minor := ⟨fun _ _ _ => Source.Minor.trans⟩

/-- A step whose run from any demuxer ends in a state related to it by `R`, however it ends. -/
def Step.Within {α : Type} (R : Source → Source → Prop) (m : Step α) : Prop :=
  ∀ s : Source, R s (Step.exec m s).2

namespace Step.Within

variable {R : Source → Source → Prop} {α β : Type}

theorem pure [Std.Refl R] (a : α) : Within R (Pure.pure a : Step α) := fun s => refl_of R s

theorem throw [Std.Refl R] (e : SourceError) : Within R (MonadExcept.throw e : Step α) :=
  fun s => refl_of R s

theorem get [Std.Refl R] : Within R (MonadState.get : Step Source) := fun s => refl_of R s

theorem update {f : Source → Source} (h : ∀ s, R s (f s)) : Within R (modify f : Step PUnit) :=
  fun s => by
    rw [Step.exec_modify]
    exact h s

theorem lift {m : StateM Source α} (h : ∀ s, R s (m.run s).2) : Within R (liftM m : Step α) :=
  fun s => by
    rw [Step.exec_lift]
    exact h s

theorem bind [IsTrans Source R] {m : Step α} {f : α → Step β} (hm : Within R m)
    (hf : ∀ a, Within R (f a)) : Within R (m >>= f) := by
  intro s
  have h := hm s
  rw [Step.exec_bind]
  rcases hr : Step.exec m s with ⟨r, x⟩
  rw [hr] at h
  cases r with
  | ok a => exact trans_of R h (hf a x)
  | error e => exact h

theorem ofFormat [Std.Refl R] (r : Except FormatError α) : Within R (Engine.ofFormat r) := fun s => by
  rw [ofFormat_exec]
  exact refl_of R s

theorem seekStream [Std.Refl R] (hmove : ∀ (s : Source) (st : ByteStream), s.stream.isSome →
    R s { s with stream := some st }) (target : SeekTarget) : Within R (Engine.seekStream target) :=
  fun s => by
    rw [seekStream_exec]
    cases hs : s.stream with
    | none => exact refl_of R s
    | some st =>
      dsimp only
      split
      · exact hmove s _ (by simp [hs])
      · exact refl_of R s

end Step.Within

namespace Track

variable (t : Track)

theorem dispatch_faultless : Faultless t.dispatch.2.1 := fun e he => by
  rcases t.mem_dispatch_events he with ⟨x, tok, rfl⟩ | ⟨rfl, -⟩ <;> rfl

theorem start_faultless (pos : StartPosition) : Faultless (t.start pos).2.1 := by
  rw [start_eq]
  exact Faultless.cons rfl (dispatch_faultless _)

theorem markEnd_faultless : Faultless t.markEnd.2.1 := dispatch_faultless _

theorem deliver_faultless (x : Sample) : Faultless (t.deliver x).2.1 := by
  unfold deliver
  split_ifs
  · exact Faultless.nil
  · exact dispatch_faultless _
  · exact dispatch_faultless _

theorem request_faultless {token : Option UInt64} {r : Track × List Event × Signal}
    (h : t.request token = .ok r) : Faultless r.2.1 := by
  rw [(request_ok h).2.2.2]
  exact dispatch_faultless _

theorem pause_faultless : Faultless t.pause.2 := by
  unfold pause
  split
  · exact Faultless.cons rfl Faultless.nil
  · exact Faultless.nil

theorem stop_faultless : Faultless t.stop.2 := by
  unfold stop
  split
  · exact Faultless.cons rfl Faultless.nil
  · exact Faultless.nil

end Track

section Pieces

variable {k : TrackKind}

theorem onTrack_minor {g : Track → Track × List Event × Signal} (hg : ∀ t, Faultless (g t).2.1)
    (s : Source) : s.Minor ((onTrack k g).run s).2 := by
  have hq := onTrack_quiet k g s
  cases ht : s.track k with
  | none =>
    rw [onTrack_none ht]
    exact .refl s
  | some t =>
    rw [onTrack_some ht] at hq ⊢
    exact .of_quiet hq ⟨_, rfl, hg t⟩

theorem onSignal_minor (sig : Signal) (s : Source) : s.Minor ((onSignal sig).run s).2 := by
  refine .of_quiet (onSignal_quiet sig s) ?_
  simp only [onSignal, StateT.run_modify, pure_id_eq]
  split_ifs
  · exact ⟨[], by simp, Faultless.nil⟩
  · exact ⟨[.endOfPresentation], rfl, Faultless.cons rfl Faultless.nil⟩
  · exact ⟨[], by simp, Faultless.nil⟩

theorem deliver_minor (x : Sample) (s : Source) : s.Minor ((deliver k x).run s).2 := by
  simp only [deliver, StateT.run_bind, bind_id_eq]
  exact (onTrack_minor (fun t => t.deliver_faultless x) s).trans (onSignal_minor _ _)

theorem endTrack_minor (s : Source) (k : TrackKind) : s.Minor (s.endTrack k) := by
  unfold Source.endTrack
  split
  · simp only [StateT.run_bind, bind_id_eq]
    exact (onTrack_minor Track.markEnd_faultless s).trans (onSignal_minor _ _)
  · exact .refl s

theorem Step.Within.seekMinor (target : SeekTarget) :
    Step.Within Source.Minor (Engine.seekStream target) :=
  Step.Within.seekStream (fun _ _ _ => .of_eq rfl rfl rfl rfl rfl rfl rfl (fun _ => rfl) (fun _ => rfl) rfl) target

theorem Step.Within.skipMinor (n : Nat) : Step.Within Source.Minor (Engine.skipBytes n) :=
  Step.Within.seekMinor _

theorem Step.Within.surveyMinor (f : Survey → Survey) :
    Step.Within Source.Minor (liftM (updateSurvey f) : Step PUnit) :=
  Step.Within.lift fun _ => .of_eq rfl rfl rfl rfl rfl rfl rfl id (fun _ => rfl) rfl

theorem Step.Within.replaceMinor (payload : List UInt8) :
    Step.Within Source.Minor (replaceAvcConfig payload) :=
  Step.Within.bind (Step.Within.ofFormat _) fun _ => Step.Within.update fun s => by
    split
    · exact .refl s
    · exact .of_eq rfl rfl rfl rfl rfl rfl rfl id (fun _ => rfl) rfl

theorem Step.Within.nalMinor (p : VideoPacket) (payload : List UInt8) :
    Step.Within Source.Minor (deliverNalUnits p payload) := fun s => by
  rcases deliverNalUnits_moves p payload s with h | ⟨e, h⟩ | ⟨smp, h⟩
  · rw [h]
    exact .refl s
  · rw [h]
    exact .refl s
  · rw [h]
    have hsent : s.Minor { s with avcConfigSent := true } := .of_eq rfl rfl rfl rfl rfl rfl rfl id (fun _ => rfl) rfl
    exact hsent.trans (deliver_minor smp _)

end Pieces

section Failure

variable (e : SourceError) (s : Source)

@[simp] theorem shutdownNow_tasks : (shutdownNow.run s).2.tasks = s.tasks := by
  by_cases h : s.phase = .shutdown <;> simp [shutdownNow, h]; split <;> rfl

@[simp] theorem shutdownNow_readInFlight : (shutdownNow.run s).2.readInFlight = s.readInFlight := by
  by_cases h : s.phase = .shutdown <;> simp [shutdownNow, h]; split <;> rfl

@[simp] theorem shutdownNow_pendingOp : (shutdownNow.run s).2.pendingOp = s.pendingOp := by
  by_cases h : s.phase = .shutdown <;> simp [shutdownNow, h]; split <;> rfl

@[simp] theorem fail_tasks : ((fail e).run s).2.tasks = s.tasks := by
  simp only [fail, StateT.run_bind, StateT.run_get, bind_id_eq]
  split <;> simp [emit]

@[simp] theorem fail_readInFlight : ((fail e).run s).2.readInFlight = s.readInFlight := by
  simp only [fail, StateT.run_bind, StateT.run_get, bind_id_eq]
  split <;> simp [emit]

@[simp] theorem fail_pendingOp : ((fail e).run s).2.pendingOp = s.pendingOp := by
  simp only [fail, StateT.run_bind, StateT.run_get, bind_id_eq]
  split <;> simp [emit]

end Failure

/-- `s` with a read of `n` bytes at `o` for `step` queued in its session and awaited. -/
def Source.issue (s : Source) (step : ReadStep) (o n : Nat) : Source :=
  { s with readInFlight := true, pending := some step,
           tasks := s.tasks ++ [.read s.session.word o n] }

/-- A streaming demuxer has a read out while some selected track wants data. -/
def Source.Flowing (s : Source) : Prop :=
  s.phase = .started ∨ s.phase = .paused → s.wantsData = true → s.readInFlight = true

/-- How the work of a read completion or of a pump ends, from `s`: after minor moves it stops
with the demuxer flowing; it issues a read for a step `ok` allows, while none is out; it fails;
or, where `opens` holds, it ends the scan. -/
inductive Source.Outcome (ok : ReadStep → Prop) (opens : Prop) (s : Source) : Source → Prop where
  | rest {x : Source} (h : s.Minor x) (hflow : x.Flowing) : Outcome ok opens s x
  | issued {x : Source} (h : s.Minor x) (hidle : x.readInFlight = false) {step : ReadStep}
      (hok : ok step) (o n : Nat) : Outcome ok opens s (x.issue step o n)
  | failed {x : Source} (h : s.Minor x) (e : SourceError) : Outcome ok opens s ((fail e).run x).2
  | opened {x y : Source} (hopens : opens) (h : s.Minor x) (hy : x.Opened y) :
      Outcome ok opens s y

namespace Source.Outcome

variable {ok : ReadStep → Prop} {opens : Prop} {s x y : Source}

theorem after (h : s.Minor x) (ho : x.Outcome ok opens y) : s.Outcome ok opens y := by
  cases ho with
  | rest hm hflow => exact .rest (h.trans hm) hflow
  | issued hm hidle hok o n => exact .issued (h.trans hm) hidle hok o n
  | failed hm e => exact .failed (h.trans hm) e
  | opened hopens hm hy => exact .opened hopens (h.trans hm) hy

theorem mono {ok' : ReadStep → Prop} {opens' : Prop} (hok : ∀ step, ok step → ok' step)
    (hopens : opens → opens') (ho : s.Outcome ok opens y) : s.Outcome ok' opens' y := by
  cases ho with
  | rest hm hflow => exact .rest hm hflow
  | issued hm hidle h o n => exact .issued hm hidle (hok _ h) o n
  | failed hm e => exact .failed hm e
  | opened h hm hy => exact .opened (hopens h) hm hy

theorem tasks (ho : s.Outcome ok opens y) : ∃ new, y.tasks = s.tasks ++ new := by
  cases ho with
  | rest hm => exact ⟨[], by simp [hm.tasks]⟩
  | issued hm _ _ o n => exact ⟨_, congrArg (· ++ _) hm.tasks⟩
  | failed hm e => exact ⟨[], by simp [hm.tasks]⟩
  | opened _ hm hy => exact ⟨[], by simp [hy.tasks, hm.tasks]⟩

end Source.Outcome

theorem issueRead_cases (step : ReadStep) (target : Option SeekTarget) (n : Nat) (s : Source) :
    (∃ x o, s.Minor x ∧ Step.exec (issueRead step target n) s = (.ok (), x.issue step o n)) ∨
      ∃ e, Step.exec (issueRead step target n) s = (.error e, s) := by
  rcases h : Step.exec (issueRead step target n) s with ⟨r, y⟩
  cases r with
  | error e => exact .inr ⟨e, by rw [issueRead_error h]⟩
  | ok u =>
    left
    cases hs : s.stream with
    | none => cases target <;> simp [issueRead, Step.exec_bind, seekStream_exec, hs] at h
    | some st =>
      cases target with
      | none =>
        rw [issueRead_none hs] at h
        cases h
        exact ⟨s, st.position, .refl s, rfl⟩
      | some t =>
        cases hk : st.seek t with
        | error f =>
          rw [issueRead_seek_error hs hk] at h
          cases h
        | ok p =>
          rw [issueRead_some hs hk] at h
          cases h
          exact ⟨{ s with stream := some p.2 }, p.2.position,
            .of_eq rfl rfl rfl rfl rfl rfl rfl (fun _ => rfl) (fun _ => rfl) rfl, rfl⟩

theorem finishOpen_outcomes (s : Source) :
    (∃ e y, Step.exec finishOpen s = (.error e, y) ∧ s.Minor y) ∨
      ∃ y, Step.exec finishOpen s = (.ok (), y) ∧ s.Opened y := by
  cases hs : s.stream with
  | some st =>
    rcases finishOpen_cases (s := s) (by simp [hs]) with ⟨e, he⟩ | ⟨y, he, hy⟩
    · exact .inl ⟨e, s, he, .refl s⟩
    · exact .inr ⟨y, he, hy⟩
  | none =>
    -- without a stream the rewind fails, once the tracks are created
    left
    obtain ⟨v, a, hfold⟩ := Source.foldl_setTrack_eq (fun d : StreamDescriptor => d.kind)
      (fun d => Track.new d.kind (SourceConfig.clampDepth s.config.queueDepth)) s.survey.descriptors s
    simp only [finishOpen, Step.exec_bind, Step.exec_get]
    by_cases hempty : s.survey.descriptors.isEmpty = true
    · simp only [if_pos hempty]
      exact ⟨_, s, rfl, .refl s⟩
    simp only [if_neg hempty]
    by_cases hmeta : (s.config.requireMetadata && s.survey.metadata.isNone) = true
    · simp only [if_pos hmeta]
      exact ⟨_, s, rfl, .refl s⟩
    simp only [if_neg hmeta, hfold, Step.exec_bind, Step.exec_set, seekStream_exec, hs]
    exact ⟨_, _, rfl, .of_eq rfl rfl rfl rfl rfl rfl rfl (by simp [hs]) (fun _ => rfl) rfl⟩

/-- A step that, run from a demuxer with no read out, ends in an outcome when it succeeds and
makes only minor moves when it fails. -/
def Step.Ends (ok : ReadStep → Prop) (opens : Prop) (m : Step Unit) : Prop :=
  ∀ s : Source, s.readInFlight = false →
    (∀ y, Step.exec m s = (.ok (), y) → s.Outcome ok opens y) ∧
      ∀ e y, Step.exec m s = (.error e, y) → s.Minor y

namespace Step.Ends

variable {ok : ReadStep → Prop} {opens : Prop} {a b : Step Unit}

theorem bind {α : Type} {m : Step α} {f : α → Step Unit} (hm : Step.Within Source.Minor m)
    (hf : ∀ a, Ends ok opens (f a)) : Ends ok opens (m >>= f) := by
  intro s hidle
  have h := hm s
  rw [Step.exec_bind]
  rcases hr : Step.exec m s with ⟨r, x⟩
  rw [hr] at h
  cases r with
  | ok a =>
    obtain ⟨hok, herr⟩ := hf a x (h.readInFlight.trans hidle)
    exact ⟨fun y hy => (hok y hy).after h, fun e y hy => h.trans (herr e y hy)⟩
  | error e =>
    refine ⟨fun y hy => ?_, fun e' y hy => ?_⟩
    · cases hy
    · cases hy
      exact h

theorem ite {p : Prop} [Decidable p] (ha : Ends ok opens a) (hb : Ends ok opens b) :
    Ends ok opens (if p then a else b) := by
  split
  · exact ha
  · exact hb

theorem guarded {m : Step Unit} (h : Ends ok opens m) {s : Source} (hidle : s.readInFlight = false) :
    s.Outcome ok opens ((Engine.guarded m).run s).2 := by
  obtain ⟨hok, herr⟩ := h s hidle
  rw [guarded_run]
  rcases hr : Step.exec m s with ⟨r, y⟩
  cases r with
  | ok u => exact hok y hr
  | error e => exact .failed (herr e y hr) e

theorem issueRead {step : ReadStep} (hok : ok step) (target : Option SeekTarget) (n : Nat) :
    Ends ok opens (Engine.issueRead step target n) := by
  intro s hidle
  rcases issueRead_cases step target n s with ⟨x, o, hx, he⟩ | ⟨e, he⟩
  · rw [he]
    refine ⟨fun y hy => ?_, fun e y hy => ?_⟩
    · cases hy
      exact .issued hx (hx.readInFlight.trans hidle) hok o n
    · cases hy
  · rw [he]
    refine ⟨fun y hy => ?_, fun e' y hy => ?_⟩
    · cases hy
    · cases hy
      exact .refl s

theorem readNextTag (hok : ok .tagHeader) : Ends ok opens Engine.readNextTag := by
  intro s hidle
  have hs : s.Minor { s with rewindPending := false, skipPrefix := true } :=
    .of_eq rfl rfl rfl rfl rfl rfl rfl id (fun h => absurd (hidle.symm.trans h) (by simp)) rfl
  rw [readNextTag_exec]
  obtain ⟨hok', herr⟩ := (issueRead hok _ tagHeaderLength : Ends ok opens _)
    { s with rewindPending := false, skipPrefix := true } hidle
  exact ⟨fun y hy => (hok' y hy).after hs, fun e y hy => hs.trans (herr e y hy)⟩

theorem finishOpen (hopens : opens) : Ends ok opens Engine.finishOpen := by
  intro s _
  rcases finishOpen_outcomes s with ⟨e, y, he, hy⟩ | ⟨y, he, hy⟩
  · rw [he]
    refine ⟨fun y' hy' => ?_, fun e' y' hy' => ?_⟩
    · cases hy'
    · cases hy'
      exact hy
  · rw [he]
    refine ⟨fun y' hy' => ?_, fun e' y' hy' => ?_⟩
    · cases hy'
      exact .opened hopens (.refl s) hy
    · cases hy'

end Step.Ends

theorem pump_outcome {ok : ReadStep → Prop} {opens : Prop} (s : Source)
    (hok : s.phase = .started ∨ s.phase = .paused → ok .tagHeader) :
    s.Outcome ok opens (pump.run s).2 := by
  simp only [pump, StateT.run_bind, StateT.run_get, bind_id_eq, pure_id_eq]
  split
  · rename_i hgo
    simp only [Bool.and_eq_true, Bool.or_eq_true, decide_eq_true_eq, Bool.not_eq_true'] at hgo
    exact (Step.Ends.readNextTag (hok hgo.1.1)).guarded hgo.1.2
  · rename_i hgo
    show s.Outcome ok opens s
    refine .rest (.refl s) fun hph hw => ?_
    cases hr : s.readInFlight
    · exfalso
      apply hgo
      rcases hph with h | h <;> simp [h, hr, hw]
    · rfl

theorem Step.Ends.pump {ok : ReadStep → Prop} {opens : Prop} (hok : ok .tagHeader) :
    Step.Ends ok opens (liftM Engine.pump : Step Unit) := by
  intro s _
  rw [Step.exec_lift]
  refine ⟨fun y hy => ?_, fun e y hy => ?_⟩
  · cases hy
    exact pump_outcome s fun _ => hok
  · cases hy

section EndOfFile

variable (s : Source) (k : TrackKind)

@[simp] theorem onSignal_video (sig : Signal) : ((onSignal sig).run s).2.video = s.video := by
  simp only [onSignal, StateT.run_modify, pure_id_eq]
  split_ifs <;> rfl

@[simp] theorem onSignal_audio (sig : Signal) : ((onSignal sig).run s).2.audio = s.audio := by
  simp only [onSignal, StateT.run_modify, pure_id_eq]
  split_ifs <;> rfl

theorem Track.markEnd_needsData (t : Track) : t.markEnd.1.needsData = false := by
  simp [Track.markEnd, Track.needsData]

theorem Source.endTrack_quenched : ((s.endTrack k).track k).any Track.needsData = false := by
  unfold Source.endTrack
  split
  · cases ht : s.track k with
    | none => simp [StateT.run_bind, onTrack_none ht, onSignal_other, ht]
    | some t =>
      cases k <;> simp [StateT.run_bind, onTrack_some ht, Source.track, Source.setTrack,
        Track.markEnd_needsData]
  · rename_i hact
    cases ht : s.track k with
    | none => rfl
    | some t =>
      simp only [Source.isActive, ht, Option.any_some, Bool.not_eq_true] at hact
      simp [Track.needsData, hact]

theorem Source.endTrack_other {j : TrackKind} (h : j ≠ k) : (s.endTrack k).track j = s.track j := by
  unfold Source.endTrack
  split
  · cases ht : s.track k with
    | none => simp [StateT.run_bind, onTrack_none ht, onSignal_other]
    | some t =>
      cases k <;> cases j <;> simp_all [StateT.run_bind, onTrack_some ht, Source.track, Source.setTrack]
  · rfl

theorem Source.wantsData_endTracks : ((s.endTrack .video).endTrack .audio).wantsData = false := by
  have hv := Source.endTrack_quenched s .video
  rw [← Source.endTrack_other (s.endTrack .video) .audio (by decide)] at hv
  have ha := Source.endTrack_quenched (s.endTrack .video) .audio
  simp only [Source.track] at hv ha
  simp [Source.wantsData, hv, ha]

end EndOfFile

namespace Step.Ends

variable {opens : Prop}

theorem continueScan : Ends (fun _ => True) True Engine.continueScan :=
  bind .get fun s => by
    dsimp only
    split
    · exact finishOpen trivial
    · exact readNextTag trivial

theorem scanTag (tag : TagHeader) : Ends (fun _ => True) True (Engine.scanTag tag) := by
  unfold Engine.scanTag
  split
  · exact finishOpen trivial
  · refine bind (.update fun s => .of_eq rfl rfl rfl rfl rfl rfl rfl id (fun _ => rfl) rfl) fun _ =>
      bind .get fun s => ?_
    dsimp only
    split
    · split
      · exact bind (.surveyMinor _) fun _ => issueRead trivial _ _
      · exact bind (.skipMinor _) fun _ => continueScan
    all_goals first
      | exact bind (.skipMinor _) fun _ => continueScan
      | split
        · refine bind (.surveyMinor _) fun _ => bind .get fun x => ?_
          split_ifs
          all_goals first
            | exact issueRead trivial _ _
            | exact bind (.skipMinor _) fun _ => continueScan
        · exact bind (.skipMinor _) fun _ => continueScan

theorem scanStep (step : ReadStep) (data : List UInt8) (o : Nat) :
    Ends (fun _ => True) True (Engine.scanStep step data o) := by
  unfold Engine.scanStep
  cases step with
  | fileHeader =>
    exact bind (.ofFormat _) fun _ => bind (.surveyMinor _) fun _ => readNextTag trivial
  | tagHeader => exact bind (.ofFormat _) fun tag => scanTag tag
  | scriptPayload tag =>
    refine bind (.ofFormat _) fun _ => bind (.ofFormat _) fun m => ?_
    split
    · exact bind (.surveyMinor _) fun _ => continueScan
    · exact continueScan
  | audioHeader tag =>
    refine bind (.ofFormat _) fun _ => bind (.surveyMinor _) fun _ => bind .get fun _ => ?_
    exact ite (issueRead trivial _ _) (bind (.skipMinor _) fun _ => continueScan)
  | aacPacketType p =>
    exact bind (.ofFormat _) fun _ =>
      ite (issueRead trivial _ _) (bind (.skipMinor _) fun _ => continueScan)
  | audioPayload p =>
    exact bind (.ofFormat _) fun _ => bind (.surveyMinor _) fun _ => continueScan
  | videoHeader tag =>
    refine bind (.ofFormat _) fun _ => bind (.surveyMinor _) fun _ => bind .get fun _ => ?_
    exact ite (issueRead trivial _ _) (bind (.skipMinor _) fun _ => continueScan)
  | avcPacketHeader p =>
    exact bind (.ofFormat _) fun _ =>
      ite (issueRead trivial _ _) (bind (.skipMinor _) fun _ => continueScan)
  | videoPayload p =>
    exact bind (.ofFormat _) fun _ => bind (.ofFormat _) fun _ =>
      bind (.surveyMinor _) fun _ => continueScan

theorem streamTag (tag : TagHeader) : Ends (·.scanOnly = false) opens (Engine.streamTag tag) := by
  cases hk : tag.isEndOfFile
  · simp only [Engine.streamTag, hk, Bool.false_eq_true, if_false]
    split
    · refine bind .get fun s => ite (issueRead ?_ _ _) (bind (.skipMinor _) fun _ => pump rfl)
      split <;> rfl
    · exact bind (.skipMinor _) fun _ => pump rfl
  · intro s _
    rw [streamTag_endOfFile_exec hk s]
    refine ⟨fun y hy => ?_, fun e y hy => ?_⟩
    · cases hy
      refine .rest ((endTrack_minor s _).trans (endTrack_minor _ _)) fun _ hw => ?_
      rw [Source.wantsData_endTracks] at hw
      cases hw
    · cases hy

theorem streamStep {step : ReadStep} (hstep : step.scanOnly = false) (data : List UInt8) (o : Nat) :
    Ends (·.scanOnly = false) opens (Engine.streamStep step data o) := by
  unfold Engine.streamStep
  cases step with
  | fileHeader => cases hstep
  | scriptPayload _ => cases hstep
  | tagHeader => exact bind (.ofFormat _) fun tag => streamTag tag
  | audioHeader tag => exact bind (.ofFormat _) fun _ => ite (issueRead (by rfl) _ _) (issueRead (by rfl) _ _)
  | aacPacketType p => exact bind (.ofFormat _) fun _ => issueRead (by rfl) _ _
  | audioPayload p =>
    exact bind (.ofFormat _) fun _ => bind (.lift (deliver_minor _)) fun _ => pump rfl
  | videoHeader tag =>
    exact bind (.ofFormat _) fun _ =>
      ite (issueRead (by rfl) _ _) (bind (.skipMinor _) fun _ => pump rfl)
  | avcPacketHeader p =>
    exact bind (.ofFormat _) fun _ =>
      ite (issueRead (by rfl) _ _) (bind (.skipMinor _) fun _ => pump rfl)
  | videoPayload p =>
    refine bind (.ofFormat _) fun payload => ?_
    dsimp only
    split
    · exact bind (.replaceMinor _) fun _ => pump rfl
    · exact bind (.nalMinor p _) fun _ => pump rfl

end Step.Ends

end FlvDemux.Engine
