import FlvDemux.Engine.Client
import FlvDemux.Proofs.Tickets
import Mathlib

/-!
# The steps of a demuxer as functions of its state

Each action of the engine, written in a state monad, as a plain function of the `Source` record:
one equation or inversion lemma per function, and small lemmas for the record updates. A run is
the client's calls and the queued tasks running, in any interleaving (`Action`, `Source.act`).
-/

namespace FlvDemux.Engine

@[simp] theorem pure_id_eq {α : Type} (p : α) : (pure p : Id α) = p := rfl
@[simp] theorem bind_id_eq {α β : Type} (x : α) (f : α → Id β) : (x >>= f : Id β) = f x := rfl
@[simp] theorem map_id_eq {α β : Type} (f : α → β) (x : α) : (f <$> x : Id β) = f x := rfl

namespace Step

variable {α β : Type}

/-- Runs a step on a demuxer: its result and the demuxer after it. -/
abbrev exec (m : Step α) (s : Source) : Except SourceError α × Source := m.run.run s

theorem exec_bind (m : Step α) (f : α → Step β) (s : Source) :
    exec (m >>= f) s = match exec m s with
      | (.ok a, s') => exec (f a) s'
      | (.error e, s') => (.error e, s') := by
  simp only [exec, ExceptT.run_bind, StateT.run_bind]
  rcases m.run.run s with ⟨r, s'⟩
  cases r <;> rfl

@[simp] theorem exec_get (s : Source) : exec (get : Step Source) s = (.ok s, s) := rfl
@[simp] theorem exec_set (t s : Source) : exec (set t : Step PUnit) s = (.ok ⟨⟩, t) := rfl
@[simp] theorem exec_modify (f : Source → Source) (s : Source) :
    exec (modify f : Step PUnit) s = (.ok ⟨⟩, f s) := rfl
@[simp] theorem exec_pure (a : α) (s : Source) : exec (pure a : Step α) s = (.ok a, s) := rfl
@[simp] theorem exec_throw (e : SourceError) (s : Source) :
    exec (throw e : Step α) s = (.error e, s) := rfl
@[simp] theorem exec_lift (m : StateM Source α) (s : Source) :
    exec (liftM m : Step α) s = (.ok (m.run s).1, (m.run s).2) := rfl

end Step

namespace Source

@[simp] theorem track_setTrack (s : Source) (k j : TrackKind) (t : Track) :
    (s.setTrack k t).track j = if j = k then some t else s.track j := by
  cases k <;> cases j <;> rfl

end Source

section Primitives

@[simp] theorem emit_run (evs : List Event) (s : Source) :
    (emit evs).run s = ((), { s with events := s.events ++ evs }) := rfl

@[simp] theorem spawn_run (t : Task) (s : Source) :
    (spawn t).run s = ((), { s with tasks := s.tasks ++ [t] }) := rfl

theorem ofFormat_exec {α : Type} (r : Except Flv.FormatError α) (s : Source) :
    Step.exec (ofFormat r) s = (r.mapError .format, s) := by
  cases r <;> rfl

theorem seekStream_exec (target : SeekTarget) (s : Source) :
    Step.exec (seekStream target) s = match s.stream with
      | none => (.error .shutdown, s)
      | some st => match st.seek target with
        | .ok (_, moved) => (.ok (), { s with stream := some moved })
        | .error f => (.error (.io f), s) := by
  simp only [seekStream, Step.exec_bind, Step.exec_get]
  cases h : s.stream with
  | none => rfl
  | some st => cases h' : st.seek target <;> simp only [h'] <;> rfl

end Primitives

section Reads

variable {s : Source} {st : ByteStream}

theorem issueRead_none (h : s.stream = some st) (step : ReadStep) (length : Nat) :
    Step.exec (issueRead step none length) s =
      (.ok (), { s with readInFlight := true, pending := some step,
                        tasks := s.tasks ++ [.read s.session.ticket st.position length] }) := by
  simp only [issueRead, Step.exec_bind, Step.exec_get, h]
  rfl

theorem issueRead_some (h : s.stream = some st) {t : SeekTarget} {p : Nat} {moved : ByteStream}
    (hs : st.seek t = .ok (p, moved)) (step : ReadStep) (length : Nat) :
    Step.exec (issueRead step (some t) length) s =
      (.ok (), { s with stream := some moved, readInFlight := true, pending := some step,
                        tasks := s.tasks ++ [.read s.session.ticket moved.position length] }) := by
  simp only [issueRead, Step.exec_bind, seekStream_exec, h, hs, Step.exec_get]
  rfl

theorem issueRead_error {step : ReadStep} {target : Option SeekTarget} {length : Nat}
    {e : SourceError} {s' : Source} (h : Step.exec (issueRead step target length) s = (.error e, s')) :
    s' = s := by
  cases target with
  | none =>
    cases hs : s.stream with
    | none => simp only [issueRead, Step.exec_bind, Step.exec_get, hs] at h; cases h; rfl
    | some st => simp only [issueRead_none hs] at h; cases h
  | some t =>
    cases hs : s.stream with
    | none => simp only [issueRead, Step.exec_bind, seekStream_exec, hs] at h; cases h; rfl
    | some st =>
      cases hk : st.seek t with
      | error f => simp only [issueRead, Step.exec_bind, seekStream_exec, hs, hk] at h; cases h; rfl
      | ok r => simp only [issueRead_some hs hk] at h; cases h

theorem skipBytes_ok (h : s.stream = some st) {n p : Nat} {moved : ByteStream}
    (hs : st.seek (.current n) = .ok (p, moved)) :
    Step.exec (skipBytes n) s = (.ok (), { s with stream := some moved }) := by
  simp only [skipBytes, seekStream_exec, h, hs]

theorem skipBytes_error {n : Nat} {e : SourceError} {s' : Source}
    (h : Step.exec (skipBytes n) s = (.error e, s')) : s' = s := by
  cases hs : s.stream with
  | none => simp only [skipBytes, seekStream_exec, hs] at h; cases h; rfl
  | some st =>
    cases hk : st.seek (.current n) with
    | error f => simp only [skipBytes, seekStream_exec, hs, hk] at h; cases h; rfl
    | ok r => rcases r with ⟨p, moved⟩; simp only [skipBytes_ok hs hk] at h; cases h

end Reads

namespace ByteStream

variable {st st' : ByteStream} {n : Nat} {data : List UInt8}

theorem read_ok (h : st.read n = .ok (data, st')) :
    data = (st.data.drop st.position).take n ∧ st'.data = st.data ∧
      (st.position ≤ st.data.length → st'.position = st.position + data.length) ∧
      (st.data.length ≤ st.position → data = [] ∧ st.data.length ≤ st'.position) := by
  unfold read at h
  have hdrop : st.data.drop (min st.position st.data.length) = st.data.drop st.position := by
    rcases Nat.le_total st.position st.data.length with hle | hle
    · rw [Nat.min_eq_left hle]
    · rw [Nat.min_eq_right hle, List.drop_eq_nil_of_le hle, List.drop_eq_nil_of_le (le_refl _)]
  cases hb : st.backing with
  | memory =>
    simp only [hb, Except.ok.injEq, Prod.mk.injEq] at h
    obtain ⟨rfl, rfl⟩ := h
    refine ⟨by rw [hdrop], rfl, fun hle => by simp [Nat.min_eq_left hle], fun hle => ?_⟩
    simp [Nat.min_eq_right hle]
  | file =>
    simp only [hb] at h
    split at h
    · cases h
    · simp only [Except.ok.injEq, Prod.mk.injEq] at h
      obtain ⟨rfl, rfl⟩ := h
      refine ⟨by rw [hdrop], rfl, fun _ => rfl, fun hle => ?_⟩
      simpa [Nat.min_eq_right hle] using hle

theorem seek_start (st : ByteStream) (o : Nat) : st.seek (.start o) = .ok (o, { st with position := o }) :=
  rfl

theorem seek_current (st : ByteStream) {d : Nat} (h : st.position + d ≤ maxPosition) :
    st.seek (.current d) = .ok (st.position + d, { st with position := st.position + d }) := by
  simp only [seek, target]
  rw [if_pos ⟨by omega, by omega⟩]
  have hp : ((st.position : Int) + (d : Int)).toNat = st.position + d := by omega
  simp only [hp]

end ByteStream

/-- What can happen to a demuxer: a call of its client, or the queued task at place `i` running.
Queued tasks run in no fixed order, so a run may take them in any order. -/
inductive Action where
  | open (stream : ByteStream)
  | start (given : Presentation) (pos : StartPosition)
  | pause
  | stop
  | shutdown
  | request (k : TrackKind) (token : Option UInt64)
  | run (i : Nat)

namespace Source

/-- The result of an action, and the demuxer after it. -/
def act (s : Source) : Action → Except SourceError Unit × Source
  | .open st => Step.exec (beginOpen st) s
  | .start given pos => Step.exec (start given pos) s
  | .pause => Step.exec pause s
  | .stop => Step.exec stop s
  | .shutdown => (.ok (), (shutdownNow.run s).2)
  | .request k token => Step.exec (requestSample k token) s
  | .run i => (.ok (), ((runAt i).run s).2)

def actAll (s : Source) : List Action → Source
  | [] => s
  | a :: as => (s.act a).2.actAll as

@[simp] theorem actAll_nil (s : Source) : s.actAll [] = s := rfl

@[simp] theorem actAll_cons (s : Source) (a : Action) (as : List Action) :
    s.actAll (a :: as) = (s.act a).2.actAll as := rfl

theorem actAll_append (s : Source) (as bs : List Action) :
    s.actAll (as ++ bs) = (s.actAll as).actAll bs := by
  induction as generalizing s with
  | nil => rfl
  | cons a as ih => exact ih _

theorem act_run_some {s : Source} {i : Nat} {c : Task} (h : s.tasks[i]? = some c) :
    (s.act (.run i)).2 = ((runTask c).run { s with tasks := s.tasks.eraseIdx i }).2 := by
  simp [act, runAt, h]

theorem act_run_none {s : Source} {i : Nat} (h : s.tasks[i]? = none) : (s.act (.run i)).2 = s := by
  simp [act, runAt, h]

theorem act_run (s : Source) (i : Nat) :
    (s.act (.run i)).2 = s ∨ ∃ c rest, (c :: rest).Perm s.tasks ∧
      (s.act (.run i)).2 = ((runTask c).run { s with tasks := rest }).2 := by
  cases h : s.tasks[i]? with
  | none => exact .inl (act_run_none h)
  | some c =>
    obtain ⟨hi, rfl⟩ := List.getElem?_eq_some_iff.1 h
    exact .inr ⟨_, _, List.getElem_cons_eraseIdx_perm hi, act_run_some h⟩

/-- `s'` is `s` with at most its tracks, its end-of-stream accounting, its AVC configuration and
its events changed: what a track operation or a delivery does. -/
def Quiet (s s' : Source) : Prop :=
  s' = { s with video := s'.video, audio := s'.audio, pendingEos := s'.pendingEos,
                eopSent := s'.eopSent, avcConfig := s'.avcConfig, avcConfigSent := s'.avcConfigSent,
                events := s'.events }

theorem Quiet.refl (s : Source) : s.Quiet s := rfl

theorem Quiet.trans {s t u : Source} (h₁ : s.Quiet t) (h₂ : t.Quiet u) : s.Quiet u := by
  unfold Quiet at *
  rw [h₂, h₁]

section Quiet

variable {s t : Source}

theorem Quiet.phase (h : s.Quiet t) : t.phase = s.phase := by rw [h]
theorem Quiet.stream (h : s.Quiet t) : t.stream = s.stream := by rw [h]
theorem Quiet.survey (h : s.Quiet t) : t.survey = s.survey := by rw [h]
theorem Quiet.rewindPending (h : s.Quiet t) : t.rewindPending = s.rewindPending := by rw [h]
theorem Quiet.skipPrefix (h : s.Quiet t) : t.skipPrefix = s.skipPrefix := by rw [h]
theorem Quiet.tasks (h : s.Quiet t) : t.tasks = s.tasks := by rw [h]
theorem Quiet.session (h : s.Quiet t) : t.session = s.session := by rw [h]
theorem Quiet.pendingOp (h : s.Quiet t) : t.pendingOp = s.pendingOp := by rw [h]
theorem Quiet.readInFlight (h : s.Quiet t) : t.readInFlight = s.readInFlight := by rw [h]
theorem Quiet.pending (h : s.Quiet t) : t.pending = s.pending := by rw [h]

end Quiet

end Source

section Quiet

theorem onSignal_quiet (sig : Signal) (s : Source) : s.Quiet ((onSignal sig).run s).2 := by
  simp only [onSignal, Source.Quiet, StateT.run_modify, pure_id_eq]
  split_ifs <;> rfl

theorem onTrack_quiet (k : TrackKind) (g : Track → Track × List Event × Signal) (s : Source) :
    s.Quiet ((onTrack k g).run s).2 := by
  cases h : s.track k with
  | none => simp [onTrack, h, Source.Quiet]
  | some t => cases k <;> simp [onTrack, h, Source.Quiet, Source.setTrack, emit]

theorem deliver_quiet (k : TrackKind) (x : Sample) (s : Source) :
    s.Quiet ((deliver k x).run s).2 := by
  simp only [deliver, StateT.run_bind, bind_id_eq]
  exact (onTrack_quiet k _ s).trans (onSignal_quiet _ _)

end Quiet

section Shutdown

theorem shutdownNow_of_shutdown {s : Source} (h : s.phase = .shutdown) :
    (shutdownNow.run s).2 = s := by
  simp [shutdownNow, h]

@[simp] theorem shutdownNow_phase (s : Source) : (shutdownNow.run s).2.phase = .shutdown := by
  by_cases h : s.phase = .shutdown <;> simp [shutdownNow, h]; split <;> rfl

@[simp] theorem shutdownNow_events (s : Source) : (shutdownNow.run s).2.events = s.events := by
  by_cases h : s.phase = .shutdown <;> simp [shutdownNow, h]; split <;> rfl

theorem shutdownNow_session {s : Source} (h : s.phase ≠ .shutdown) :
    (shutdownNow.run s).2.session = s.session.shutdown := by
  simp [shutdownNow, h]
  split <;> rfl

@[simp] theorem fail_phase (e : SourceError) (s : Source) : ((fail e).run s).2.phase = .shutdown := by
  simp only [fail, StateT.run_bind, StateT.run_get, bind_id_eq, pure_id_eq]
  split <;> simp [emit]

end Shutdown

end FlvDemux.Engine
