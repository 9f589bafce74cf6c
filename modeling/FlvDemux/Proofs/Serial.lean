import FlvDemux.Proofs.Actions

/-! From `act_move` follow the disciplines of a demuxer over every run. A read joins the queue only
when no read is queued, so at most one is ever out, and a stale read completes with nothing changed
but its bytes taken, apart from the read of the first media tag that a playing demuxer then issues.
A streaming demuxer never waits with a selected track wanting data and no read out. At most one
control operation waits, and while it waits the phase it was checked against holds, unless the
demuxer shuts down. A shut-down demuxer stays shut down, and an error is reported at most once. -/

namespace FlvDemux.Engine

open Flv

variable {ok : ReadStep → Prop} {opens : Prop} {s y : Source}

theorem Source.Outcome.queue (hb : s.Booked) (ho : s.Outcome ok opens y) :
    ∃ new, y.tasks = s.tasks ++ new ∧ new.countP Task.isRead ≤ 1 ∧
      (0 < new.countP Task.isRead → s.tasks.countP Task.isRead = 0) := by
  cases ho with
  | rest h _ => exact ⟨[], by simp [h.tasks], by simp, by simp⟩
  | @issued x h hidle step _ o n =>
    refine ⟨[.read x.session.word o n], by simp [Source.issue, h.tasks], by simp, fun _ => ?_⟩
    rw [← h.tasks]
    exact (hb.minor h).reads_idle hidle
  | failed h e => exact ⟨[], by simp [h.tasks], by simp, by simp⟩
  | opened _ h hy => exact ⟨[], by simp [hy.tasks, h.tasks], by simp, by simp⟩

/-- An action keeps some of the queued tasks and adds tasks behind them: at most one read, and
one only while no read of those kept is queued. -/
def Source.Appends (s y : Source) : Prop :=
  ∃ kept new, kept.Subperm s.tasks ∧ y.tasks = kept ++ new ∧ new.countP Task.isRead ≤ 1 ∧
    (0 < new.countP Task.isRead → kept.countP Task.isRead = 0)

theorem Source.Appends.keep (h : s.tasks = y.tasks) : s.Appends y :=
  ⟨s.tasks, [], List.Subperm.refl _, by simp [h], by simp, by simp⟩

theorem Source.Appends.pop {c : Task} {rest : List Task} (ht : (c :: rest).Perm s.tasks)
    (h : y.tasks = rest) : s.Appends y :=
  ⟨rest, [], (List.sublist_cons_self c rest).subperm.trans ht.subperm, by simp [h], by simp, by simp⟩

theorem Source.Outcome.appends {x : Source} (hb : x.Booked) (hk : x.tasks.Subperm s.tasks)
    (ho : x.Outcome ok opens y) : s.Appends y := by
  obtain ⟨new, hy, hone, hfirst⟩ := ho.queue hb
  exact ⟨x.tasks, new, hk, hy, hone, hfirst⟩

theorem Source.Move.appends (hb : s.Booked) (hm : s.Move y) : s.Appends y := by
  have hpop : ∀ {c : Task} {rest : List Task}, (c :: rest).Perm s.tasks → rest.Subperm s.tasks :=
    fun ht => (List.sublist_cons_self _ _).subperm.trans ht.subperm
  cases hm with
  | stay => exact .keep rfl
  | halt => exact .keep (shutdownNow_tasks s).symm
  | enqueue hc _ _ =>
    refine ⟨s.tasks, [_], List.Subperm.refl _, rfl, by simp [hc], fun h => ?_⟩
    simp [hc] at h
  | «open» hph hy => exact hy.appends (hb.begin hph _) (List.Subperm.refl _)
  | request _ hx hy => exact hy.appends (hb.minor hx) (by rw [hx.tasks])
  | complete ht _ hy => exact hy.appends (hb.popRead ht) (hpop ht)
  | stale ht _ _ hy => exact hy.appends (hb.popStale ht) (hpop ht)
  | drain ht _ => exact .pop ht rfl
  | drop ht _ _ => exact .pop ht rfl
  | @start selection pos rest x y ht hlive hx hy =>
    have hk : x.tasks.Subperm s.tasks := by
      rw [hx.tasks]
      exact hpop ht
    exact hy.appends ((hb.started ht hlive).minor (hx.withPhase _)) hk
  | pause ht _ hy _ => exact .pop ht hy.tasks
  | stop ht _ hy => exact .pop ht hy.tasks

theorem Source.Outcome.pendingOp (ho : s.Outcome ok opens y) : y.pendingOp = s.pendingOp := by
  cases ho with
  | rest h _ => exact h.pendingOp
  | issued h _ _ _ _ => exact h.pendingOp
  | failed h e => rw [fail_pendingOp]; exact h.pendingOp
  | opened _ h hy => rw [hy.pendingOp]; exact h.pendingOp

theorem Source.Outcome.phase (ho : s.Outcome ok opens y) :
    y.phase = s.phase ∨ y.phase = .shutdown ∨ opens ∧ y.phase = .stopped := by
  cases ho with
  | rest h _ => exact .inl h.phase
  | issued h _ _ _ _ => exact .inl h.phase
  | failed h e => exact .inr (.inl (fail_phase e _))
  | opened hop _ hy => exact .inr (.inr ⟨hop, hy.phase⟩)

theorem Source.Move.hold (hb : s.Booked) (hm : s.Move y) (hop : s.pendingOp = true)
    (hop' : y.pendingOp = true) : y.phase = s.phase ∨ y.phase = .shutdown := by
  have hopen : s.phase ≠ .invalid ∧ s.phase ≠ .opening := by
    constructor <;> intro h <;> simp [hb.pendingOp_of_phase (by simp [h])] at hop
  cases hm with
  | stay => exact .inl rfl
  | halt => exact .inr (shutdownNow_phase s)
  | enqueue _ hop₀ _ => simp [hop₀] at hop
  | «open» hph _ => exact absurd hph hopen.1
  | request _ hx hy =>
    rcases hy.phase with h | h | ⟨h, -⟩
    · exact .inl (h.trans hx.phase)
    · exact .inr h
    · exact h.elim
  | complete _ _ hy =>
    rcases hy.phase with h | h | ⟨h, -⟩
    · exact .inl h
    · exact .inr h
    · exact absurd h hopen.2
  | stale _ _ _ hy =>
    rcases hy.phase with h | h | ⟨h, -⟩
    · exact .inl h
    · exact .inr h
    · exact h.elim
  | drain _ _ => exact .inl rfl
  | drop _ _ _ => simp at hop'
  | start _ _ hx hy => simp [hy.pendingOp, hx.pendingOp] at hop'
  | pause _ _ hy _ => simp [hy.pendingOp] at hop'
  | stop _ _ hy => simp [hy.pendingOp] at hop'

theorem Step.Checks.refused {m : Step Unit} {c : Task} (h : Step.Checks m c s)
    (hop : s.pendingOp = true) : ∃ e, Step.exec m s = (.error e, s) ∧ e.IsRefusal := by
  rcases h with h | ⟨-, hop', -⟩
  · exact h
  · simp [hop] at hop'

theorem Source.Move.frozen (hb : s.Booked) (hph : s.phase = .shutdown) (hm : s.Move y) :
    y = { s with tasks := y.tasks, readInFlight := y.readInFlight, pending := y.pending,
                 pendingOp := y.pendingOp, stream := y.stream } := by
  cases hm with
  | stay => rfl
  | halt =>
    rw [shutdownNow_of_shutdown hph]
  | enqueue hc _ hadm => rcases hadm.open hc with h | h | h <;> simp [hph] at h
  | «open» h _ => simp [hph] at h
  | request hlive _ _ => exact absurd hph hlive
  | complete _ hcur _ => simp [hb.isCurrent_of_shutdown hph] at hcur
  | stale _ _ hlive _ => exact absurd hph hlive
  | drain _ _ => rfl
  | drop _ _ _ => rfl
  | start _ hlive _ _ => exact absurd hph hlive
  | pause _ h _ _ => simp [hph] at h
  | stop _ hlive _ => exact absurd hph hlive

theorem Source.refuses_of_shutdown (h : s.phase = .shutdown) :
    (∀ st, (s.act (.open st)).1 = .error .shutdown) ∧
      (∀ given pos, (s.act (.start given pos)).1 = .error .shutdown) ∧
      (s.act .pause).1 = .error .shutdown ∧ (s.act .stop).1 = .error .shutdown ∧
      (∀ k token, (s.act (.request k token)).1 = .error .shutdown) ∧
      characteristicsOf s = .error .shutdown ∧ presentationOf s = .error .shutdown ∧
      ∀ k, streamOf s k = none := by
  refine ⟨fun st => ?_, fun given pos => ?_, ?_, ?_, fun k token => ?_, ?_, ?_, fun k => ?_⟩ <;>
    simp [Source.act, beginOpen, start, pause, stop, requireOpen, requestSample, Step.exec_bind,
      characteristicsOf, presentationOf, streamOf, h]

theorem Source.Orderly.shutdown_actAll (hs : s.Orderly) (hph : s.phase = .shutdown)
    (bs : List Action) : (s.actAll bs).phase = .shutdown ∧ (s.actAll bs).events = s.events := by
  induction bs generalizing s with
  | nil => exact ⟨hph, rfl⟩
  | cons a bs ih =>
    have hfrozen := (act_move hs.toBooked a).frozen hs.toBooked hph
    have hph' : (s.act a).2.phase = .shutdown := by rw [hfrozen]; exact hph
    obtain ⟨h₁, h₂⟩ := ih (hs.act a) hph'
    refine ⟨h₁, h₂.trans ?_⟩
    rw [hfrozen]

theorem shutdownNow_openResult (hlive : s.phase ≠ .shutdown) (hwait : s.awaitingOpen = true) :
    (shutdownNow.run s).2.openResult = some (.error .shutdown) := by
  simp [shutdownNow, hlive, hwait]

theorem fail_of_awaiting (hwait : s.awaitingOpen = true) (e : SourceError) :
    ((fail e).run s).2.events = s.events ∧ ((fail e).run s).2.openResult = some (.error e) := by
  simp only [fail, StateT.run_bind, StateT.run_get, bind_id_eq, pure_id_eq, hwait, if_true]
  by_cases h : s.phase = .shutdown <;> simp [shutdownNow, h]

theorem Source.Outcome.awaiting (ho : s.Outcome ok opens y) (hlive : s.phase ≠ .shutdown)
    (hwait : s.awaitingOpen = true) : (∃ M, y.events = s.events ++ M ∧ Faultless M) ∧
      (y.phase = .shutdown → ∃ e, y.openResult = some (.error e)) := by
  cases ho with
  | rest h _ => exact ⟨h.events, fun h' => absurd (h'.symm.trans h.phase).symm hlive⟩
  | issued h _ _ _ _ => exact ⟨h.events, fun h' => absurd (h'.symm.trans h.phase).symm hlive⟩
  | failed h e =>
    obtain ⟨hev, hres⟩ := fail_of_awaiting (h.awaitingOpen.trans hwait) e
    exact ⟨by rw [hev]; exact h.events, fun _ => ⟨e, hres⟩⟩
  | opened _ h hy =>
    refine ⟨by rw [hy.events]; exact h.events, fun h' => ?_⟩
    rw [hy.phase] at h'
    cases h'

theorem Source.Move.opening (hb : s.Booked) (hph : s.phase = .opening) (hm : s.Move y) :
    (∃ M, y.events = s.events ++ M ∧ Faultless M) ∧
      (y.phase = .shutdown → ∃ e, y.openResult = some (.error e)) := by
  have hlive : s.phase ≠ .shutdown := by simp [hph]
  have hwait := hb.opening hph
  have hnone : ∀ c rest, (c :: rest).Perm s.tasks → c.isRead = false → False := by
    intro c rest ht hc
    rcases hb.control_phase (ht.subset List.mem_cons_self) hc with (h | h | h) | h <;>
      simp [hph] at h
  cases hm with
  | stay => exact ⟨⟨[], by simp, Faultless.nil⟩, fun h => absurd h hlive⟩
  | halt =>
    exact ⟨⟨[], by simp, Faultless.nil⟩, fun _ => ⟨_, shutdownNow_openResult hlive hwait⟩⟩
  | enqueue hc _ hadm => rcases hadm.open hc with h | h | h <;> simp [hph] at h
  | «open» h _ => simp [hph] at h
  | request _ hx hy =>
    obtain ⟨⟨M, hM, hf⟩, hres⟩ := hy.awaiting (by rw [hx.phase]; exact hlive)
      (by rw [hx.awaitingOpen]; exact hwait)
    obtain ⟨N, hN, hg⟩ := hx.events
    exact ⟨⟨N ++ M, by rw [hM, hN, List.append_assoc], hg.append hf⟩, hres⟩
  | complete _ _ hy => exact hy.awaiting hlive hwait
  | stale _ _ _ hy => exact hy.awaiting hlive hwait
  | drain _ h => exact absurd h hlive
  | drop ht hc _ => exact (hnone _ _ ht hc).elim
  | start ht _ _ _ => exact (hnone _ _ ht rfl).elim
  | pause ht _ _ _ => exact (hnone _ _ ht rfl).elim
  | stop ht _ _ => exact (hnone _ _ ht rfl).elim

theorem pump_rewind {st : ByteStream} (hs : s.stream = some st) (hrw : s.rewindPending = true)
    (hidle : s.readInFlight = false) (hph : s.phase = .started ∨ s.phase = .paused)
    (hwant : s.wantsData = true) :
    (pump.run s).2 = ({ s with rewindPending := false, skipPrefix := true,
                               stream := some { st with position := s.survey.firstMediaOffset } } :
        Source).issue .tagHeader s.survey.firstMediaOffset tagHeaderLength := by
  have hgo : ((s.phase = .started || s.phase = .paused) && !s.readInFlight && s.wantsData) = true := by
    rcases hph with h | h <;> simp [h, hidle, hwant]
  have hexec : Step.exec readNextTag s =
      (.ok (), ({ s with rewindPending := false, skipPrefix := true,
                         stream := some { st with position := s.survey.firstMediaOffset } } :
        Source).issue .tagHeader s.survey.firstMediaOffset tagHeaderLength) := by
    rw [readNextTag_exec, if_pos hrw]
    exact issueRead_some (by exact hs) rfl _ _
  simp only [pump, StateT.run_bind, StateT.run_get, bind_id_eq, pure_id_eq, hgo, if_true]
  rw [guarded_ok hexec]

theorem pump_still (h : ¬((s.phase = .started ∨ s.phase = .paused) ∧ s.wantsData = true)) :
    (pump.run s).2 = s := by
  simp only [pump, StateT.run_bind, StateT.run_get, bind_id_eq, pure_id_eq]
  split
  · rename_i hgo
    simp only [Bool.and_eq_true, Bool.or_eq_true, decide_eq_true_eq] at hgo
    exact absurd ⟨hgo.1.1, hgo.2⟩ h
  · rfl

theorem Source.act_run_stale (hb : s.Booked) {i : Nat} {t : UInt64} {o n : Nat}
    (hi : s.tasks[i]? = some (.read t o n)) (hst : s.session.isCurrent t = false) :
    (s.act (.run i)).2 =
      let x : Source := { s with tasks := s.tasks.eraseIdx i, readInFlight := false, pending := none,
                                 stream := s.stream.map fun st => (st.perform (.read n)).2 }
      if (s.phase = .started ∨ s.phase = .paused) ∧ s.wantsData = true then
        ({ x with rewindPending := false, skipPrefix := true,
                  stream := x.stream.map fun st => { st with position := s.survey.firstMediaOffset } } :
          Source).issue .tagHeader s.survey.firstMediaOffset tagHeaderLength
      else x := by
  rw [act_run_some hi, runTask_stale hst]
  split_ifs with hgo
  · obtain ⟨hph, hwant⟩ := hgo
    have hlive : s.phase ≠ .shutdown := by rcases hph with h | h <;> simp [h]
    have hinv : s.phase ≠ .invalid := by rcases hph with h | h <;> simp [h]
    obtain ⟨st, hs⟩ := Option.isSome_iff_exists.1 (hb.stream hinv hlive)
    have hrw := hb.rewinds t o n (List.mem_of_getElem? hi) hst hlive
    rw [pump_rewind (by simp [hs]; rfl) (by exact hrw) (by rfl) (by exact hph) (by exact hwant)]
    simp [hs]
  · exact pump_still hgo

theorem Source.wantsData_iff (s : Source) :
    s.wantsData = true ↔ ∃ k t, s.track k = some t ∧ t.active = true ∧ t.needsData = true := by
  have hact : ∀ t : Track, t.needsData = true → t.active = true := fun t h => by
    simp only [Track.needsData, Bool.and_eq_true] at h
    exact h.1.1.1
  constructor
  · intro h
    simp only [Source.wantsData, Bool.or_eq_true, Option.any_eq_true] at h
    rcases h with ⟨t, ht, hn⟩ | ⟨t, ht, hn⟩
    · exact ⟨.video, t, ht, hact t hn, hn⟩
    · exact ⟨.audio, t, ht, hact t hn, hn⟩
  · rintro ⟨k, t, ht, -, hn⟩
    cases k
    · simp [Source.wantsData, show s.video = some t from ht, hn]
    · simp [Source.wantsData, show s.audio = some t from ht, hn]

/-- At most one read is ever out. A read is queued exactly while one is out; an action keeps
some of the queued tasks and queues at most one read behind them, and one only when none of
those kept is a read; and a stale read, whichever queued task it is, completes with its bytes
taken and nothing else changed but the read no longer out, apart from the read of the first
media tag that a demuxer streaming to a track that wants data issues next. -/
theorem reads_one_at_a_time {s : Source} (hs : s.Reachable) :
    s.tasks.countP Task.isRead = (if s.readInFlight then 1 else 0) ∧
      (∀ a, ∃ kept new, kept.Subperm s.tasks ∧ (s.act a).2.tasks = kept ++ new ∧
        new.countP Task.isRead ≤ 1 ∧ (0 < new.countP Task.isRead → kept.countP Task.isRead = 0)) ∧
      ∀ i t o n, s.tasks[i]? = some (.read t o n) → s.session.isCurrent t = false →
        (s.act (.run i)).2 =
          let x : Source := { s with tasks := s.tasks.eraseIdx i, readInFlight := false,
                                     pending := none,
                                     stream := s.stream.map fun st => (st.perform (.read n)).2 }
          if (s.phase = .started ∨ s.phase = .paused) ∧ s.wantsData = true then
            ({ x with rewindPending := false, skipPrefix := true,
                      stream := x.stream.map fun st =>
                        { st with position := s.survey.firstMediaOffset } } : Source).issue
              .tagHeader s.survey.firstMediaOffset tagHeaderLength
          else x := by
  have hb := hs.orderly.toBooked
  exact ⟨hb.reads, fun a => (act_move hb a).appends hb,
    fun i t o n hi hst => Source.act_run_stale hb hi hst⟩

def oneTagFile : List UInt8 :=
  [0x46, 0x4C, 0x56, 1, 4, 0, 0, 0, 9, 0, 0, 0, 0, 8, 0, 0, 1, 0, 0, 0, 0, 0, 0, 0, 0x2F, 0, 0, 0, 12]

/-- The file of one tag opened, started and asked to stop: the read of the tag is out and the
stop waits behind it. -/
def heldRead : Source :=
  let opened := (Source.create {}).actAll [.open { data := oneTagFile }, .run 0, .run 0, .run 0]
  opened.actAll [.start (opened.presentation.getD {}) .current, .run 0, .stop]

theorem heldRead_reachable : heldRead.Reachable := ⟨{}, _, Source.actAll_append _ _ _⟩

theorem reads_one_at_a_time_held :
    heldRead.Reachable ∧ heldRead.readInFlight = true ∧ heldRead.pendingOp = true ∧
      heldRead.tasks.countP Task.isRead = 1 := by
  have hr : heldRead.readInFlight = true := by decide +kernel
  refine ⟨heldRead_reachable, hr, by decide +kernel, ?_⟩
  rw [(reads_one_at_a_time heldRead_reachable).1, hr, if_pos rfl]

/-- A started or paused demuxer in which a selected track wants data has a read out. -/
theorem streaming_never_stalls {s : Source} (hs : s.Reachable)
    (hph : s.phase = .started ∨ s.phase = .paused)
    (hwant : ∃ k t, s.track k = some t ∧ t.active = true ∧ t.needsData = true) :
    s.readInFlight = true :=
  hs.orderly.flowing hph ((Source.wantsData_iff s).2 hwant)

/-- The file of one tag opened, started and its start run: the audio track wants data and the
read of the tag is out. -/
theorem streaming_never_stalls_on_one_tag :
    let opened := (Source.create {}).actAll
      [.open { data := oneTagFile }, .run 0, .run 0, .run 0]
    let s := opened.actAll [.start (opened.presentation.getD {}) .current, .run 0]
    s.Reachable ∧ (s.phase = .started ∨ s.phase = .paused) ∧
      (∃ k t, s.track k = some t ∧ t.active = true ∧ t.needsData = true) ∧ s.readInFlight = true := by
  intro opened s
  have hs : s.Reachable := ⟨{}, _, Source.actAll_append _ _ _⟩
  have hph : s.phase = .started ∨ s.phase = .paused := .inl (by decide +kernel)
  have hwant := (Source.wantsData_iff s).1 (by decide +kernel)
  exact ⟨hs, hph, hwant, streaming_never_stalls hs hph hwant⟩

/-- Control operations one at a time, and shutdown for good. (a) At most one control operation
waits, and while one waits every start, pause or stop is refused with nothing changed. (b) A
waiting operation may run in the phase, unless the demuxer shut down; while it stays accepted
the phase holds, or the demuxer shuts down. (c) A shut-down demuxer stays shut down over any
later run, reports nothing more and refuses every call. (d) At most one error is reported, and
none while opening: a failure then answers the open. -/
theorem controls_one_at_a_time {s : Source} (hs : s.Reachable) :
    (s.tasks.countP (fun t => !t.isRead) ≤ 1 ∧
      ((∃ c ∈ s.tasks, c.isRead = false) →
        (∀ given pos, ∃ e, s.act (.start given pos) = (.error e, s) ∧ e.IsRefusal) ∧
        (∃ e, s.act .pause = (.error e, s) ∧ e.IsRefusal) ∧
        ∃ e, s.act .stop = (.error e, s) ∧ e.IsRefusal)) ∧
    ((∀ c ∈ s.tasks, c.isRead = false → c.Admits s.phase ∨ s.phase = .shutdown) ∧
      ∀ a, s.pendingOp = true → (s.act a).2.pendingOp = true →
        (s.act a).2.phase = s.phase ∨ (s.act a).2.phase = .shutdown) ∧
    (s.phase = .shutdown → ∀ bs, (s.actAll bs).phase = .shutdown ∧
      (s.actAll bs).events = s.events ∧
      (∀ st, ((s.actAll bs).act (.open st)).1 = .error .shutdown) ∧
      (∀ given pos, ((s.actAll bs).act (.start given pos)).1 = .error .shutdown) ∧
      ((s.actAll bs).act .pause).1 = .error .shutdown ∧
      ((s.actAll bs).act .stop).1 = .error .shutdown ∧
      (∀ k token, ((s.actAll bs).act (.request k token)).1 = .error .shutdown) ∧
      characteristicsOf (s.actAll bs) = .error .shutdown ∧
      presentationOf (s.actAll bs) = .error .shutdown ∧
      ∀ k, streamOf (s.actAll bs) k = none) ∧
    (s.events.countP Event.isError ≤ 1 ∧
      (s.phase = .opening → ∀ a, (∃ M, (s.act a).2.events = s.events ++ M ∧ Faultless M) ∧
        ((s.act a).2.phase = .shutdown → ∃ e, (s.act a).2.openResult = some (.error e)))) := by
  have hs' := hs.orderly
  have hb := hs'.toBooked
  refine ⟨⟨?_, fun ⟨c, hm, hc⟩ => ?_⟩, ⟨hb.queued, fun a hop hop' => (act_move hb a).hold hb hop hop'⟩,
    fun hph bs => ?_, ⟨le_trans hb.errors (by split <;> omega),
      fun hph a => (act_move hb a).opening hb hph⟩⟩
  · rw [hb.controls]
    split <;> omega
  · have hop : s.pendingOp = true := by
      have := hb.controls
      have hpos : 0 < s.tasks.countP (fun t => !t.isRead) :=
        List.countP_pos_iff.2 ⟨c, hm, by simp [hc]⟩
      cases hp : s.pendingOp <;> simp_all
    exact ⟨fun given pos => (start_checks given pos s).refused hop, (pause_checks s).refused hop,
      (stop_checks s).refused hop⟩
  · obtain ⟨hdown, hev⟩ := hs'.shutdown_actAll hph bs
    exact ⟨hdown, hev, Source.refuses_of_shutdown hdown⟩

theorem controls_one_at_a_time_held :
    heldRead.Reachable ∧ heldRead.readInFlight = true ∧ Task.stop ∈ heldRead.tasks ∧
      ∃ e, heldRead.act .pause = (.error e, heldRead) ∧ e.IsRefusal := by
  have hm : Task.stop ∈ heldRead.tasks := by decide +kernel
  exact ⟨heldRead_reachable, by decide +kernel, hm,
    ((controls_one_at_a_time heldRead_reachable).1.2 ⟨.stop, hm, rfl⟩).2.1⟩

end FlvDemux.Engine
