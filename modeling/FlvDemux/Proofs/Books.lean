import FlvDemux.Proofs.Outcomes

/-!
# The books of a demuxer stay in order

A demuxer keeps its books on reads, control operations, sessions and failures in a few fields
(`Source.Booked`): at most one read is queued, exactly while one is out, and at most one control
operation, exactly while one is accepted; the top bit of the session word says the demuxer is
shut down; a stale read finds a rewind pending; and an error has been reported at most once. Each
way an action can change the books has its lemma here.
-/

namespace FlvDemux.Engine

/-- Whether a queued control operation may run in a phase: the phases its call accepts. A start
at a time runs only from the start of a stopped demuxer, a pause only on a started one. -/
def Task.Admits : Task → Phase → Prop
  | .read .., _ => True
  | .start _ (.at t), ph => t = 0 ∧ ph = .stopped
  | .start _ .current, ph => ph = .stopped ∨ ph = .started ∨ ph = .paused
  | .pause, ph => ph = .started
  | .stop, ph => ph = .stopped ∨ ph = .started ∨ ph = .paused

/-- The steps a phase reads for: any while opening, those of the streaming while started or
paused, none otherwise. -/
def Phase.Reads (ph : Phase) (step : ReadStep) : Prop :=
  ph = .opening ∨ (ph = .started ∨ ph = .paused) ∧ step.scanOnly = false

theorem Task.Admits.open {c : Task} {ph : Phase} (hc : c.isRead = false) (h : c.Admits ph) :
    ph = .stopped ∨ ph = .started ∨ ph = .paused := by
  cases c with
  | read => cases hc
  | start sel pos =>
    cases pos
    · exact h
    · exact .inl h.2
  | pause => exact .inr (.inl h)
  | stop => exact h

theorem Phase.Reads.live {ph : Phase} {step : ReadStep} (h : ph.Reads step) :
    ph = .opening ∨ ph = .started ∨ ph = .paused := by
  rcases h with h | ⟨h, -⟩
  · exact .inl h
  · exact .inr h

theorem not_mem_of_countP_control {ts : List Task} (h : ts.countP (fun t => !t.isRead) = 0)
    {c : Task} (hm : c ∈ ts) (hc : c.isRead = false) : False :=
  absurd h (List.countP_pos_iff.2 ⟨c, hm, by simp [hc]⟩).ne'

theorem Faultless.countP {M : List Event} (h : Faultless M) : M.countP Event.isError = 0 :=
  List.countP_eq_zero.2 fun e he => by simp [h e he]

/-- The books of a demuxer in order. -/
structure Source.Booked (s : Source) : Prop where
  reads : s.tasks.countP Task.isRead = if s.readInFlight then 1 else 0
  controls : s.tasks.countP (fun t => !t.isRead) = if s.pendingOp then 1 else 0
  word : s.session.word &&& shutdownBit = 0 ↔ s.phase ≠ .shutdown
  invalid : s.phase = .invalid → s.readInFlight = false
  opening : s.phase = .opening → s.awaitingOpen = true
  /-- The read out of a live demuxer is awaited for a step, one of the scan only while opening. -/
  awaits : s.readInFlight = true → s.phase ≠ .shutdown →
    ∃ step, s.pending = some step ∧ (step.scanOnly = true → s.phase = .opening)
  stream : s.phase ≠ .invalid → s.phase ≠ .shutdown → s.stream.isSome = true
  /-- A stale read finds a rewind pending, unless the demuxer is shut down. -/
  rewinds : ∀ t o n, Task.read t o n ∈ s.tasks → s.session.isCurrent t = false →
    s.phase ≠ .shutdown → s.rewindPending = true
  queued : ∀ c ∈ s.tasks, c.isRead = false → c.Admits s.phase ∨ s.phase = .shutdown
  errors : s.events.countP Event.isError ≤ if s.phase = .shutdown then 1 else 0

/-- A demuxer whose books are in order and that never stalls. -/
structure Source.Orderly (s : Source) : Prop extends s.Booked where
  flowing : s.Flowing

namespace Source.Booked

variable {s x y : Source}

theorem errors_live (hb : s.Booked) (h : s.phase ≠ .shutdown) :
    s.events.countP Event.isError = 0 := by
  have := hb.errors
  rw [if_neg h] at this
  omega

theorem isCurrent_of_shutdown (hb : s.Booked) (h : s.phase = .shutdown) (t : UInt64) :
    s.session.isCurrent t = false :=
  Session.isCurrent_of_shutdown (fun h0 => hb.word.1 h0 h) t

theorem reads_idle (hb : s.Booked) (h : s.readInFlight = false) : s.tasks.countP Task.isRead = 0 := by
  simpa [h] using hb.reads

theorem reading (hb : s.Booked) {t : UInt64} {o n : Nat} (hm : Task.read t o n ∈ s.tasks) :
    s.readInFlight = true := by
  cases h : s.readInFlight
  · exact absurd hm (not_mem_of_countP_isRead (hb.reads_idle h) t o n)
  · rfl

theorem current_phase (hb : s.Booked) {t : UInt64} {o n : Nat} (hm : Task.read t o n ∈ s.tasks)
    (hcur : s.session.isCurrent t = true) :
    s.phase = .opening ∨ (s.phase = .started ∨ s.phase = .paused) ∨ s.phase = .stopped := by
  have hin := hb.reading hm
  cases h : s.phase
  case invalid => simp [hb.invalid h] at hin
  case shutdown => simp [hb.isCurrent_of_shutdown h] at hcur
  all_goals simp

theorem control_phase (hb : s.Booked) {c : Task} (hm : c ∈ s.tasks) (hc : c.isRead = false) :
    (s.phase = .stopped ∨ s.phase = .started ∨ s.phase = .paused) ∨ s.phase = .shutdown :=
  (hb.queued c hm hc).imp_left (Task.Admits.open hc)

theorem pendingOp_of_phase (hb : s.Booked)
    (h : s.phase = .invalid ∨ s.phase = .opening) : s.pendingOp = false := by
  have hnone : s.tasks.countP (fun t => !t.isRead) = 0 := by
    refine List.countP_eq_zero.2 fun c hm hc => ?_
    have hc' : c.isRead = false := by simpa using hc
    rcases hb.control_phase hm hc' with (h' | h' | h') | h' <;> rcases h with h | h <;>
      rw [h] at h' <;> cases h'
  have := hb.controls
  rw [hnone] at this
  cases hp : s.pendingOp
  · rfl
  · rw [hp] at this
    cases this

theorem awaits_open (hb : s.Booked) (hr : s.readInFlight = true)
    (hph : s.phase = .stopped ∨ s.phase = .started ∨ s.phase = .paused) :
    ∃ step, s.pending = some step ∧ step.scanOnly = false := by
  obtain ⟨step, hp, hscan⟩ := hb.awaits hr (by rcases hph with h | h | h <;> simp [h])
  refine ⟨step, hp, ?_⟩
  cases h : step.scanOnly
  · rfl
  · rcases hph with h' | h' | h' <;> simp [hscan h] at h'

theorem minor (hb : s.Booked) (h : s.Minor y) : y.Booked where
  reads := by rw [h.tasks, h.readInFlight]; exact hb.reads
  controls := by rw [h.tasks, h.pendingOp]; exact hb.controls
  word := by rw [h.session, h.phase]; exact hb.word
  invalid := by rw [h.phase, h.readInFlight]; exact hb.invalid
  opening := by rw [h.phase, h.awaitingOpen]; exact hb.opening
  awaits := by rw [h.readInFlight, h.phase, h.pending]; exact hb.awaits
  stream hi hl := h.stream (hb.stream (h.phase ▸ hi) (h.phase ▸ hl))
  rewinds t o n hm hst hl := by
    rw [h.tasks] at hm
    rw [h.session] at hst
    rw [h.rewind (hb.reading hm)]
    exact hb.rewinds t o n hm hst (h.phase ▸ hl)
  queued := by rw [h.tasks, h.phase]; exact hb.queued
  errors := by
    obtain ⟨M, hM, hf⟩ := h.events
    rw [hM, List.countP_append, hf.countP, h.phase, Nat.add_zero]
    exact hb.errors

theorem issue (hb : x.Booked) (hidle : x.readInFlight = false) {step : ReadStep}
    (hr : x.phase.Reads step) (o n : Nat) : (x.issue step o n).Booked := by
  have hnone := hb.reads_idle hidle
  have hlive : x.phase ≠ .shutdown := by rcases hr.live with h | h | h <;> simp [h]
  have hninv : x.phase ≠ .invalid := by rcases hr.live with h | h | h <;> simp [h]
  have hword : x.session.isCurrent x.session.word = true :=
    (Session.isCurrent_iff _ _).2 ⟨hb.word.2 hlive, rfl⟩
  have hmem : ∀ t o' n', Task.read t o' n' ∈ (x.issue step o n).tasks → t = x.session.word := by
    intro t o' n' hm
    simp only [Source.issue, List.mem_append, List.mem_singleton, Task.read.injEq] at hm
    rcases hm with hm | ⟨rfl, -, -⟩
    · exact absurd hm (not_mem_of_countP_isRead hnone t o' n')
    · rfl
  refine ⟨?_, ?_, hb.word, fun h => absurd h hninv, hb.opening,
    fun _ _ => ⟨step, rfl, fun hs => ?_⟩, hb.stream, fun t o' n' hm hst => ?_, fun c hm hc => ?_,
    hb.errors⟩
  · show (x.tasks ++ [Task.read x.session.word o n]).countP Task.isRead = if true then 1 else 0
    rw [List.countP_append, hnone, List.countP_cons_of_pos rfl, List.countP_nil]
    rfl
  · show (x.tasks ++ [Task.read x.session.word o n]).countP (fun t => !t.isRead) = _
    rw [List.countP_append, List.countP_cons_of_neg (by simp), List.countP_nil, Nat.add_zero]
    exact hb.controls
  · rcases hr with h | ⟨-, h⟩
    · exact h
    · rw [h] at hs
      cases hs
  · rw [hmem t o' n' hm] at hst
    exact absurd hword (by simp [Source.issue] at hst ⊢; simp [hst])
  · simp only [Source.issue, List.mem_append, List.mem_singleton] at hm
    rcases hm with hm | rfl
    · exact hb.queued c hm hc
    · cases hc

theorem shutdown_live (hlive : y.phase ≠ .shutdown)
    (hr : y.tasks.countP Task.isRead = if y.readInFlight then 1 else 0)
    (hc : y.tasks.countP (fun t => !t.isRead) = if y.pendingOp then 1 else 0)
    (herr : y.events.countP Event.isError ≤ 1) : (shutdownNow.run y).2.Booked where
  reads := by rw [shutdownNow_tasks, shutdownNow_readInFlight]; exact hr
  controls := by rw [shutdownNow_tasks, shutdownNow_pendingOp]; exact hc
  word := by
    rw [shutdownNow_session hlive, shutdownNow_phase]
    exact ⟨fun h => absurd h (Session.shutdown_bit _), fun h => absurd rfl h⟩
  invalid := fun h => by simp at h
  opening := fun h => by simp at h
  awaits := fun _ h => absurd (shutdownNow_phase y) h
  stream := fun _ h => absurd (shutdownNow_phase y) h
  rewinds := fun _ _ _ _ _ h => absurd (shutdownNow_phase y) h
  queued := fun _ _ _ => .inr (shutdownNow_phase y)
  errors := by rw [shutdownNow_events, shutdownNow_phase, if_pos rfl]; exact herr

theorem shutdown (hb : s.Booked) : (shutdownNow.run s).2.Booked := by
  by_cases h : s.phase = .shutdown
  · rw [shutdownNow_of_shutdown h]
    exact hb
  · exact shutdown_live h hb.reads hb.controls (by rw [hb.errors_live h]; omega)

theorem fail (hb : x.Booked) (hlive : x.phase ≠ .shutdown) (e : SourceError) :
    ((Engine.fail e).run x).2.Booked := by
  simp only [Engine.fail, StateT.run_bind, StateT.run_get, bind_id_eq, pure_id_eq]
  split
  · exact shutdown_live hlive hb.reads hb.controls
      (by show x.events.countP Event.isError ≤ 1; rw [hb.errors_live hlive]; omega)
  · simp only [StateT.run_bind, emit_run, bind_id_eq]
    exact shutdown_live hlive hb.reads hb.controls
      (by simp [List.countP_append, hb.errors_live hlive, Event.isError])

theorem opened (hb : x.Booked) (hph : x.phase = .opening) (hidle : x.readInFlight = false)
    (hy : x.Opened y) : y.Booked := by
  have hlive : x.phase ≠ .shutdown := by simp [hph]
  have hnone := hb.reads_idle hidle
  refine ⟨by rw [hy.tasks, hy.readInFlight]; exact hb.reads,
    by rw [hy.tasks, hy.pendingOp]; exact hb.controls, ?_, fun h => by simp [hy.phase] at h,
    fun h => by simp [hy.phase] at h, fun hr => by simp [hy.readInFlight, hidle] at hr,
    fun _ _ => hy.stream, fun t o n hm _ => ?_, fun c hm hc => ?_, ?_⟩
  · rw [hy.session, hy.phase]
    exact ⟨fun _ => by simp, fun _ => hb.word.2 hlive⟩
  · rw [hy.tasks] at hm
    exact absurd hm (not_mem_of_countP_isRead hnone t o n)
  · rw [hy.tasks] at hm
    rcases hb.control_phase hm hc with (h | h | h) | h <;> simp [hph] at h
  · rw [hy.events, hy.phase, hb.errors_live hlive]
    exact Nat.zero_le _

theorem popRead (hb : s.Booked) {t : UInt64} {o n : Nat} {rest : List Task}
    (ht : (.read t o n :: rest).Perm s.tasks) :
    ({ s with tasks := rest, readInFlight := false, pending := none } : Source).Booked := by
  have hreads := hb.reads
  rw [← ht.countP_eq, List.countP_cons_of_pos (by rfl)] at hreads
  have hrest : rest.countP Task.isRead = 0 := by split at hreads <;> omega
  have hctl := hb.controls
  rw [← ht.countP_eq, List.countP_cons_of_neg (by simp)] at hctl
  refine ⟨by simpa using hrest, hctl, hb.word, fun _ => rfl, hb.opening, fun h => by simp at h,
    hb.stream, fun t' o' n' hm _ => absurd hm (not_mem_of_countP_isRead hrest t' o' n'),
    fun c hm hc => hb.queued c (ht.subset (List.mem_cons_of_mem _ hm)) hc, hb.errors⟩

theorem popStale (hb : s.Booked) {t : UInt64} {o n : Nat} {rest : List Task}
    (ht : (.read t o n :: rest).Perm s.tasks) :
    ({ s with tasks := rest, readInFlight := false, pending := none,
              stream := s.stream.map fun st => (st.perform (.read n)).2 } : Source).Booked :=
  (hb.popRead ht).minor (.of_eq rfl rfl rfl rfl rfl rfl rfl (fun h => by simpa using h)
    (fun _ => rfl) rfl)

theorem popControl (hb : s.Booked) {c : Task} {rest : List Task} (ht : (c :: rest).Perm s.tasks)
    (hc : c.isRead = false) : s.pendingOp = true ∧ rest.countP (fun t => !t.isRead) = 0 ∧
      rest.countP Task.isRead = s.tasks.countP Task.isRead := by
  have hctl := hb.controls
  rw [← ht.countP_eq, List.countP_cons_of_pos (by simp [hc])] at hctl
  refine ⟨?_, ?_, by rw [← ht.countP_eq, List.countP_cons_of_neg (by simp [hc])]⟩
  · cases hp : s.pendingOp <;> simp_all
  · split at hctl <;> omega

theorem drop (hb : s.Booked) {c : Task} {rest : List Task} (ht : (c :: rest).Perm s.tasks)
    (hc : c.isRead = false) (hph : s.phase = .shutdown) :
    ({ s with tasks := rest, pendingOp := false } : Source).Booked := by
  obtain ⟨-, hctl, hreads⟩ := hb.popControl ht hc
  refine ⟨by rw [hreads]; exact hb.reads, by simpa using hctl, hb.word, fun h => by simp_all,
    fun h => by simp_all, fun _ h => absurd hph h, fun _ h => absurd hph h,
    fun _ _ _ _ _ h => absurd hph h, fun _ _ _ => .inr hph, hb.errors⟩

theorem ran (hb : s.Booked) {c : Task} {rest : List Task} (ht : (c :: rest).Perm s.tasks)
    (hc : c.isRead = false) (hlive : s.phase ≠ .shutdown) {ph : Phase}
    (hph : ph = .stopped ∨ ph = .started ∨ ph = .paused) {ss : Session} {rw : Bool}
    (hword : ss.word &&& shutdownBit = s.session.word &&& shutdownBit)
    (hrw : ∀ t o n, Task.read t o n ∈ rest → ss.isCurrent t = false → rw = true) :
    ({ s with tasks := rest, pendingOp := false, session := ss, phase := ph,
              rewindPending := rw } : Source).Booked := by
  obtain ⟨-, hctl, hreads⟩ := hb.popControl ht hc
  have hopen : s.phase = .stopped ∨ s.phase = .started ∨ s.phase = .paused :=
    (hb.control_phase (ht.subset List.mem_cons_self) hc).resolve_right hlive
  have hlive' : ph ≠ .shutdown := by rcases hph with h | h | h <;> simp [h]
  refine ⟨by rw [hreads]; exact hb.reads, by simpa using hctl, ?_, fun h => ?_, fun h => ?_,
    fun hr _ => ?_, fun _ _ => hb.stream (by rcases hopen with h | h | h <;> simp [h]) hlive,
    fun t o n hm hst _ => hrw t o n hm hst, fun c hm hc => ?_, ?_⟩
  · show ss.word &&& shutdownBit = 0 ↔ ph ≠ .shutdown
    rw [hword]
    exact ⟨fun _ => hlive', fun _ => hb.word.2 hlive⟩
  · rcases hph with h' | h' | h' <;> rw [h'] at h <;> cases h
  · rcases hph with h' | h' | h' <;> rw [h'] at h <;> cases h
  · obtain ⟨step, hp, hscan⟩ := hb.awaits_open hr hopen
    exact ⟨step, hp, fun h => by rw [hscan] at h; cases h⟩
  · exact (not_mem_of_countP_control hctl hm hc).elim
  · show s.events.countP Event.isError ≤ if ph = .shutdown then 1 else 0
    rw [hb.errors_live hlive]
    exact Nat.zero_le _

theorem started (hb : s.Booked) {sel : List TrackKind} {pos : StartPosition} {rest : List Task}
    (ht : (.start sel pos :: rest).Perm s.tasks) (hlive : s.phase ≠ .shutdown) :
    ({ s with tasks := rest, pendingOp := false, phase := .started } : Source).Booked :=
  hb.ran ht rfl hlive (.inr (.inl rfl)) rfl fun t o n hm hst =>
    hb.rewinds t o n (ht.subset (List.mem_cons_of_mem _ hm)) hst hlive

theorem paused (hb : s.Booked) {rest : List Task} (ht : (.pause :: rest).Perm s.tasks)
    (hph : s.phase = .started) :
    ({ s with tasks := rest, pendingOp := false, phase := .paused } : Source).Booked :=
  hb.ran ht rfl (by simp [hph]) (.inr (.inr rfl)) rfl fun t o n hm hst =>
    hb.rewinds t o n (ht.subset (List.mem_cons_of_mem _ hm)) hst (by simp [hph])

theorem stopped (hb : s.Booked) {rest : List Task} (ht : (.stop :: rest).Perm s.tasks)
    (hlive : s.phase ≠ .shutdown) :
    ({ s with tasks := rest, pendingOp := false, session := s.session.restart, phase := .stopped,
              rewindPending := true } : Source).Booked :=
  hb.ran ht rfl hlive (.inl rfl) (Session.restart_bit _) fun _ _ _ _ _ => rfl

theorem enqueue (hb : s.Booked) {c : Task} (hc : c.isRead = false) (hop : s.pendingOp = false)
    (hadm : c.Admits s.phase) :
    ({ s with pendingOp := true, tasks := s.tasks ++ [c] } : Source).Booked := by
  have hnone : s.tasks.countP (fun t => !t.isRead) = 0 := by simpa [hop] using hb.controls
  -- a read of the longer queue is one of the old queue
  have hold : ∀ t o n, Task.read t o n ∈ s.tasks ++ [c] → Task.read t o n ∈ s.tasks := by
    intro t o n hm
    rcases List.mem_append.1 hm with hm | hm
    · exact hm
    · rw [← List.mem_singleton.1 hm] at hc
      cases hc
  refine ⟨?_, ?_, hb.word, hb.invalid, hb.opening, hb.awaits, hb.stream,
    fun t o n hm => hb.rewinds t o n (hold t o n hm), fun c' hm hc' => ?_, hb.errors⟩
  · show (s.tasks ++ [c]).countP Task.isRead = _
    rw [List.countP_append, List.countP_cons_of_neg (by simp [hc]), List.countP_nil, Nat.add_zero]
    exact hb.reads
  · show (s.tasks ++ [c]).countP (fun t => !t.isRead) = if true then 1 else 0
    rw [List.countP_append, hnone, List.countP_cons_of_pos (by simp [hc]), List.countP_nil]
    rfl
  · rcases List.mem_append.1 hm with hm | hm
    · exact hb.queued c' hm hc'
    · rw [List.mem_singleton.1 hm]
      exact .inl hadm

theorem begin (hb : s.Booked) (hph : s.phase = .invalid) (st : ByteStream) :
    ({ s with phase := .opening, stream := some st, awaitingOpen := true } : Source).Booked := by
  have hlive : s.phase ≠ .shutdown := by simp [hph]
  have hnone := hb.reads_idle (hb.invalid hph)
  refine ⟨hb.reads, hb.controls, ⟨fun _ h => (by cases h), fun _ => hb.word.2 hlive⟩,
    fun h => (by cases h), fun _ => rfl, fun hr => by simp [hb.invalid hph] at hr, fun _ _ => rfl,
    fun t o n hm _ => absurd hm (not_mem_of_countP_isRead hnone t o n), fun c hm hc => ?_, ?_⟩
  · rcases hb.control_phase hm hc with (h | h | h) | h <;> simp [hph] at h
  · show s.events.countP Event.isError ≤ if Phase.opening = .shutdown then 1 else 0
    rw [hb.errors_live hlive]
    exact Nat.zero_le _

end Source.Booked

theorem Source.orderly_create (config : SourceConfig) : (Source.create config).Orderly where
  reads := rfl
  controls := rfl
  word := ⟨fun _ h => (by cases h), fun _ => by show (0 : UInt64) &&& shutdownBit = 0; decide⟩
  invalid := fun _ => rfl
  opening := fun h => by cases h
  awaits := fun h => by cases h
  stream := fun h => absurd rfl h
  rewinds := fun _ _ _ h => by cases h
  queued := fun _ h => by cases h
  errors := Nat.zero_le _
  flowing := fun h => by rcases h with h | h <;> cases h

theorem Source.Outcome.orderly {ok : ReadStep → Prop} {opens : Prop} {s y : Source} (hb : s.Booked)
    (hlive : s.phase ≠ .shutdown) (hok : ∀ step, ok step → s.phase.Reads step)
    (hopens : opens → s.phase = .opening ∧ s.readInFlight = false) (ho : s.Outcome ok opens y) :
    y.Orderly := by
  cases ho with
  | rest h hflow => exact ⟨hb.minor h, hflow⟩
  | issued h hidle hr o n =>
    have hr' : _ := hok _ hr
    rw [← h.phase] at hr'
    exact ⟨(hb.minor h).issue hidle hr' o n, fun _ _ => rfl⟩
  | failed h e =>
    exact ⟨(hb.minor h).fail (by rw [h.phase]; exact hlive) e, fun hph => by simp at hph⟩
  | opened hop h hy =>
    obtain ⟨hph, hidle⟩ := hopens hop
    refine ⟨(hb.minor h).opened (by rw [h.phase]; exact hph) (by rw [h.readInFlight]; exact hidle) hy,
      fun hph' => ?_⟩
    rw [hy.phase] at hph'
    rcases hph' with h' | h' <;> cases h'

end FlvDemux.Engine
