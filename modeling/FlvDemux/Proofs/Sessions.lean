import FlvDemux.Proofs.Serial

/-! A session word counts restarts modulo `2 ^ 63`, so a read held across that many stops would
find its session current again. `Source.Young n` bounds the count `n` actions ahead and keeps the
ticket of every queued read no later than the current session, and earlier while stopped: the
next session is then always new to every queued read (`Source.Young.fresh`), and a stopped
demuxer holds no read of its own session (`Source.Young.stale_of_stopped`). -/

namespace FlvDemux.Engine

/-- `n` more actions cannot bring the restart count round, and no queued read is of a later
session than the current one, or of the current one while stopped. -/
structure Source.Young (n : Nat) (s : Source) : Prop where
  room : s.session.count + n < 2 ^ 63
  tickets : ∀ t o k, Task.read t o k ∈ s.tasks → (⟨t⟩ : Session).count ≤ s.session.count
  stopped : s.phase = .stopped → ∀ t o k, Task.read t o k ∈ s.tasks →
    (⟨t⟩ : Session).count < s.session.count

theorem Session.count_restart_of_lt {s : Session} (h : s.count + 1 < 2 ^ 63) :
    s.restart.count = s.count + 1 := by
  rw [s.count_restart, Nat.mod_eq_of_lt h]

theorem shutdownNow_count (s : Source) : (shutdownNow.run s).2.session.count = s.session.count := by
  by_cases h : s.phase = .shutdown
  · rw [shutdownNow_of_shutdown h]
  · rw [shutdownNow_session h, Session.count_shutdown]

theorem fail_count (e : SourceError) (s : Source) :
    ((fail e).run s).2.session.count = s.session.count := by
  by_cases h : s.phase = .shutdown
  · simp only [fail, StateT.run_bind, StateT.run_get, bind_id_eq]
    split <;> simp [emit, shutdownNow, h]
  · rw [fail_session h, Session.count_shutdown]

namespace Source.Young

variable {n : Nat} {s y : Source} {t : UInt64} {o k : Nat}

theorem fresh (h : s.Young (n + 1)) (hm : Task.read t o k ∈ s.tasks) :
    t ≠ s.session.restart.word := by
  intro ht
  have hle := h.tickets t o k hm
  have hroom := h.room
  have hnext : s.session.restart.count = s.session.count + 1 :=
    Session.count_restart_of_lt (by omega)
  rw [ht] at hle
  change s.session.restart.count ≤ _ at hle
  omega

theorem stale_of_stopped (h : s.Young n) (hph : s.phase = .stopped) (hm : Task.read t o k ∈ s.tasks) :
    s.session.isCurrent t = false := by
  refine Session.isCurrent_of_ne fun hw => ?_
  have hlt := h.stopped hph t o k hm
  rw [hw] at hlt
  exact absurd hlt (Nat.lt_irrefl _)

theorem mono {m : Nat} (h : s.Young n) (hm : m ≤ n) : s.Young m :=
  ⟨by have := h.room; omega, h.tickets, h.stopped⟩

theorem congr (h : s.Young n) (hc : y.session.count = s.session.count)
    (ht : ∀ t o k, Task.read t o k ∈ y.tasks → Task.read t o k ∈ s.tasks)
    (hph : y.phase = .stopped → s.phase = .stopped) : y.Young n where
  room := hc ▸ h.room
  tickets t o k hm := hc ▸ h.tickets t o k (ht t o k hm)
  stopped hs t o k hm := hc ▸ h.stopped (hph hs) t o k (ht t o k hm)

theorem minor (h : s.Young n) (hx : s.Minor y) : y.Young n :=
  h.congr (by rw [hx.session]) (fun _ _ _ hm => hx.tasks ▸ hm) (fun hs => hx.phase ▸ hs)

theorem shutdown (h : s.Young n) : (shutdownNow.run s).2.Young n :=
  h.congr (shutdownNow_count s) (fun _ _ _ hm => by simpa using hm) (by simp)

theorem fail (h : s.Young n) (e : SourceError) : ((fail e).run s).2.Young n :=
  h.congr (fail_count e s) (fun _ _ _ hm => by simpa using hm) (by simp)

theorem issue (h : s.Young n) (hph : s.phase ≠ .stopped) (step : ReadStep) (o k : Nat) :
    (s.issue step o k).Young n where
  room := h.room
  tickets t o' k' hm := by
    rcases List.mem_append.1 hm with hm | hm
    · exact h.tickets t o' k' hm
    · obtain ⟨rfl, -, -⟩ := Task.read.inj (List.mem_singleton.1 hm)
      exact le_refl _
  stopped hs := absurd hs hph

theorem pop {c : Task} {rest : List Task} (h : s.Young n) (ht : (c :: rest).Perm s.tasks)
    (hy : y.session.count = s.session.count) (htasks : y.tasks = rest)
    (hph : y.phase = .stopped → s.phase = .stopped) : y.Young n :=
  h.congr hy (fun _ _ _ hm => ht.subset (List.mem_cons_of_mem _ (htasks ▸ hm))) hph

theorem restart {rest : List Task} (h : s.Young (n + 1)) (ht : (.stop :: rest).Perm s.tasks) :
    ({ s with tasks := rest, pendingOp := false, session := s.session.restart, phase := .stopped,
              rewindPending := true } : Source).Young n := by
  have hroom := h.room
  have hnext : s.session.restart.count = s.session.count + 1 :=
    Session.count_restart_of_lt (by omega)
  have hle : ∀ t o k, Task.read t o k ∈ rest → (⟨t⟩ : Session).count ≤ s.session.count :=
    fun t o k hm => h.tickets t o k (ht.subset (List.mem_cons_of_mem _ hm))
  refine ⟨?_, fun t o k hm => ?_, fun _ t o k hm => ?_⟩
  · show s.session.restart.count + n < 2 ^ 63
    omega
  · have := hle t o k hm
    show _ ≤ s.session.restart.count
    omega
  · have := hle t o k hm
    show _ < s.session.restart.count
    omega

end Source.Young

theorem Source.Outcome.young {ok : ReadStep → Prop} {opens : Prop} {n : Nat} {s y : Source}
    (hb : s.Booked) (h : s.Young n) (hok : ∀ step, ok step → s.phase.Reads step)
    (hopens : opens → s.readInFlight = false) (ho : s.Outcome ok opens y) : y.Young n := by
  cases ho with
  | rest hx _ => exact h.minor hx
  | issued hx _ hr o k =>
    have hph : s.phase ≠ .stopped := by
      rcases hok _ hr with h' | ⟨h' | h', -⟩ <;> simp [h']
    exact (h.minor hx).issue (by rw [hx.phase]; exact hph) _ o k
  | failed hx e => exact (h.minor hx).fail e
  | opened hop hx hy =>
    -- the scan ends with no read out, so nothing is queued to go stale
    have hnone := hb.reads_idle (hopens hop)
    have hno : ∀ t o k, Task.read t o k ∉ y.tasks := fun t o k hm => by
      rw [hy.tasks, hx.tasks] at hm
      exact not_mem_of_countP_isRead hnone t o k hm
    refine ⟨?_, fun t o k hm => absurd hm (hno t o k), fun _ t o k hm => absurd hm (hno t o k)⟩
    rw [hy.session, hx.session]
    exact h.room

theorem Source.Move.young {n : Nat} {s y : Source} (hb : s.Booked)
    (h : s.Young (n + if s.pendingOp then 1 else 0)) (hm : s.Move y) : y.Young n := by
  have h' := h.mono (Nat.le_add_right n _)
  cases hm with
  | stay => exact h'
  | halt => exact h'.shutdown
  | enqueue hc _ _ =>
    refine h'.congr rfl (fun t o k hm => ?_) id
    rcases List.mem_append.1 hm with hm | hm
    · exact hm
    · obtain rfl := List.mem_singleton.1 hm
      simp at hc
  | «open» hph hy =>
    exact hy.young (hb.begin hph _) (h'.congr rfl (fun _ _ _ => id) (fun hs => by cases hs))
      (fun _ h => h) False.elim
  | request _ hx hy =>
    exact hy.young (hb.minor hx) (h'.minor hx) (fun _ h => by rw [hx.phase]; exact h) False.elim
  | complete ht _ hy => exact hy.young (hb.popRead ht) (h'.pop ht rfl rfl id) (fun _ h => h) fun _ => rfl
  | stale ht _ _ hy => exact hy.young (hb.popStale ht) (h'.pop ht rfl rfl id) (fun _ h => h) False.elim
  | drain ht _ => exact h'.pop ht rfl rfl id
  | drop ht _ _ => exact h'.pop ht rfl rfl id
  | @start _ _ rest x y ht hlive hx hy =>
    have hpop : ({ s with tasks := rest, pendingOp := false } : Source).Young n := h'.pop ht rfl rfl id
    exact hy.young ((hb.started ht hlive).minor (hx.withPhase _))
      ((hpop.minor hx).congr rfl (fun _ _ _ => id) (fun hs => by cases hs)) (fun _ h => h) False.elim
  | @pause rest y ht _ hy _ =>
    have hpop : ({ s with tasks := rest, pendingOp := false, phase := .paused } : Source).Young n :=
      h'.pop ht rfl rfl (fun hs => by cases hs)
    exact hpop.minor hy
  | stop ht _ hy =>
    rw [(hb.popControl ht rfl).1, if_pos rfl] at h
    exact (h.restart ht).minor hy

theorem Source.Young.act {n : Nat} {s : Source} (hb : s.Booked) (h : s.Young (n + 1)) (a : Action) :
    (s.act a).2.Young n :=
  (act_move hb a).young hb (h.mono (by split <;> omega))

theorem Source.Move.scan_phase {s y : Source} (hm : s.Move y)
    (hy : y.phase = .invalid ∨ y.phase = .opening) : s.phase = .invalid ∨ s.phase = .opening := by
  cases hm with
  | stay => exact hy
  | halt => simp at hy
  | enqueue => exact hy
  | «open» hph => exact .inl hph
  | request _ hx hy' =>
    rcases hy'.phase with h | h | ⟨h, -⟩
    · rwa [h, hx.phase] at hy
    · simp [h] at hy
    · exact h.elim
  | complete _ _ hy' =>
    rcases hy'.phase with h | h | ⟨-, h⟩
    · rwa [h] at hy
    · simp [h] at hy
    · simp [h] at hy
  | stale _ _ _ hy' =>
    rcases hy'.phase with h | h | ⟨h, -⟩
    · rwa [h] at hy
    · simp [h] at hy
    · exact h.elim
  | drain => exact hy
  | drop => exact hy
  | start _ _ _ hy' =>
    rcases hy'.phase with h | h | ⟨h, -⟩
    · simp [h] at hy
    · simp [h] at hy
    · exact h.elim
  | pause _ _ hy' => simp [hy'.phase] at hy
  | stop _ _ hy' => simp [hy'.phase] at hy

theorem Source.Orderly.scan_of_actAll {s : Source} (ho : s.Orderly) (as : List Action)
    (h : (s.actAll as).phase = .invalid ∨ (s.actAll as).phase = .opening) :
    s.phase = .invalid ∨ s.phase = .opening := by
  induction as generalizing s with
  | nil => exact h
  | cons a as ih => exact (act_move ho.toBooked a).scan_phase (ih (ho.act a) h)

theorem Source.Young.act_scan {n : Nat} {s : Source} (hb : s.Booked) (h : s.Young n)
    (hph : s.phase = .invalid ∨ s.phase = .opening) (a : Action) : (s.act a).2.Young n := by
  refine (act_move hb a).young hb ?_
  simpa [hb.pendingOp_of_phase hph] using h

theorem Source.Young.actAll_scan {n : Nat} {s : Source} (ho : s.Orderly) (h : s.Young n)
    (as : List Action) (hend : (s.actAll as).phase = .invalid ∨ (s.actAll as).phase = .opening) :
    (s.actAll as).Young n := by
  induction as generalizing s with
  | nil => exact h
  | cons a as ih =>
    exact ih (ho.act a) (h.act_scan ho.toBooked (ho.scan_of_actAll (a :: as) hend) a) hend

theorem Source.young_create (config : SourceConfig) {n : Nat} (h : n < 2 ^ 63) :
    (Source.create config).Young n where
  room := by
    have : (Source.create config).session.count = 0 := by simp [Session.count_eq, Source.create]
    omega
  tickets _ _ _ hm := by cases hm
  stopped _ _ _ _ hm := by cases hm

end FlvDemux.Engine
