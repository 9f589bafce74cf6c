import FlvDemux.Proofs.PlayControls
import FlvDemux.Proofs.EndRuns

/-! A demuxer opened on a file `f` answers, on each track, the samples the file gives that track
(`Flv.demux`), in order, each with the token of a request the track accepted, in order
(`samples_follow_reference`). The proof carries `Source.Follows` along the run: the demuxer is shut
down with every answer within what the file gives, or it walks its file and plays from the same
point of it. A read of the session goes through the streaming (`Walking.run_plays`), a stale read
leaves the playing between two tags (`Walking.stale_plays`), and the queued controls keep the
playing as `Source.Plays.runStart`, `Source.Plays.runPause` and `Source.Holds.runStop` say. -/

namespace FlvDemux.Engine

open Flv

section Dispatch

variable {f : List UInt8} {v : Survey} {S : List TrackKind} {U : List Exchange}
  {tags : List (Nat × TagHeader)} {b e o n : Nat} {s : Source} {c : Task} {rest : List Task}

theorem Sound.walking (hs : Sound f e s) (hph : s.phase ≠ .shutdown) : Walking f e s :=
  hs.resolve_left fun h => hph h.1

theorem Source.untouched_complete (ht : (c :: rest).Perm s.tasks) (str : Option ByteStream) :
    s.Untouched { s with tasks := rest, stream := str, readInFlight := false, pending := none } :=
  ⟨rfl, rfl, rfl, rfl, rfl, rfl, rfl, fun _ _ hm => ht.subset (List.mem_cons_of_mem _ hm)⟩

theorem Walking.run_plays (hw : Walking f e s) (h : s.Plays f v S e U tags b)
    (ht : (.read s.session.word o n :: rest).Perm s.tasks) :
    ∃ e₁, Sound f e₁ ((runTask (.read s.session.word o n)).run { s with tasks := rest }).2 ∧
      ((runTask (.read s.session.word o n)).run { s with tasks := rest }).2.PlaysOn f v S e₁ U
        s.events := by
  have hmem : Task.read s.session.word o n ∈ s.tasks := ht.subset List.mem_cons_self
  obtain ⟨⟨step, hp, hfit, hscan⟩, hpos, hrw, hsk, hph⟩ := hw.current o n hmem
  have hph' : s.phase = .started ∨ s.phase = .paused := by
    have hopen := h.isOpen
    rcases hph with hph | hph
    · simp [Source.isOpen, hph] at hopen
    · exact hph
  have hinv : s.phase ≠ .invalid := by rcases hph' with h' | h' <;> simp [h']
  have hstop : s.phase ≠ .stopped := by rcases hph' with h' | h' <;> simp [h']
  obtain ⟨st, hs, hd⟩ := hw.stream.resolve_left hinv
  have hst : st.position = o := by simpa [Source.position, hs] using hpos
  have hcur : s.session.isCurrent s.session.word = true :=
    (Session.isCurrent_iff _ _).2 ⟨hw.word, rfl⟩
  have hawait : s.Awaits step := ⟨⟨_, o, n, hmem, hcur⟩, hp⟩
  cases hr : st.read n with
  | error fl =>
    rw [runTask_read_error (s := { s with tasks := rest }) hs hr,
      resume_error (s := { s with tasks := rest }) hcur hp]
    exact ⟨e, fail_sound (by exact hw.live) _,
      (h.toHolds.untouched (Source.untouched_complete ht s.stream)).fail _⟩
  | ok r =>
    obtain ⟨data, st'⟩ := r
    obtain ⟨hdata, hd', hq, hpast⟩ := ByteStream.read_ok hr
    rw [hd, hst] at hdata
    rw [hd, hst] at hq hpast
    have hi := hw.idle_after_read ht hinv (hd'.trans hd)
    have hu := Source.untouched_complete ht (some st')
    have hH := h.toHolds.untouched hu
    have hC := h.config.untouched hu
    rw [runTask_read_ok (s := { s with tasks := rest }) hs hr,
      resume_stream (s := { s with tasks := rest, stream := some st' }) hcur hp hph']
    rcases h.place with ⟨hb, hstep⟩ | ⟨hstep, -, htag, hk, he, hR⟩ | ⟨-, hread, -⟩
    · obtain rfl := hstep step hawait
      subst hb
      by_cases hlen : data.length = tagHeaderLength
      · obtain ⟨h', hread', rfl, htag, hsound⟩ :=
          streamStep_tagHeader_full hi hph' hrw hsk hw.chain hfit hdata hq hlen
        exact ⟨_, hsound, hH.streamStep_tagHeader_full hC hph' rfl hw.word rfl hlen hread' htag⟩
      · exact ⟨b, streamStep_tagHeader_short hi hph' hrw hsk hw.chain hfit hdata hq
          (fun h' => (hpast h').2) hlen, hH.streamStep_tagHeader_short hC hph' rfl hlen⟩
    · rw [Option.some.inj (hstep.2.symm.trans hp)] at hR
      cases step with
      | tagHeader | fileHeader | scriptPayload => exact hR.elim
      | audioHeader t =>
        exact ⟨e, streamStep_audioHeader hi hph' hrw hsk hw.chain hfit hdata hq,
          hH.streamStep_audioHeader hC hw.word htag hk he hdata hR hfit⟩
      | aacPacketType q =>
        exact ⟨e, streamStep_aacPacketType hi hph' hrw hsk hw.chain hfit hdata hq,
          hH.streamStep_aacPacketType hC hw.word htag hk he hdata hR hfit⟩
      | audioPayload q =>
        exact ⟨e, streamStep_audioPayload hi hph' hrw hsk hw.chain hfit hdata hq,
          hH.streamStep_audioPayload hC hw.word htag hk he hdata rfl hstop hR hfit⟩
      | videoHeader t =>
        exact ⟨e, streamStep_videoHeader hi hph' hrw hsk hw.chain hfit hdata hq,
          hH.streamStep_videoHeader hC hw.word htag hk he hdata rfl hstop hR hfit⟩
      | avcPacketHeader q =>
        exact ⟨e, streamStep_avcPacketHeader hi hph' hrw hsk hw.chain hfit hdata hq,
          hH.streamStep_avcPacketHeader hC hw.word htag hk he hdata rfl hstop hR hfit⟩
      | videoPayload q =>
        exact ⟨e, streamStep_videoPayload hi hph' hrw hsk hw.chain hfit hdata hq,
          hH.streamStep_videoPayload hC hw.word htag hk he hdata rfl hstop hR hfit⟩
    · have hnone := hw.reads
      rw [hread, if_neg (by simp)] at hnone
      exact absurd hmem (not_mem_of_countP_isRead hnone _ _ _)

theorem Walking.stale_between (hw : Walking f e s) (h : s.Plays f v S e U tags b)
    {t : UInt64} (ht : (.read t o n :: rest).Perm s.tasks) (hne : t ≠ s.session.word) : b = e := by
  have hnone := not_mem_of_countP_isRead (hw.reads_rest ht).2
  cases h.place with
  | between hb _ => exact hb
  | inTag hstep =>
    obtain ⟨⟨t', o', n', hm, hcur⟩, -⟩ := hstep
    obtain ⟨-, rfl⟩ := (Session.isCurrent_iff _ _).1 hcur
    rcases List.mem_cons.1 (ht.symm.subset hm) with he | hm'
    · exact absurd (Task.read.inj he).1 (Ne.symm hne)
    · exact absurd hm' (hnone _ _ _)
  | ended _ hread =>
    have := hw.reads
    rw [hread, if_neg (by simp), ← ht.countP_eq, List.countP_cons_of_pos (by rfl)] at this
    omega

theorem Walking.stale_plays (hw : Walking f e s) (h : s.Plays f v S e U tags b) {t : UInt64}
    (ht : (.read t o n :: rest).Perm s.tasks) (hne : t ≠ s.session.word) :
    Sound f e ((runTask (.read t o n)).run { s with tasks := rest }).2 ∧
      ((runTask (.read t o n)).run { s with tasks := rest }).2.PlaysOn f v S e U s.events := by
  obtain ⟨-, hsound⟩ := hw.run_stale ht hne
  have hst : s.session.isCurrent t = false := Session.isCurrent_of_ne hne
  rw [runTask_stale hst] at hsound ⊢
  refine ⟨hsound, ?_⟩
  have hu := Source.untouched_complete ht (s.stream.map fun st => (st.perform (.read n)).2)
  have hP := (h.toHolds.untouched hu).between (h.config.untouched hu) rfl
  rw [hw.stale_between h ht hne] at hP
  exact hP.pump hw.word

end Dispatch

section Follows

variable {f : List UInt8} {v : Survey} {S : List TrackKind} {D : List Exchange}
  {tags : List (Nat × TagHeader)} {b e : Nat} {s y : Source} {L M : List Event} {a : Action}

/-- What a run keeps of a demuxer opened on `f` with the survey `v`, every start of which selects
`S`, its dialog since the open being `D`: shut down with every answer since the last stop within
what the file gives, or walking its file and playing from the same point of it, its books
balanced against the dialog since the last stop. -/
def Source.Follows (f : List UInt8) (v : Survey) (S : List TrackKind) (D : List Exchange)
    (s : Source) : Prop :=
  ∃ e, Sound f e s ∧ (s.phase = .shutdown ∧ Conforms f v (sinceStopped D) ∨
    ∃ tags b, s.Plays f v S e (sinceStopped D) tags b)

theorem Source.Follows.conforms (h : s.Follows f v S D) : Conforms f v (sinceStopped D) := by
  obtain ⟨e, -, ⟨-, hc⟩ | ⟨tags, b, hp⟩⟩ := h
  · exact hc
  · exact hp.toHolds.conforms

theorem Source.PlaysOn.follows (h : y.PlaysOn f v S e (sinceStopped D) L) (hs : Sound f e y) :
    ∃ M, y.events = L ++ M ∧ y.Follows f v S (D ++ M.map .told) := by
  obtain ⟨M, hev, hstop, hpost⟩ := h
  refine ⟨M, hev, e, hs, ?_⟩
  rw [sinceStopped_append (isStop_told hstop)]
  exact hpost

theorem Source.Follows.of_events (hev : y.events = L ++ M) (h : y.Follows f v S (D ++ M.map .told)) :
    y.Follows f v S (D ++ (y.events.drop L.length).map .told) := by
  rw [hev, List.drop_left]
  exact h

theorem Walking.follows_silent (hw : Walking f e y) (h : y.Plays f v S e (sinceStopped D) tags b)
    (hev : y.events = L) : y.Follows f v S (D ++ (y.events.drop L.length).map .told) := by
  rw [hev, List.drop_length, List.map_nil, List.append_nil]
  exact ⟨e, .inr hw, .inr ⟨tags, b, h⟩⟩

theorem Source.Follows.of_silent (hev : (s.act a).2.events = s.events)
    (ha : ∀ k token, a ≠ .request k token) (h : (s.act a).2.Follows f v S D) :
    (s.act a).2.Follows f v S (D ++ s.exchange a) := by
  rw [Source.exchange_of_events (M := []) (by rw [hev, List.append_nil]) ha, List.map_nil,
    List.append_nil]
  exact h

theorem Source.exchange_of_shutdown (hb : s.Booked) (hph : s.phase = .shutdown) (a : Action) :
    s.exchange a = [] := by
  have hev : (s.act a).2.events = s.events := by
    rw [(act_move hb a).frozen hb hph]
  unfold Source.exchange
  rw [hev, List.drop_length, List.map_nil, List.append_nil]
  cases a with
  | request k token => rw [(Source.refuses_of_shutdown hph).2.2.2.2.1 k token]
  | _ => rfl

theorem beginOpen_exec_of_opened (hph : s.phase ≠ .invalid) (st : ByteStream) :
    (Step.exec (beginOpen st) s).2 = s := by
  simp only [beginOpen, Step.exec_bind, Step.exec_get]
  cases h : s.phase
  case invalid => exact absurd h hph
  all_goals rfl

theorem Walking.queues_follows (hw : Walking f e s) (h : s.Plays f v S e (sinceStopped D) tags b)
    {m : Step Unit} {c : Task} (hc : c.isRead = false) (hq : Queues m c s)
    (hS : ∀ sel pos, c = .start sel pos → ∀ k, k ∈ sel ↔ k ∈ S) :
    (Step.exec m s).2.events = s.events ∧ (Step.exec m s).2.Follows f v S D := by
  refine ⟨?_, e, hw.queues hc hq, .inr ⟨tags, b, ?_⟩⟩
  · rcases hq with hq | ⟨-, -, hq⟩ <;> rw [hq]
  · rcases hq with hq | ⟨-, -, hq⟩ <;> rw [hq]
    · exact h
    · exact h.enqueue hc hS

theorem Source.Plays.popControl (h : s.Plays f v S e (sinceStopped D) tags b) {c : Task}
    {rest : List Task} (ht : (c :: rest).Perm s.tasks) (hc : c.isRead = false) :
    ({ s with tasks := rest } : Source).Plays f v S e (sinceStopped D) tags b := by
  refine h.untouched ⟨rfl, rfl, rfl, rfl, rfl, rfl, rfl, fun _ _ hm =>
    ht.subset (List.mem_cons_of_mem _ hm)⟩ (fun t o n => ?_) rfl rfl rfl
  constructor
  · exact fun hm => ht.subset (List.mem_cons_of_mem _ hm)
  · intro hm
    rcases List.mem_cons.1 (ht.symm.subset hm) with he | hm
    · rw [← he] at hc
      cases hc
    · exact hm

/-- A queued task that runs, whichever it is, keeps the walk and the playing: a read of the
session goes through the streaming, a stale read leaves it between two tags, and a control
operation runs as it was checked to. The stop opens a session new to every queued read. -/
theorem Walking.runTask_follows (hb : s.Booked) (hw : Walking f e s)
    (h : s.Plays f v S e (sinceStopped D) tags b) {c : Task} {rest : List Task}
    (ht : (c :: rest).Perm s.tasks)
    (hnew : ∀ t o n, Task.read t o n ∈ s.tasks → t ≠ s.session.restart.word) :
    ((runTask c).run { s with tasks := rest }).2.Follows f v S
      (D ++ (((runTask c).run { s with tasks := rest }).2.events.drop s.events.length).map .told) := by
  have hmem : c ∈ s.tasks := ht.subset List.mem_cons_self
  cases c with
  | read t o n =>
    by_cases hcur : t = s.session.word
    · subst hcur
      obtain ⟨e₁, hs, hon⟩ := hw.run_plays h ht
      obtain ⟨M, hev, hF⟩ := hon.follows hs
      exact hF.of_events hev
    · obtain ⟨hs, hon⟩ := hw.stale_plays h ht hcur
      obtain ⟨M, hev, hF⟩ := hon.follows hs
      exact hF.of_events hev
  | start sel pos =>
    have hpos : pos = .current ∨ s.phase = .stopped := by
      have hadm := (hb.queued _ hmem rfl).resolve_right hw.live
      cases pos with
      | current => exact .inl rfl
      | «at» t => exact .inr hadm.2
    have hs := hw.runTask_start ht
    have hon := (h.popControl ht rfl).runStart hw.word hw.live (h.starts sel pos hmem) hpos
    obtain ⟨M, hev, hF⟩ := hon.follows hs
    exact hF.of_events hev
  | pause =>
    have hs := hw.runTask_pause ht
    have hx := h.popControl ht rfl
    by_cases hph : s.phase = .started
    · obtain ⟨M, hev, hstop, hP⟩ := hx.runPause hph
      obtain ⟨M', hev', hF⟩ := Source.PlaysOn.follows ⟨M, hev, hstop, .inr ⟨tags, b, hP⟩⟩ hs
      exact hF.of_events hev'
    · have hrun : (runPause.run { s with tasks := rest }).2 =
          { s with tasks := rest, pendingOp := false } := by
        simp [Engine.runPause, hph]
      simp only [runTask] at hs ⊢
      rw [hrun] at hs ⊢
      exact (hs.walking hw.live).follows_silent (hx.untouched ⟨rfl, rfl, rfl, rfl, rfl, rfl, rfl,
        fun _ _ hm => hm⟩ (fun _ _ _ => Iff.rfl) rfl rfl rfl) rfl
  | stop =>
    obtain ⟨hH, hC, M, hev⟩ := (h.popControl ht rfl).toHolds.runStop hw.live
    obtain ⟨⟨hph, hs⟩, -⟩ := hw.runTask_stop ht hnew
    have hw' := hs.walking (by simp [hph])
    have hev' : (runStop.run { s with tasks := rest }).2.events =
        s.events ++ (M ++ [.sourceStopped]) := by
      rw [hev, List.append_assoc]
    refine Source.Follows.of_events hev' ⟨_, .inr hw', .inr ⟨[], v.firstMediaOffset, ?_⟩⟩
    rw [List.map_append, ← List.append_assoc, List.map_cons, List.map_nil,
      sinceStopped_concat_stop rfl]
    exact hw'.plays_stopped hph hH hC

/-- One action of a demuxer that walks its file and plays, every start it is asked for selecting
`S`: the walk and the playing go on, or the demuxer shuts down with every answer within what the
file gives. -/
theorem Walking.act_follows (hb : s.Booked) (hw : Walking f e s)
    (h : s.Plays f v S e (sinceStopped D) tags b) (a : Action)
    (hnew : ∀ t o n, Task.read t o n ∈ s.tasks → t ≠ s.session.restart.word)
    (hsel : ∀ given pos, a = .start given pos → ∀ k, k ∈ given.selected ↔ k ∈ S) :
    (s.act a).2.Follows f v S (D ++ s.exchange a) := by
  cases a with
  | «open» st =>
    have hrun : (s.act (.open st)).2 = s := beginOpen_exec_of_opened (by
      have hopen := h.isOpen
      intro hinv
      simp [Source.isOpen, hinv] at hopen) st
    refine Source.Follows.of_silent (by rw [hrun]) (fun _ _ => by simp) ?_
    rw [hrun]
    exact ⟨e, .inr hw, .inr ⟨tags, b, h⟩⟩
  | start given pos =>
    obtain ⟨hev, hF⟩ := hw.queues_follows h rfl (start_queues given pos s) fun sel pos' he => by
      cases he
      exact hsel given pos rfl
    exact Source.Follows.of_silent hev (fun _ _ => by simp) hF
  | pause =>
    obtain ⟨hev, hF⟩ := hw.queues_follows h rfl (pause_queues s) fun _ _ he => by cases he
    exact Source.Follows.of_silent hev (fun _ _ => by simp) hF
  | stop =>
    obtain ⟨hev, hF⟩ := hw.queues_follows h rfl (stop_queues s) fun _ _ he => by cases he
    exact Source.Follows.of_silent hev (fun _ _ => by simp) hF
  | shutdown =>
    refine Source.Follows.of_silent (shutdownNow_events s) (fun _ _ => by simp)
      ⟨e, .inl ⟨shutdownNow_phase s, ?_⟩, .inl ⟨shutdownNow_phase s, h.toHolds.conforms⟩⟩
    show (shutdownNow.run s).2.session.word &&& shutdownBit ≠ 0
    rw [shutdownNow_session hw.live]
    exact s.session.shutdown_bit
  | request k token =>
    have hs : Sound f e (s.act (.request k token)).2 := by
      simp only [Source.act]
      rcases requestSample_cases k token s with hr | ⟨s', hq, hr⟩
      · rw [hr]
        exact .inr hw
      · rw [hr]
        exact pump_sound (hw.quiet hq)
    have hA := sinceStopped_append (X := D)
      (Y := if (s.act (.request k token)).1 = .ok () then [.asked k token] else [])
      (by split <;> simp [Exchange.isStop])
    have hon := h.request hw.word k token
    rw [← hA] at hon
    obtain ⟨M, hev, hF⟩ := hon.follows hs
    rw [Source.exchange_request hev, ← List.append_assoc]
    exact hF
  | run i =>
    have hx : s.exchange (.run i) = ((s.act (.run i)).2.events.drop s.events.length).map .told := by
      simp [Source.exchange]
    rw [hx]
    rcases Source.act_run s i with hrun | ⟨c, rest, ht, hrun⟩ <;> rw [hrun]
    · exact hw.follows_silent h rfl
    · exact hw.runTask_follows hb h ht hnew

theorem Source.Follows.act (hb : s.Booked) (h : s.Follows f v S D) (a : Action)
    (hnew : ∀ t o n, Task.read t o n ∈ s.tasks → t ≠ s.session.restart.word)
    (hsel : ∀ given pos, a = .start given pos → ∀ k, k ∈ given.selected ↔ k ∈ S) :
    (s.act a).2.Follows f v S (D ++ s.exchange a) := by
  obtain ⟨e, hs, hpost⟩ := h
  rcases hs with ⟨hph, hword⟩ | hw
  · have hc := Source.Follows.conforms ⟨e, .inl ⟨hph, hword⟩, hpost⟩
    obtain ⟨hph', hsess⟩ := act_of_shutdown hph hword a
    rw [Source.exchange_of_shutdown hb hph a, List.append_nil]
    exact ⟨e, .inl ⟨hph', by rw [hsess]; exact hword⟩, .inl ⟨hph', hc⟩⟩
  · rcases hpost with ⟨hph, -⟩ | ⟨tags, b, hp⟩
    · exact absurd hph hw.live
    · exact hw.act_follows hb hp a hnew hsel

theorem Source.Follows.actAll (hr : s.Reachable) (h : s.Follows f v S D) (as : List Action)
    (hy : s.Young as.length)
    (hsel : ∀ given pos, Action.start given pos ∈ as → ∀ k, k ∈ given.selected ↔ k ∈ S) :
    (s.actAll as).Follows f v S (D ++ s.dialog as) := by
  induction as generalizing s D with
  | nil => simpa [Source.dialog] using h
  | cons a as ih =>
    have hb := hr.orderly.toBooked
    have h₁ := h.act hb a (fun t o n hm => hy.fresh hm)
      fun given pos ha => hsel given pos (ha ▸ List.mem_cons_self)
    have h₂ := ih (hr.act a) h₁ (hy.act hb a) fun given pos hm => hsel given pos (List.mem_cons_of_mem _ hm)
    rw [Source.dialog, ← List.append_assoc]
    exact h₂

end Follows

section Opened

variable {f : List UInt8} {e : Nat} {s y : Source} {m : Step Unit}

/-- The tracks of a demuxer are as the end of the scan creates them, and no start is queued. -/
def Source.Fresh (s : Source) : Prop :=
  (∀ k t, s.track k = some t → ∃ d, t = Track.new k d) ∧ ∀ sel pos, Task.start sel pos ∉ s.tasks

theorem Source.Fresh.scan (hm : Step.Opens m) (hst : s.stream.isSome) (hph : s.phase = .opening)
    (hnone : ∀ k, s.track k = none) (hq : ∀ sel pos, Task.start sel pos ∉ s.tasks)
    (hy : ((guarded m).run s).2.phase = .stopped) : ((guarded m).run s).2.Fresh := by
  rcases guarded_opens hm hst with ⟨x, hx, hrun | ⟨err, hrun⟩⟩ | ⟨x, y, hx, hopen, hrun⟩ <;>
    rw [hrun] at hy ⊢
  · rw [hx.still.phase, hph] at hy
    cases hy
  · rw [fail_phase] at hy
    cases hy
  · refine ⟨fun k t ht => ?_, fun sel pos hm => hq sel pos (hx.starts sel pos ?_)⟩
    · rcases hopen.tracks k with h' | h'
      · exact ⟨_, Option.some.inj (ht.symm.trans h')⟩
      · rw [h', hx.still.track, hnone] at ht
        cases ht
    · rwa [← hopen.tasks]

theorem Walking.act_opening_fresh (hw : Walking f e s) (hph : s.phase = .opening)
    (hnone : ∀ k, s.track k = none) (a : Action) (hy : (s.act a).2.phase = .stopped) :
    (s.act a).2.Fresh := by
  have hctl : s.tasks.countP (fun t => !t.isRead) = 0 := by
    have := hw.controls
    rwa [hw.opening hph, if_neg (by simp)] at this
  have hq : ∀ sel pos, Task.start sel pos ∉ s.tasks := fun sel pos hm =>
    not_mem_of_countP_control hctl hm rfl
  have hstay : (s.act a).2 = s → (s.act a).2.Fresh := by
    intro h'
    rw [h', hph] at hy
    cases hy
  have hqueue : ∀ {m : Step Unit} {c : Task}, Queues m c s → (Step.exec m s).2 = s := by
    intro m c hm
    rcases hm with hm | ⟨hph', -⟩
    · exact hm
    · rcases hph' with h' | h' | h' <;> simp [hph] at h'
  cases a with
  | «open» st => exact hstay (beginOpen_exec_of_opened (by simp [hph]) st)
  | start given pos => exact hstay (hqueue (start_queues given pos s))
  | pause => exact hstay (hqueue (pause_queues s))
  | stop => exact hstay (hqueue (stop_queues s))
  | shutdown =>
    rw [show (s.act .shutdown).2.phase = .shutdown from shutdownNow_phase s] at hy
    cases hy
  | request k token =>
    rcases requestSample_cases k token s with hr | ⟨s', hq', hr⟩
    · exact hstay hr
    · have hs' : (s.act (.request k token)).2 = s' := by
        simp only [Source.act]
        rw [hr, pump_idle_phase (by rw [hq']; simp [hph])]
      rw [hs', hq'.phase, hph] at hy
      cases hy
  | run i =>
    rcases Source.act_run s i with hrun | ⟨c, rest, ht, hrun⟩
    · exact hstay hrun
    rw [hrun] at hy ⊢
    have hmem : c ∈ s.tasks := ht.subset List.mem_cons_self
    cases c with
    | read t o n =>
      by_cases hcur : t = s.session.word
      · subst hcur
        obtain ⟨⟨step, hp, -, -⟩, -, -, -, -⟩ := hw.current o n hmem
        obtain ⟨st, hs, -⟩ := hw.stream.resolve_left (by simp [hph])
        have hcur : s.session.isCurrent s.session.word = true :=
          (Session.isCurrent_iff _ _).2 ⟨hw.word, rfl⟩
        cases hr : st.read n with
        | error fl =>
          rw [runTask_read_error (s := { s with tasks := rest }) hs hr,
            resume_error (s := { s with tasks := rest }) hcur hp, fail_phase] at hy
          cases hy
        | ok r =>
          obtain ⟨data, st'⟩ := r
          rw [runTask_read_ok (s := { s with tasks := rest }) hs hr,
            resume_scan (s := { s with tasks := rest, stream := some st' }) hcur hp hph] at hy ⊢
          exact Source.Fresh.scan (Step.Opens.scanStep step data o) rfl hph
            (fun k => by cases k with
              | video => exact hnone .video
              | audio => exact hnone .audio)
            (fun sel pos hm => hq sel pos (ht.subset (List.mem_cons_of_mem _ hm))) hy
      · exact absurd hph (hw.stale t o n hmem hcur).2
    | start sel pos => exact absurd hmem (hq sel pos)
    | pause => exact (not_mem_of_countP_control hctl hmem rfl).elim
    | stop => exact (not_mem_of_countP_control hctl hmem rfl).elim

theorem Source.Follows.opened (hw : Walking f e y) (hph : y.phase = .stopped) (hfresh : y.Fresh)
    (hcfg : y.avcConfig = y.survey.avcConfig) (hsent : y.avcConfigSent = false)
    (S : List TrackKind) : y.Follows f y.survey S [] := by
  have hnew : ∀ k, y.heldOn k = [] ∧ y.waitingOn k = [] ∧ y.isActive k = false := by
    intro k
    cases ht : y.track k with
    | none => simp [Source.heldOn, Source.waitingOn, Source.isActive, ht]
    | some t =>
      obtain ⟨d, rfl⟩ := hfresh.1 k t ht
      simp [Source.heldOn, Source.waitingOn, Source.isActive, ht, Track.new, Track.held]
  have hH : y.Holds f y.survey S (sinceStopped []) [] y.survey.firstMediaOffset :=
    { survey := rfl
      chain := .nil
      books := fun k => by simp [Source.BalancedOn, (hnew k).1, (hnew k).2.1]
      fresh := fun _ => rfl
      isOpen := by simp [Source.isOpen, hph]
      chosen := fun k hk => by rw [(hnew k).2.2] at hk; cases hk
      playing := fun hp => by rcases hp with h' | h' <;> simp [hph] at h'
      kinds := fun k t ht => by obtain ⟨d, rfl⟩ := hfresh.1 k t ht; rfl
      starts := fun sel pos hm => absurd hm (hfresh.2 sel pos) }
  have hC : y.Configured f y.survey [] :=
    ⟨fun _ => by rw [played_nil, hcfg, hsent], fun _ => ⟨hcfg, hsent⟩⟩
  exact ⟨e, .inr hw, .inr ⟨[], _, hw.plays_stopped hph hH hC⟩⟩

end Opened

section Run

/-- A demuxer answers what its file gives. Whatever the client does before, once an action answers
the open of a file `f` with a presentation `P`, that presentation is the one of the survey `v` the
file header and first tags of `f` teach; and along every run of fewer than `2 ^ 63` actions from
there, every start of which selects the tracks `S` (from where the demuxer stands or from the start), with pauses, stops,
requests on any track and completed reads, stale ones included, in any order: the samples
answered on each track since the last stop are the first of those `Flv.demux` gives it, in order,
each answered with the token of a request accepted on that track since that stop, in order. -/
theorem samples_follow_reference (config : SourceConfig) (f : List UInt8) (as₀ : List Action)
    (a : Action) (hf : f.length < Nat.pow 2 64) (hopen : ∀ st, Action.open st ∈ as₀ → st.data = f)
    (hph : ((Source.create config).actAll as₀).phase = .opening) {P : Presentation}
    (hans : (((Source.create config).actAll as₀).act a).2.openResult = some (.ok P))
    (S : List TrackKind) (as : List Action) (hlen : as.length < Nat.pow 2 63)
    (hsel : ∀ given pos, Action.start given pos ∈ as → ∀ k, k ∈ given.selected ↔ k ∈ S) :
    let U := sinceStopped ((((Source.create config).actAll as₀).act a).2.dialog as)
    ∃ tags e v, FirstTags f tags e ∧ Survey.ofTags f tags = .ok v ∧ P = v.presentation ∧
      ∀ k, (answers k U).map Prod.fst <+: demux f v k ∧
        (answers k U).map Prod.snd <+: asked k U := by
  intro U
  have hr₀ : ((Source.create config).actAll as₀).Reachable := ⟨config, as₀, rfl⟩
  obtain ⟨e₀, hs₀, hv₀⟩ := Source.Scans.actAll hf (Source.orderly_create config)
    (create_sound config f) ⟨fun _ => ⟨rfl, rfl⟩, fun h => by simp [Source.create] at h⟩ as₀ hopen
    (.inr hph)
  -- no stop runs before the scan ends, so the budget is whole when the run starts
  have hy := ((Source.young_create config hlen).actAll_scan (Source.orderly_create config) as₀
    (.inr hph)).act_scan hr₀.orderly.toBooked (.inr hph) a
  have hw₀ := hs₀.walking (by simp [hph])
  have hnone := (Source.actAll_settles ⟨config, [], rfl⟩ (accounts_create config) as₀).1.no_tracks hph
  obtain ⟨e₁, hs₁, hst⟩ := hw₀.act_scan_settles hf (hv₀.2 hph) a
  rcases hst with ⟨-, err, herr⟩ | ⟨-, -, hres, -⟩ | ⟨hph₁, ⟨tags, e, hft, hv⟩, -, hres, hcfg, hsent⟩
  · rw [hans] at herr
    cases herr
  · rw [hans] at hres
    cases hres
  · rw [hans] at hres
    cases hres
    have hw₁ := hs₁.walking (by simp [hph₁])
    have hF := (Source.Follows.opened hw₁ hph₁ (hw₀.act_opening_fresh hph hnone a hph₁) hcfg hsent
      S).actAll (hr₀.act a) as hy hsel
    rw [List.nil_append] at hF
    exact ⟨tags, e, _, hft, hv, rfl, hF.conforms⟩

set_option maxRecDepth 10000 in
/-- The file of one MP3 tag, opened and started with its audio track. A stop overtakes the read
of the tag, the demuxer starts again while that read is still out, and the read then completes
stale before the sample is asked for. -/
theorem samples_follow_reference_overtaken :
    let f : List UInt8 :=
      [0x46, 0x4C, 0x56, 1, 4, 0, 0, 0, 9, 0, 0, 0, 0, 8, 0, 0, 2, 0, 0, 0, 0, 0, 0, 0, 0x2F, 0xFF,
       0, 0, 0, 13]
    let P : Presentation := ⟨[(.audio ⟨.mp3, 44100, 2, 16, 0, none⟩, true)], 0⟩
    let as₀ : List Action := [.open { data := f }, .run 0, .run 0]
    let as : List Action := [.start P .current, .run 0, .stop, .run 1, .start P .current, .run 1,
      .run 0, .request .audio (some 1), .run 0, .run 0, .run 0]
    ((Source.create {}).actAll as₀).phase = .opening ∧
      (((Source.create {}).actAll as₀).act (.run 0)).2.openResult = some (.ok P) ∧
      as.length < Nat.pow 2 63 ∧
      (∀ given pos, Action.start given pos ∈ as → ∀ k, k ∈ given.selected ↔ k ∈ [TrackKind.audio]) ∧
      let U := sinceStopped ((((Source.create {}).actAll as₀).act (.run 0)).2.dialog as)
      ∃ tags e v, FirstTags f tags e ∧ Survey.ofTags f tags = .ok v ∧ P = v.presentation ∧
        ∀ k, (answers k U).map Prod.fst <+: demux f v k ∧
          (answers k U).map Prod.snd <+: asked k U := by
  intro f P as₀ as
  have hph : ((Source.create {}).actAll as₀).phase = .opening := by decide +kernel
  have hans : (((Source.create {}).actAll as₀).act (.run 0)).2.openResult = some (.ok P) := by
    decide +kernel
  have hlen : as.length < Nat.pow 2 63 := by decide
  have hsel : ∀ given pos, Action.start given pos ∈ as →
      ∀ k, k ∈ given.selected ↔ k ∈ [TrackKind.audio] := by
    intro given pos hm k
    simp only [as, List.mem_cons, Action.start.injEq, reduceCtorEq, List.not_mem_nil,
      or_false, false_or] at hm
    rcases hm with ⟨rfl, -⟩ | ⟨rfl, -⟩ <;> cases k <;> decide
  exact ⟨hph, hans, hlen, hsel, samples_follow_reference {} f as₀ (.run 0) (by decide)
    (by simp [as₀]) hph hans [.audio] as hlen hsel⟩

set_option maxRecDepth 10000 in
/-- On that run the audio track answers the one sample of the file, with the token asked. -/
example : answers .audio (sinceStopped ((((Source.create {}).actAll
    [.open { data := [0x46, 0x4C, 0x56, 1, 4, 0, 0, 0, 9, 0, 0, 0, 0, 8, 0, 0, 2, 0, 0, 0, 0, 0, 0,
      0, 0x2F, 0xFF, 0, 0, 0, 13] }, .run 0, .run 0]).act (.run 0)).2.dialog
    [.start ⟨[(.audio ⟨.mp3, 44100, 2, 16, 0, none⟩, true)], 0⟩ .current, .run 0, .stop, .run 1,
      .start ⟨[(.audio ⟨.mp3, 44100, 2, 16, 0, none⟩, true)], 0⟩ .current, .run 1, .run 0,
      .request .audio (some 1), .run 0, .run 0, .run 0])) =
    [({ buffers := [[0xFF]], timestampHns := 0 }, some 1)] := by
  decide +kernel

end Run

end FlvDemux.Engine
