import FlvDemux.Proofs.Ending

/-!
# How the steps of a demuxer move it

Each step is taken apart into the moves the accounting of ends tells apart: moves that change
nothing it reads (`Source.Rests`), such a move and then a failure (`Source.Calm`), a sample handed
to a track, and the end of the file told to each selected track (`Source.endTrack`).
-/

namespace FlvDemux.Engine

open Flv

/-- `s'` is `s` with nothing changed that the accounting reads, and no start queued that `s` had
not queued. -/
structure Source.Rests (s s' : Source) : Prop where
  still : s.Still s'
  starts : ∀ sel pos, Task.start sel pos ∈ s'.tasks → Task.start sel pos ∈ s.tasks

namespace Source.Rests

variable {s s' s'' : Source}

theorem refl (s : Source) : s.Rests s := ⟨.refl s, fun _ _ h => h⟩

theorem trans (h : s.Rests s') (h' : s'.Rests s'') : s.Rests s'' :=
  ⟨h.still.trans h'.still, fun sel pos hm => h.starts sel pos (h'.starts sel pos hm)⟩

theorem of_eq (hv : s'.video = s.video) (ha : s'.audio = s.audio)
    (hp : s'.pendingEos = s.pendingEos) (he : s'.eopSent = s.eopSent) (hev : s'.events = s.events)
    (hph : s'.phase = s.phase) (hss : s'.session = s.session) (hst : s'.stream.isSome = s.stream.isSome)
    (ht : s'.tasks = s.tasks) : s.Rests s' :=
  ⟨⟨hv, ha, hp, he, hev, hph, hss, fun h => hst ▸ h⟩, fun _ _ hm => ht ▸ hm⟩

end Source.Rests

/-- A step that changes nothing the accounting reads and queues no start, however it ends. -/
def Step.Keeps {α : Type} (m : Step α) : Prop := ∀ s : Source, s.Rests (Step.exec m s).2

namespace Step.Keeps

variable {α β : Type}

theorem pure (a : α) : Keeps (Pure.pure a : Step α) := fun s => .refl s

theorem throw (e : SourceError) : Keeps (MonadExcept.throw e : Step α) := fun s => .refl s

theorem get : Keeps (MonadState.get : Step Source) := fun s => .refl s

theorem update {f : Source → Source} (h : ∀ s : Source, s.Rests (f s)) :
    Keeps (modify f : Step PUnit) := fun s => by
    rw [Step.exec_modify]
    exact h s

theorem lift {m : StateM Source α} (h : ∀ s : Source, s.Rests (m.run s).2) : Keeps (liftM m : Step α) :=
  fun s => by
    rw [Step.exec_lift]
    exact h s

theorem updateSurvey (f : Survey → Survey) : Keeps (liftM (Engine.updateSurvey f) : Step PUnit) :=
  lift fun _ => .of_eq rfl rfl rfl rfl rfl rfl rfl rfl rfl

theorem bind {m : Step α} {f : α → Step β} (hm : Keeps m) (hf : ∀ a, Keeps (f a)) :
    Keeps (m >>= f) := by
  intro s
  have h := hm s
  rw [Step.exec_bind]
  rcases hr : Step.exec m s with ⟨r, x⟩
  rw [hr] at h
  cases r with
  | ok a => exact h.trans (hf a x)
  | error e => exact h

theorem ofFormat (r : Except FormatError α) : Keeps (Engine.ofFormat r) := fun s => by
  rw [ofFormat_exec]
  exact .refl s

theorem seekStream (target : SeekTarget) : Keeps (Engine.seekStream target) := fun s => by
  rw [seekStream_exec]
  cases hs : s.stream with
  | none => exact .refl s
  | some st =>
    dsimp only
    split
    · exact .of_eq rfl rfl rfl rfl rfl rfl rfl (by simp [hs]) rfl
    · exact .refl s

theorem skipBytes (n : Nat) : Keeps (Engine.skipBytes n) := seekStream _

theorem issueRead (step : ReadStep) (target : Option SeekTarget) (n : Nat) :
    Keeps (Engine.issueRead step target n) := by
  intro s
  rcases h : Step.exec (Engine.issueRead step target n) s with ⟨r, x⟩
  cases r with
  | error e => rw [issueRead_error h]; exact .refl s
  | ok u =>
    have hpos : ∀ st' : ByteStream, s.Rests { s with
        stream := some st', readInFlight := true, pending := some step,
        tasks := s.tasks ++ [.read s.session.ticket st'.position n] } := fun st' =>
      ⟨⟨rfl, rfl, rfl, rfl, rfl, rfl, rfl, fun _ => rfl⟩, fun sel pos hm => by simpa using hm⟩
    cases hs : s.stream with
    | none =>
      cases target <;>
        simp [Engine.issueRead, Step.exec_bind, seekStream_exec, hs] at h
    | some st =>
      cases target with
      | none =>
        rw [issueRead_none hs] at h
        cases h
        exact ⟨⟨rfl, rfl, rfl, rfl, rfl, rfl, rfl, id⟩, fun sel pos hm => by simpa using hm⟩
      | some t =>
        cases hk : st.seek t with
        | error f => rw [issueRead_seek_error hs hk] at h; cases h
        | ok p =>
          rw [issueRead_some hs hk] at h
          cases h
          exact hpos p.2

theorem readNextTag : Keeps Engine.readNextTag := fun s => by
  rw [readNextTag_exec]
  have h : s.Rests { s with rewindPending := false, skipPrefix := true } :=
    .of_eq rfl rfl rfl rfl rfl rfl rfl rfl rfl
  exact h.trans (issueRead _ _ _ _)

end Step.Keeps

/-- `s'` is `s` after a move that rests, and perhaps a failure after it. -/
def Source.Calm (s s' : Source) : Prop :=
  ∃ x, s.Rests x ∧ (s' = x ∨ ∃ e, s' = ((fail e).run x).2)

namespace Source.Calm

variable {s x s' : Source}

theorem refl (s : Source) : s.Calm s := ⟨s, .refl s, .inl rfl⟩

theorem rests_trans (h : s.Rests x) (h' : x.Calm s') : s.Calm s' := by
  obtain ⟨y, hy, hs'⟩ := h'
  exact ⟨y, h.trans hy, hs'⟩

end Source.Calm

theorem guarded_calm {m : Step Unit} (hm : Step.Keeps m) (s : Source) :
    s.Calm ((guarded m).run s).2 := by
  have h := hm s
  rw [guarded_run]
  rcases hr : Step.exec m s with ⟨r, x⟩
  rw [hr] at h
  cases r with
  | ok u => exact ⟨x, h, .inl rfl⟩
  | error e => exact ⟨x, h, .inr ⟨e, rfl⟩⟩

theorem pump_cases (s : Source) :
    (pump.run s).2 = s ∨ (s.phase = .started ∨ s.phase = .paused) ∧ s.readInFlight = false ∧
      s.wantsData = true ∧ s.Calm (pump.run s).2 := by
  simp only [pump, StateT.run_bind, StateT.run_get, bind_id_eq, pure_id_eq]
  split
  · rename_i hgo
    simp only [Bool.and_eq_true, Bool.or_eq_true, decide_eq_true_eq, Bool.not_eq_true'] at hgo
    exact .inr ⟨hgo.1.1, hgo.1.2, hgo.2, guarded_calm Step.Keeps.readNextTag s⟩
  · exact .inl rfl

theorem pump_calm (s : Source) : s.Calm (pump.run s).2 := by
  rcases pump_cases s with h | ⟨-, -, -, h⟩
  · rw [h]
    exact .refl s
  · exact h

theorem guarded_then_pump {m : Step Unit} (hm : Step.Keeps m) (s : Source) :
    s.Calm ((guarded (m >>= fun _ => liftM pump)).run s).2 := by
  have h := hm s
  rcases hr : Step.exec m s with ⟨r, x⟩
  rw [hr] at h
  cases r with
  | ok u =>
    rw [guarded_bind_pump hr]
    exact Source.Calm.rests_trans h (pump_calm x)
  | error e =>
    rw [guarded_bind_pump_error hr]
    exact ⟨x, h, .inr ⟨e, rfl⟩⟩

section Tracks

variable {s : Source} {k : TrackKind} {t : Track}

theorem Source.setTrack_self (ht : s.track k = some t) : s.setTrack k t = s := by
  cases k <;> cases s <;> simp_all [Source.track, Source.setTrack]

theorem Track.deliver_cases (h : t.Sound) (x : Sample) :
    t.active = false ∧ t.deliver x = (t, [], .none) ∨
      t.active = true ∧ ∃ u, t.Loads u ∧ u.phase = t.phase ∧ u.endOfStream = t.endOfStream ∧
        t.deliver x = u.dispatch := by
  unfold Track.deliver
  by_cases ha : t.active = true
  · refine .inr ⟨ha, ?_⟩
    have hidle : ∀ u : Track, u.active = t.active → u.Idle := fun u hu hna => by
      rw [hu, ha] at hna
      cases hna
    rw [if_neg (by simp [ha])]
    split
    · rename_i hroom
      simp only [Bool.and_eq_true, decide_eq_true_eq, List.isEmpty_iff] at hroom
      refine ⟨{ t with samples := t.samples ++ [x] },
        ⟨rfl, rfl, rfl, rfl, id, ⟨?_, by simp [hroom.2]⟩, hidle _ rfl⟩, rfl, rfl, rfl⟩
      simp only [List.length_append, List.length_singleton]
      omega
    · rename_i hfull
      simp only [Bool.and_eq_true, decide_eq_true_eq, List.isEmpty_iff, not_and] at hfull
      refine ⟨{ t with overflow := t.overflow ++ [x] },
        ⟨rfl, rfl, rfl, rfl, id, ⟨h.packed.1, fun _ => ?_⟩, hidle _ rfl⟩, rfl, rfl, rfl⟩
      by_cases hlt : t.samples.length < t.depth
      · exact h.packed.2 (hfull hlt)
      · have := h.packed.1
        simp only
        omega
  · have hf : t.active = false := by simpa using ha
    exact .inl ⟨hf, by simp [hf]⟩

theorem Track.markEnd_loads (h : t.Sound) : t.Loads { t with endOfStream := true } :=
  ⟨rfl, rfl, rfl, rfl, fun _ => rfl, h.packed, h.idle⟩

end Tracks

/-- The end of the file told to the track of kind `k` when it is selected, with its signal
counted. -/
def Source.endTrack (s : Source) (k : TrackKind) : Source :=
  if s.isActive k then ((onTrack k Track.markEnd >>= onSignal).run s).2 else s

theorem streamTag_endOfFile_exec {tag : TagHeader} (hk : tag.isEndOfFile = true) (s : Source) :
    Step.exec (streamTag tag) s = (.ok (), (s.endTrack .video).endTrack .audio) := by
  simp only [streamTag, hk, if_true, TrackKind.all, List.forIn_cons, List.forIn_nil, Step.exec_bind,
    Step.exec_get]
  unfold Source.endTrack
  split_ifs <;>
    simp_all only [Step.exec_bind, Step.exec_lift, Step.exec_pure, Step.exec_get, StateT.run_bind,
      bind_id_eq, if_true, if_false, Bool.false_eq_true]

theorem guarded_get_bind {f : Source → Step Unit} (s : Source) :
    (guarded (get >>= f)).run s = (guarded (f s)).run s := by
  rw [guarded_run, guarded_run, Step.exec_bind, Step.exec_get]

theorem Step.Keeps.replaceAvcConfig (payload : List UInt8) : Keeps (Engine.replaceAvcConfig payload) :=
  bind (ofFormat _) fun c => update fun s => by
    split
    · exact .refl s
    · exact .of_eq rfl rfl rfl rfl rfl rfl rfl rfl rfl

theorem deliverNalUnits_moves (p : VideoPacket) (payload : List UInt8) (s : Source) :
    Step.exec (deliverNalUnits p payload) s = (.ok (), s) ∨
      (∃ e, Step.exec (deliverNalUnits p payload) s = (.error e, s)) ∨
      ∃ smp, Step.exec (deliverNalUnits p payload) s =
        (.ok (), ((deliver .video smp).run { s with avcConfigSent := true }).2) := by
  simp only [deliverNalUnits, Step.exec_bind, Step.exec_get]
  cases s.avcConfig with
  | none => exact .inl rfl
  | some c =>
    dsimp only
    cases readNalUnits c payload with
    | error e => exact .inr (.inl ⟨_, rfl⟩)
    | ok units => exact .inr (.inr ⟨_, rfl⟩)

theorem streamTag_calm {tag : TagHeader} (hk : tag.isEndOfFile = false) (s : Source) :
    s.Calm ((guarded (streamTag tag)).run s).2 := by
  simp only [streamTag, hk, Bool.false_eq_true, if_false]
  split
  · rw [guarded_get_bind]
    split
    · exact guarded_calm (Step.Keeps.issueRead _ _ _) s
    · exact guarded_then_pump (Step.Keeps.skipBytes _) s
  · exact guarded_then_pump (Step.Keeps.skipBytes _) s

/-- What the bytes of a read do to a playing demuxer: a calm move; a sample handed to a track
after a move that rests, then reading on; or, at the end of the file, the end told to the
selected tracks. -/
theorem streamStep_moves (step : ReadStep) (data : List UInt8) (o : Nat) (s : Source) :
    s.Calm ((guarded (streamStep step data o)).run s).2 ∨
      (∃ x k smp, s.Rests x ∧
        ((deliver k smp).run x).2.Calm ((guarded (streamStep step data o)).run s).2) ∨
      ((guarded (streamStep step data o)).run s).2 = (s.endTrack .video).endTrack .audio := by
  have hfail : ∀ e, s.Calm ((fail e).run s).2 := fun e => ⟨s, .refl s, .inr ⟨e, rfl⟩⟩
  cases step with
  | fileHeader => exact .inl (guarded_calm (Step.Keeps.pure ()) s)
  | scriptPayload tag => exact .inl (guarded_calm (Step.Keeps.pure ()) s)
  | tagHeader =>
    simp only [streamStep]
    rw [guarded_ofFormat_bind]
    cases readTagHeader data (o + data.length).toUInt64 with
    | error e => exact .inl (hfail _)
    | ok tag =>
      dsimp only
      cases hk : tag.isEndOfFile
      · exact .inl (streamTag_calm hk s)
      · exact .inr (.inr (by rw [guarded_ok (streamTag_endOfFile_exec hk s)]))
  | audioHeader tag =>
    refine .inl (guarded_calm (Step.Keeps.bind (Step.Keeps.ofFormat _) fun p => ?_) s)
    split <;> exact Step.Keeps.issueRead _ _ _
  | aacPacketType p =>
    exact .inl (guarded_calm (Step.Keeps.bind (Step.Keeps.ofFormat _) fun p =>
      Step.Keeps.issueRead _ _ _) s)
  | audioPayload p =>
    simp only [streamStep]
    rw [guarded_ofFormat_bind]
    cases readPayload data p.payloadLength with
    | error e => exact .inl (hfail _)
    | ok payload =>
      dsimp only
      rw [guarded_ok (by rw [Step.exec_bind, Step.exec_lift]; rfl)]
      exact .inr (.inl ⟨s, .audio, _, .refl s, pump_calm _⟩)
  | videoHeader tag =>
    simp only [streamStep]
    rw [guarded_ofFormat_bind]
    cases readVideoHeader tag data with
    | error e => exact .inl (hfail _)
    | ok p =>
      dsimp only
      split
      · exact .inl (guarded_calm (Step.Keeps.issueRead _ _ _) s)
      · exact .inl (guarded_then_pump (Step.Keeps.skipBytes _) s)
  | avcPacketHeader p =>
    simp only [streamStep]
    rw [guarded_ofFormat_bind]
    cases readAvcPacketHeader p data with
    | error e => exact .inl (hfail _)
    | ok p =>
      dsimp only
      split
      · exact .inl (guarded_calm (Step.Keeps.issueRead _ _ _) s)
      · exact .inl (guarded_then_pump (Step.Keeps.skipBytes _) s)
  | videoPayload p =>
    simp only [streamStep]
    rw [guarded_ofFormat_bind]
    cases readPayload data p.payloadLength with
    | error e => exact .inl (hfail _)
    | ok payload =>
      dsimp only
      split
      · exact .inl (guarded_then_pump (Step.Keeps.replaceAvcConfig _) s)
      · rcases deliverNalUnits_moves p payload s with h | ⟨e, h⟩ | ⟨smp, h⟩
        · rw [guarded_bind_pump h]
          exact .inl (pump_calm s)
        · rw [guarded_bind_pump_error h]
          exact .inl (hfail e)
        · rw [guarded_bind_pump h]
          exact .inr (.inl ⟨{ s with avcConfigSent := true }, .video, smp,
            .of_eq rfl rfl rfl rfl rfl rfl rfl rfl rfl, pump_calm _⟩)

/-- `y` is `s` with the scan ended: the tracks the file describes created afresh, and the demuxer
stopped, with nothing else the accounting or the queue reads changed. -/
structure Source.Opened (s y : Source) : Prop where
  phase : y.phase = .stopped
  events : y.events = s.events
  pendingEos : y.pendingEos = s.pendingEos
  eopSent : y.eopSent = s.eopSent
  session : y.session = s.session
  stream : y.stream.isSome
  tasks : y.tasks = s.tasks
  readInFlight : y.readInFlight = s.readInFlight
  pending : y.pending = s.pending
  pendingOp : y.pendingOp = s.pendingOp
  tracks : ∀ k, y.track k = some (Track.new k (SourceConfig.clampDepth s.config.queueDepth)) ∨
    y.track k = s.track k

theorem Source.track_foldl_new (ds : List StreamDescriptor) (d : Nat) (s : Source) (k : TrackKind) :
    (ds.foldl (fun s x => s.setTrack x.kind (Track.new x.kind d)) s).track k = some (Track.new k d) ∨
      (ds.foldl (fun s x => s.setTrack x.kind (Track.new x.kind d)) s).track k = s.track k := by
  induction ds generalizing s with
  | nil => exact .inr rfl
  | cons x xs ih =>
    rcases ih (s.setTrack x.kind (Track.new x.kind d)) with h | h
    · exact .inl h
    · rw [List.foldl_cons, h, Source.track_setTrack]
      split
      · subst k
        exact .inl rfl
      · exact .inr rfl

theorem Source.foldl_setTrack_eq {α : Type} (g : α → TrackKind) (h : α → Track) (xs : List α)
    (s : Source) : ∃ v a, xs.foldl (fun s d => s.setTrack (g d) (h d)) s = { s with video := v, audio := a } := by
  induction xs generalizing s with
  | nil => exact ⟨s.video, s.audio, rfl⟩
  | cons x xs ih =>
    obtain ⟨v, a, hv⟩ := ih (s.setTrack (g x) (h x))
    refine ⟨v, a, ?_⟩
    rw [List.foldl_cons, hv]
    cases g x <;> rfl

theorem finishOpen_cases {s : Source} (hst : s.stream.isSome) :
    (∃ e, Step.exec finishOpen s = (.error e, s)) ∨
      ∃ y, Step.exec finishOpen s = (.ok (), y) ∧ s.Opened y := by
  obtain ⟨st, hs⟩ := Option.isSome_iff_exists.1 hst
  simp only [finishOpen, Step.exec_bind, Step.exec_get]
  by_cases hempty : s.survey.descriptors.isEmpty = true
  · simp only [if_pos hempty]
    exact .inl ⟨_, rfl⟩
  simp only [if_neg hempty]
  by_cases hmeta : (s.config.requireMetadata && s.survey.metadata.isNone) = true
  · simp only [if_pos hmeta]
    exact .inl ⟨_, rfl⟩
  simp only [if_neg hmeta]
  have htr := Source.track_foldl_new s.survey.descriptors (SourceConfig.clampDepth s.config.queueDepth) s
  obtain ⟨v, a, hfold⟩ := Source.foldl_setTrack_eq (fun d : StreamDescriptor => d.kind)
    (fun d => Track.new d.kind (SourceConfig.clampDepth s.config.queueDepth)) s.survey.descriptors s
  rw [hfold] at htr
  simp only [hfold, Step.exec_bind, Step.exec_set, seekStream_exec, hs, ByteStream.seek_start,
    Step.exec_modify]
  refine .inr ⟨_, rfl, ⟨?_, ?_, ?_, ?_, ?_, ?_, ?_, ?_, ?_, ?_, fun k => ?_⟩⟩
  all_goals split
  all_goals first
    | rfl
    | exact htr k

/-- A step of the scan: it rests, or rests and then ends the scan. -/
def Step.Opens (m : Step Unit) : Prop :=
  ∀ s : Source, s.Rests (Step.exec m s).2 ∨ ∃ x, s.Rests x ∧ Step.exec m s = Step.exec finishOpen x

namespace Step.Opens

theorem of_keeps {m : Step Unit} (h : Keeps m) : Opens m := fun s => .inl (h s)

theorem finish : Opens finishOpen := fun s => .inr ⟨s, .refl s, rfl⟩

theorem bind {α : Type} {m : Step α} {f : α → Step Unit} (hm : Keeps m) (hf : ∀ a, Opens (f a)) :
    Opens (m >>= f) := by
  intro s
  have h := hm s
  rw [Step.exec_bind]
  rcases hr : Step.exec m s with ⟨r, x⟩
  rw [hr] at h
  cases r with
  | ok a =>
    rcases hf a x with h' | ⟨y, hy, h'⟩
    · exact .inl (h.trans h')
    · exact .inr ⟨y, h.trans hy, h'⟩
  | error e => exact .inl h

theorem continueScan : Opens Engine.continueScan :=
  bind Keeps.get fun s => by
    dsimp only
    split
    · exact finish
    · exact of_keeps Keeps.readNextTag

theorem scanTag (tag : TagHeader) : Opens (Engine.scanTag tag) := by
  unfold Engine.scanTag
  split
  · exact finish
  · refine bind (Keeps.update fun s => .of_eq rfl rfl rfl rfl rfl rfl rfl rfl rfl) fun _ =>
      bind Keeps.get fun s => ?_
    dsimp only
    split
    · split
      · exact bind (Keeps.updateSurvey _) fun _ => of_keeps (Keeps.issueRead _ _ _)
      · exact bind (Keeps.skipBytes _) fun _ => continueScan
    all_goals first
      | exact bind (Keeps.skipBytes _) fun _ => continueScan
      | split
        · refine bind (Keeps.updateSurvey _) fun _ => bind Keeps.get fun x => ?_
          split_ifs
          all_goals first
            | exact of_keeps (Keeps.issueRead _ _ _)
            | exact bind (Keeps.skipBytes _) fun _ => continueScan
        · exact bind (Keeps.skipBytes _) fun _ => continueScan

theorem scanStep (step : ReadStep) (data : List UInt8) (o : Nat) : Opens (Engine.scanStep step data o) := by
  unfold Engine.scanStep
  cases step with
  | fileHeader =>
    exact bind (Keeps.ofFormat _) fun _ => bind (Keeps.updateSurvey _) fun _ => of_keeps Keeps.readNextTag
  | tagHeader => exact bind (Keeps.ofFormat _) fun tag => scanTag tag
  | scriptPayload tag =>
    refine bind (Keeps.ofFormat _) fun _ => bind (Keeps.ofFormat _) fun m => ?_
    split
    · exact bind (Keeps.updateSurvey _) fun _ => continueScan
    · exact continueScan
  | audioHeader tag =>
    refine bind (Keeps.ofFormat _) fun _ => bind (Keeps.updateSurvey _) fun _ =>
      bind Keeps.get fun _ => ?_
    split
    · exact of_keeps (Keeps.issueRead _ _ _)
    · exact bind (Keeps.skipBytes _) fun _ => continueScan
  | aacPacketType p =>
    refine bind (Keeps.ofFormat _) fun _ => ?_
    split
    · exact of_keeps (Keeps.issueRead _ _ _)
    · exact bind (Keeps.skipBytes _) fun _ => continueScan
  | audioPayload p =>
    exact bind (Keeps.ofFormat _) fun _ => bind (Keeps.updateSurvey _) fun _ => continueScan
  | videoHeader tag =>
    refine bind (Keeps.ofFormat _) fun _ => bind (Keeps.updateSurvey _) fun _ =>
      bind Keeps.get fun _ => ?_
    split
    · exact of_keeps (Keeps.issueRead _ _ _)
    · exact bind (Keeps.skipBytes _) fun _ => continueScan
  | avcPacketHeader p =>
    refine bind (Keeps.ofFormat _) fun _ => ?_
    split
    · exact of_keeps (Keeps.issueRead _ _ _)
    · exact bind (Keeps.skipBytes _) fun _ => continueScan
  | videoPayload p =>
    exact bind (Keeps.ofFormat _) fun _ => bind (Keeps.ofFormat _) fun _ =>
      bind (Keeps.updateSurvey _) fun _ => continueScan

end Step.Opens

theorem guarded_opens {m : Step Unit} (hm : Step.Opens m) {s : Source} (hst : s.stream.isSome) :
    s.Calm ((guarded m).run s).2 ∨ ∃ x y, s.Rests x ∧ x.Opened y ∧ ((guarded m).run s).2 = y := by
  rw [guarded_run]
  rcases hm s with h | ⟨x, hx, h⟩
  · rcases hr : Step.exec m s with ⟨r, x⟩
    rw [hr] at h
    cases r with
    | ok u => exact .inl ⟨x, h, .inl rfl⟩
    | error e => exact .inl ⟨x, h, .inr ⟨e, rfl⟩⟩
  · rw [h]
    rcases finishOpen_cases (hx.still.stream hst) with ⟨e, he⟩ | ⟨y, hy, hopen⟩
    · rw [he]
      exact .inl ⟨x, hx, .inr ⟨e, rfl⟩⟩
    · rw [hy]
      exact .inr ⟨x, y, hx, hopen, rfl⟩

section Tasks

variable {s : Source}

theorem resume_moves (t : UInt64) (o : Nat) (r : Except Fault (List UInt8)) (s : Source) :
    ((resume t o r).run s).2 = (pump.run { s with readInFlight := false, pending := none }).2 ∨
      ((resume t o r).run s).2 = { s with readInFlight := false, pending := none } ∨
      (∃ e, ((resume t o r).run s).2 =
        ((fail e).run { s with readInFlight := false, pending := none }).2) ∨
      (∃ step data, s.pending = some step ∧ s.phase = .opening ∧ ((resume t o r).run s).2 =
        ((guarded (scanStep step data o)).run { s with readInFlight := false, pending := none }).2) ∨
      ∃ step data, s.pending = some step ∧ (s.phase = .started ∨ s.phase = .paused) ∧
        ((resume t o r).run s).2 =
          ((guarded (streamStep step data o)).run { s with readInFlight := false, pending := none }).2 := by
  cases hc : s.session.isCurrent t
  · exact .inl (resume_stale hc o r)
  cases hp : s.pending with
  | none => exact .inr (.inl (by simp [resume, hc, hp]))
  | some step =>
    cases r with
    | error f => exact .inr (.inr (.inl ⟨_, resume_error hc hp o f⟩))
    | ok data =>
      by_cases h1 : s.phase = .opening
      · exact .inr (.inr (.inr (.inl ⟨step, data, rfl, h1, resume_scan hc hp h1 o data⟩)))
      by_cases h2 : s.phase = .started ∨ s.phase = .paused
      · exact .inr (.inr (.inr (.inr ⟨step, data, rfl, h2, resume_stream hc hp h2 o data⟩)))
      -- in any other phase the bytes are dropped
      refine .inr (.inl ?_)
      simp only [not_or] at h2
      cases hph : s.phase <;> simp_all [resume]

theorem runTask_read_moves (t : UInt64) (o n : Nat) (s : Source) :
    ∃ x r, s.Rests x ∧ x.pending = s.pending ∧
      ((runTask (.read t o n)).run s).2 = ((resume t o r).run x).2 := by
  cases hs : s.stream with
  | none => exact ⟨s, .ok [], .refl s, rfl, by simp [runTask, hs]⟩
  | some st =>
    cases hr : st.read n with
    | ok p => exact ⟨{ s with stream := some p.2 }, .ok p.1, .of_eq rfl rfl rfl rfl rfl rfl rfl
        (by simp [hs]) rfl, rfl, runTask_read_ok hs hr t o⟩
    | error f => exact ⟨s, .error f, .refl s, rfl, runTask_read_error hs hr t o⟩

theorem Source.Rests.pop {c : Task} {rest : List Task} (ht : (c :: rest).Perm s.tasks) :
    s.Rests { s with tasks := rest } :=
  ⟨⟨rfl, rfl, rfl, rfl, rfl, rfl, rfl, id⟩, fun _ _ hm => ht.subset (List.mem_cons_of_mem _ hm)⟩

end Tasks

section Controls

variable {s : Source}

theorem forM_onTrackQuietly (f : Track → Track × List Event) (s : Source) :
    ((TrackKind.all.forM fun k => onTrackQuietly k f).run s).2 =
      { s with video := s.video.map (fun t => (f t).1), audio := s.audio.map (fun t => (f t).1),
               events := s.events ++ ((s.video.map fun t => (f t).2).getD [] ++
                 (s.audio.map fun t => (f t).2).getD []) } := by
  cases s with
  | mk config phase stream survey video audio =>
    cases video <;> cases audio <;>
      simp [TrackKind.all, onTrackQuietly, onTrack, Source.track, Source.setTrack]

theorem runPause_moves (h : s.phase = .started) :
    (runPause.run s).2 = { s with
      pendingOp := false, phase := .paused,
      video := s.video.map (fun t => t.pause.1), audio := s.audio.map (fun t => t.pause.1),
      events := s.events ++ (((s.video.map fun t => t.pause.2).getD [] ++
        (s.audio.map fun t => t.pause.2).getD []) ++ [.sourcePaused]) } := by
  simp only [runPause, StateT.run_bind, StateT.run_modify, StateT.run_get, bind_id_eq, pure_id_eq]
  rw [if_pos h]
  simp only [StateT.run_bind, StateT.run_modify, bind_id_eq, pure_id_eq, forM_onTrackQuietly,
    emit_run, List.append_assoc]

theorem runStop_moves (h : s.phase ≠ .shutdown) :
    (runStop.run s).2 = { s with
      pendingOp := false,
      stream := s.stream.map (fun st => { st with position := 0 }), session := s.session.restart,
      video := s.video.map (fun t => t.stop.1), audio := s.audio.map (fun t => t.stop.1),
      rewindPending := true, avcConfig := s.survey.avcConfig, avcConfigSent := false,
      pendingEos := 0, eopSent := false, phase := .stopped,
      events := s.events ++ (((s.video.map fun t => t.stop.2).getD [] ++
        (s.audio.map fun t => t.stop.2).getD []) ++ [.sourceStopped]) } := by
  simp only [runStop, StateT.run_bind, StateT.run_modify, StateT.run_get, bind_id_eq, pure_id_eq]
  rw [if_pos h]
  cases s.stream <;>
    simp only [ByteStream.seek_start, Functor.map, Except.map, StateT.run_bind, StateT.run_set,
      StateT.run_get, StateT.run_modify, bind_id_eq, pure_id_eq, forM_onTrackQuietly, emit_run,
      List.append_assoc, Option.map_none, Option.map_some]

end Controls

end FlvDemux.Engine
