import FlvDemux.Proofs.Sessions

/-! What a run shows of how the demuxer walks its file (`Source.walk`): the tag header each completed
read of the current session parses, and a rewind each time the demuxer comes to a stop, at the
end of the scan or after a stop. `walk_follows_chain` says that this walks the chain of tags of
the file (`Flv.Walks`), whichever order the queued reads and control operations run in. -/

namespace FlvDemux.Engine

open Flv

/-- The tag header a completed read for `step` parses: a whole header, read for a tag header. -/
def ReadStep.sighting (step : ReadStep) (data : List UInt8) (o : Nat) : List Sighting :=
  match step with
  | .tagHeader =>
    if data.length = tagHeaderLength then
      match readTagHeader data (o + tagHeaderLength).toUInt64 with
      | .ok h => [.header o h]
      | .error _ => []
    else []
  | _ => []

section Dispatch

variable {f : List UInt8} {q o n e : Nat} {s : Source}

theorem scan_advances (hf : f.length < Nat.pow 2 64) (hi : Idle f q s) (hph : s.phase = .opening)
    (hr : s.rewindPending = false) (hs : s.skipPrefix = true) (hc : OnChain f e) {step : ReadStep}
    {data : List UInt8} (hfit : step.Fits f o n e) (hdata : data = (f.drop o).take n)
    (hq : o ≤ f.length → q = o + data.length) :
    ∃ e₁, Advances f e (step.sighting data o) e₁ ∧
      (Sound f e₁ ((guarded (scanStep step data o)).run s).2 ∨
        Rewound f ((guarded (scanStep step data o)).run s).2) := by
  cases step with
  | tagHeader =>
    by_cases hlen : data.length = tagHeaderLength
    · obtain ⟨h, hread, he, ht, hpost⟩ := scanStep_tagHeader_full hi hph hr hs hc hf hfit hdata hq hlen
      refine ⟨_, ?_, hpost⟩
      simp only [ReadStep.sighting, hlen, hread, if_true]
      exact .header he ht
    · refine ⟨e, ?_, scanStep_tagHeader_short hi hr hlen⟩
      simp only [ReadStep.sighting, hlen, if_false]
      exact .nil f e
  | fileHeader => exact ⟨e, .nil f e, scanStep_fileHeader hi hph hr hs hc hfit hdata hq⟩
  | scriptPayload tag => exact ⟨e, .nil f e, scanStep_scriptPayload hi hph hr hs hc hfit hdata hq⟩
  | audioHeader tag => exact ⟨e, .nil f e, scanStep_audioHeader hi hph hr hs hc hfit hdata hq⟩
  | aacPacketType p => exact ⟨e, .nil f e, scanStep_aacPacketType hi hph hr hs hc hfit hdata hq⟩
  | audioPayload p => exact ⟨e, .nil f e, scanStep_audioPayload hi hph hr hs hc hfit hdata hq⟩
  | videoHeader tag => exact ⟨e, .nil f e, scanStep_videoHeader hi hph hr hs hc hfit hdata hq⟩
  | avcPacketHeader p => exact ⟨e, .nil f e, scanStep_avcPacketHeader hi hph hr hs hc hfit hdata hq⟩
  | videoPayload p => exact ⟨e, .nil f e, scanStep_videoPayload hi hph hr hs hc hfit hdata hq⟩

theorem stream_advances (hi : Idle f q s) (hph : s.phase = .started ∨ s.phase = .paused)
    (hr : s.rewindPending = false) (hs : s.skipPrefix = true) (hc : OnChain f e) {step : ReadStep}
    {data : List UInt8} (hfit : step.Fits f o n e) (hscan : step.scanOnly = false)
    (hdata : data = (f.drop o).take n) (hq : o ≤ f.length → q = o + data.length)
    (hpast : f.length ≤ o → f.length ≤ q) :
    ∃ e₁, Advances f e (step.sighting data o) e₁ ∧
      Sound f e₁ ((guarded (streamStep step data o)).run s).2 := by
  cases step with
  | tagHeader =>
    by_cases hlen : data.length = tagHeaderLength
    · obtain ⟨h, hread, he, ht, hpost⟩ :=
        streamStep_tagHeader_full hi hph hr hs hc hfit hdata hq hlen
      refine ⟨_, ?_, hpost⟩
      simp only [ReadStep.sighting, hlen, hread, if_true]
      exact .header he ht
    · refine ⟨e, ?_, streamStep_tagHeader_short hi hph hr hs hc hfit hdata hq hpast hlen⟩
      simp only [ReadStep.sighting, hlen, if_false]
      exact .nil f e
  | fileHeader | scriptPayload tag => cases hscan
  | audioHeader tag => exact ⟨e, .nil f e, streamStep_audioHeader hi hph hr hs hc hfit hdata hq⟩
  | aacPacketType p => exact ⟨e, .nil f e, streamStep_aacPacketType hi hph hr hs hc hfit hdata hq⟩
  | audioPayload p => exact ⟨e, .nil f e, streamStep_audioPayload hi hph hr hs hc hfit hdata hq⟩
  | videoHeader tag => exact ⟨e, .nil f e, streamStep_videoHeader hi hph hr hs hc hfit hdata hq⟩
  | avcPacketHeader p =>
    exact ⟨e, .nil f e, streamStep_avcPacketHeader hi hph hr hs hc hfit hdata hq⟩
  | videoPayload p => exact ⟨e, .nil f e, streamStep_videoPayload hi hph hr hs hc hfit hdata hq⟩

end Dispatch

/-- The tag header a queued task parses when it runs: a read of the current session, completed
while opening or streaming. -/
def Source.sightingOf (s : Source) : Task → List Sighting
  | .read t o n =>
    match s.pending, s.stream with
    | some step, some st =>
      if s.session.isCurrent t ∧ (s.phase = .opening ∨ s.phase = .started ∨ s.phase = .paused) then
        match st.read n with
        | .ok (data, _) => step.sighting data o
        | .error _ => []
      else []
    | _, _ => []
  | _ => []

theorem Source.sightingOf_cases (s : Source) (c : Task) : s.sightingOf c = [] ∨
    ∃ (step : ReadStep) (data : List UInt8) (o : Nat), s.sightingOf c = step.sighting data o := by
  cases c with
  | read t o n =>
    cases hp : s.pending with
    | none => exact .inl (by simp [Source.sightingOf, hp])
    | some step =>
      cases hs : s.stream with
      | none => exact .inl (by simp [Source.sightingOf, hp, hs])
      | some st =>
        simp only [Source.sightingOf, hp, hs]
        split_ifs
        · cases st.read n with
          | ok r => exact .inr ⟨_, _, _, rfl⟩
          | error => exact .inl rfl
        · exact .inl rfl
  | _ => exact .inl rfl

/-- The tag header an action parses: the one of the queued task it runs, if any. -/
def Source.parses (s : Source) : Action → List Sighting
  | .run i => (s.tasks[i]?.map s.sightingOf).getD []
  | _ => []

section Reads

variable {f : List UInt8} {e : Nat} {s : Source} {t : UInt64} {o n : Nat} {rest : List Task}

theorem Walking.run_current (hf : f.length < Nat.pow 2 64) (hw : Walking f e s)
    (ht : (.read s.session.word o n :: rest).Perm s.tasks) :
    ∃ e₁, Advances f e (s.sightingOf (.read s.session.word o n)) e₁ ∧
      (Sound f e₁ ((runTask (.read s.session.word o n)).run { s with tasks := rest }).2 ∨
        Rewound f ((runTask (.read s.session.word o n)).run { s with tasks := rest }).2) := by
  obtain ⟨⟨step, hp, hfit, hscan⟩, hpos, hrw, hsk, hph⟩ := hw.current o n (ht.subset List.mem_cons_self)
  have hinv : s.phase ≠ .invalid := by rcases hph with h | h | h <;> simp [h]
  obtain ⟨st, hs, hd⟩ := hw.stream.resolve_left hinv
  have hst : st.position = o := by simpa [Source.position, hs] using hpos
  have hcur : s.session.isCurrent s.session.word = true :=
    (Session.isCurrent_iff _ _).2 ⟨hw.word, rfl⟩
  cases hr : st.read n with
  | error fl =>
    have hsight : s.sightingOf (.read s.session.word o n) = [] := by
      simp [Source.sightingOf, hp, hs, hcur, hph, hr]
    rw [hsight, runTask_read_error (s := { s with tasks := rest }) hs hr,
      resume_error (s := { s with tasks := rest }) hcur hp]
    exact ⟨e, .nil f e, .inl (fail_sound (by exact hw.live) _)⟩
  | ok r =>
    obtain ⟨data, st'⟩ := r
    obtain ⟨hdata, hd', hq, hpast⟩ := ByteStream.read_ok hr
    rw [hd, hst] at hdata
    rw [hd, hst] at hq hpast
    have hsight : s.sightingOf (.read s.session.word o n) = step.sighting data o := by
      simp [Source.sightingOf, hp, hs, hcur, hph, hr]
    have hi := hw.idle_after_read ht hinv (hd'.trans hd)
    rw [hsight, runTask_read_ok (s := { s with tasks := rest }) hs hr]
    rcases hph with hph | hph
    · rw [resume_scan (s := { s with tasks := rest, stream := some st' }) hcur hp hph]
      exact scan_advances hf hi hph hrw hsk hw.chain hfit hdata hq
    · rw [resume_stream (s := { s with tasks := rest, stream := some st' }) hcur hp hph]
      obtain ⟨e₁, ha, hpost⟩ := stream_advances hi hph hrw hsk hw.chain hfit
        (hscan (by rcases hph with h | h <;> simp [h])) hdata hq fun h => (hpast h).2
      exact ⟨e₁, ha, .inl hpost⟩

theorem Walking.run_stale (hw : Walking f e s) (ht : (.read t o n :: rest).Perm s.tasks)
    (hne : t ≠ s.session.word) :
    s.sightingOf (.read t o n) = [] ∧
      Sound f e ((runTask (.read t o n)).run { s with tasks := rest }).2 := by
  obtain ⟨-, hph⟩ := hw.stale t o n (ht.subset List.mem_cons_self) hne
  have hinv : s.phase ≠ .invalid := fun h => by
    simp [(hw.invalid h).1] at ht
  obtain ⟨st, hs, hd⟩ := hw.stream.resolve_left hinv
  have hstale : s.session.isCurrent t = false := Session.isCurrent_of_ne hne
  refine ⟨by cases hp : s.pending <;> simp [Source.sightingOf, hs, hp, hstale], ?_⟩
  cases hr : st.read n with
  | error fl =>
    rw [runTask_read_error (s := { s with tasks := rest }) hs hr,
      resume_stale (s := { s with tasks := rest }) hstale]
    exact pump_sound (hw.after_stale ht hne ⟨st, hs, hd⟩)
  | ok r =>
    obtain ⟨data, st'⟩ := r
    rw [runTask_read_ok (s := { s with tasks := rest }) hs hr,
      resume_stale (s := { s with tasks := rest, stream := some st' }) hstale]
    exact pump_sound (hw.after_stale ht hne ⟨st', rfl, (ByteStream.read_ok hr).2.1.trans hd⟩)

end Reads

/-- What an action shows of the walk: the tag header it parses, and a rewind to the first media
tag when the demuxer comes to a stop. -/
def Source.sightings (s : Source) (a : Action) : List Sighting :=
  s.parses a ++
  if s.phase ≠ .stopped ∧ (s.act a).2.phase = .stopped then
    [.rewind (s.act a).2.survey.firstMediaOffset]
  else []

/-- What a run of actions shows of the walk. -/
def Source.walk (s : Source) : List Action → List Sighting
  | [] => []
  | a :: as => s.sightings a ++ (s.act a).2.walk as

section Run

variable {f : List UInt8} {e : Nat} {s : Source}

theorem Walking.stopped_first (hw : Walking f e s) (hph : s.phase = .stopped) :
    e = s.survey.firstMediaOffset := by
  refine ((hw.resting fun o n h => ?_).stopped hph).1
  have := (hw.current o n h).phase
  rcases this with h' | h' | h' <;> simp [hph] at h'

theorem Source.parses_run {i : Nat} {c : Task} (hi : s.tasks[i]? = some c) :
    s.parses (.run i) = s.sightingOf c := by
  simp [Source.parses, hi]

/-- One queued task, whichever it is, run by a walking demuxer: the header it parses moves the
walk on; a stop or the end of the scan may send the demuxer back to its first media tag. The
stop opens a session new to every queued read. -/
theorem Walking.runTask_advances (hf : f.length < Nat.pow 2 64) (hw : Walking f e s) {c : Task}
    {rest : List Task} (ht : (c :: rest).Perm s.tasks)
    (hnew : ∀ t o n, Task.read t o n ∈ s.tasks → t ≠ s.session.restart.word) :
    ∃ e₁, Advances f e (s.sightingOf c) e₁ ∧
      (Sound f e₁ ((runTask c).run { s with tasks := rest }).2 ∨
        s.phase ≠ .stopped ∧ Rewound f ((runTask c).run { s with tasks := rest }).2) := by
  cases c with
  | read t o n =>
    by_cases hcur : t = s.session.word
    · subst hcur
      obtain ⟨e₁, hadv, hpost⟩ := hw.run_current hf ht
      refine ⟨e₁, hadv, hpost.imp_right fun hr => ⟨fun h => ?_, hr⟩⟩
      rcases (hw.current o n (ht.subset List.mem_cons_self)).phase with h' | h' | h' <;>
        simp [h] at h'
    · obtain ⟨hnil, hpost⟩ := hw.run_stale ht hcur
      exact ⟨e, hnil ▸ .nil f e, .inl hpost⟩
  | start selection pos => exact ⟨e, .nil f e, .inl (hw.runTask_start ht)⟩
  | pause => exact ⟨e, .nil f e, .inl (hw.runTask_pause ht)⟩
  | stop =>
    obtain ⟨hrew, hsurvey⟩ := hw.runTask_stop ht hnew
    by_cases hph : s.phase = .stopped
    · refine ⟨e, .nil f e, .inl ?_⟩
      have := hrew.2
      rwa [hsurvey, ← hw.stopped_first hph] at this
    · exact ⟨e, .nil f e, .inr ⟨hph, hrew⟩⟩

theorem Walking.act (hf : f.length < Nat.pow 2 64) (hw : Walking f e s) {a : Action}
    (hnew : ∀ t o n, Task.read t o n ∈ s.tasks → t ≠ s.session.restart.word)
    (ha : ∀ st, a = .open st → st.data = f) :
    ∃ e₁, Advances f e (s.parses a) e₁ ∧
      (Sound f e₁ (s.act a).2 ∨ s.phase ≠ .stopped ∧ Rewound f (s.act a).2) := by
  cases a with
  | «open» st => exact ⟨e, .nil f e, .inl (hw.opens (ha st rfl))⟩
  | start given pos => exact ⟨e, .nil f e, .inl (hw.queues rfl (start_queues given pos s))⟩
  | pause => exact ⟨e, .nil f e, .inl (hw.queues rfl (pause_queues s))⟩
  | stop => exact ⟨e, .nil f e, .inl (hw.queues rfl (stop_queues s))⟩
  | shutdown =>
    refine ⟨e, .nil f e, .inl (.inl ⟨shutdownNow_phase s, ?_⟩)⟩
    show (shutdownNow.run s).2.session.word &&& shutdownBit ≠ 0
    rw [shutdownNow_session hw.live]
    exact s.session.shutdown_bit
  | request k token =>
    refine ⟨e, .nil f e, .inl ?_⟩
    simp only [Source.act]
    rcases requestSample_cases k token s with hr | ⟨s', hq, hr⟩
    · rw [hr]
      exact .inr hw
    · rw [hr]
      exact pump_sound (hw.quiet hq)
  | run i =>
    cases hi : s.tasks[i]? with
    | none =>
      rw [Source.act_run_none hi]
      exact ⟨e, by simp [Source.parses, hi]; exact .nil f e, .inl (.inr hw)⟩
    | some c =>
      obtain ⟨hlt, rfl⟩ := List.getElem?_eq_some_iff.1 hi
      rw [Source.parses_run hi, Source.act_run_some hi]
      exact hw.runTask_advances hf (List.getElem_cons_eraseIdx_perm hlt) hnew

theorem Source.sightings_of_shutdown (hph : s.phase = .shutdown)
    (hw : s.session.word &&& shutdownBit ≠ 0) (a : Action) : s.sightings a = [] := by
  have hpost := (act_of_shutdown hph hw a).1
  have hnone : ∀ c, s.sightingOf c = [] := by
    intro c
    cases c with
    | read t o n =>
      simp only [Source.sightingOf, Session.isCurrent_of_shutdown hw, Bool.false_eq_true, false_and,
        if_false]
      split <;> rfl
    | _ => rfl
  cases a with
  | run i => cases hi : s.tasks[i]? <;> simp [Source.sightings, Source.parses, hpost, hi, hnone]
  | _ => simp [Source.sightings, Source.parses, hpost]

theorem Sound.act (hf : f.length < Nat.pow 2 64) (hs : Sound f e s) {a : Action}
    (hnew : ∀ t o n, Task.read t o n ∈ s.tasks → t ≠ s.session.restart.word)
    (ha : ∀ st, a = .open st → st.data = f) :
    ∃ e', Advances f e (s.sightings a) e' ∧ Sound f e' (s.act a).2 := by
  rcases hs with ⟨hph, hw⟩ | hw
  · rw [Source.sightings_of_shutdown hph hw a]
    have hpost := act_of_shutdown hph hw a
    exact ⟨e, .nil f e, .inl ⟨hpost.1, hpost.2 ▸ hw⟩⟩
  obtain ⟨e₁, hadv, hpost⟩ := hw.act hf hnew ha
  have hwalk : ∀ {e'}, Sound f e' (s.act a).2 → (s.act a).2.phase = .stopped →
      Walking f e' (s.act a).2 := by
    intro e' h hst
    rcases h with ⟨h, -⟩ | h
    · simp [hst] at h
    · exact h
  unfold Source.sightings
  by_cases hrw : s.phase ≠ .stopped ∧ (s.act a).2.phase = .stopped
  · rw [if_pos hrw]
    have hfirst : Sound f (s.act a).2.survey.firstMediaOffset (s.act a).2 := by
      rcases hpost with h | ⟨-, -, h⟩
      · rwa [(hwalk h hrw.2).stopped_first hrw.2] at h
      · exact h
    exact ⟨_, hadv.trans (.rewind (hwalk hfirst hrw.2).first), hfirst⟩
  · rw [if_neg hrw, List.append_nil]
    refine ⟨e₁, hadv, ?_⟩
    rcases hpost with h | ⟨hne, hst, -⟩
    · exact h
    · exact absurd ⟨hne, hst⟩ hrw

theorem Sound.walk (hf : f.length < Nat.pow 2 64) (hs : Sound f e s) (hb : s.Orderly)
    (as : List Action) (hy : s.Young as.length) (hopen : ∀ st, Action.open st ∈ as → st.data = f) :
    Walks f e (s.walk as) := by
  induction as generalizing s e with
  | nil => trivial
  | cons a as ih =>
    obtain ⟨e', hadv, hs'⟩ := hs.act hf (fun t o n hm => hy.fresh hm)
      fun st h => hopen st (h ▸ List.mem_cons_self)
    exact hadv _ (ih hs' (hb.act a) (hy.act hb.toBooked a)
      fun st h => hopen st (List.mem_cons_of_mem _ h))

theorem create_sound (config : SourceConfig) (f : List UInt8) :
    Sound f (fileHeaderLength + previousTagSizeLength) (Source.create config) := by
  refine .inr ⟨by simp [Source.create], by simp [Source.create], by simp [Source.create],
    by simp [Source.create], by simp [Source.create], .inl rfl, fun _ => ⟨rfl, rfl, rfl, rfl, rfl⟩,
    fun h => by simp [Source.create] at h, onChain_first f, onChain_first f, fun o n h => ?_,
    fun t o n h => ?_, fun _ => ⟨by simp [Source.create], fun h => by simp [Source.create] at h,
      fun h => absurd rfl h⟩⟩ <;> simp [Source.create] at h

/-- Whatever the client does and in whichever order the queued reads and control operations
run, over fewer than `2 ^ 63` actions, the tag headers a demuxer parses walk the chain of tags of
its file from the first tag, and each stop, like the end of the scan, sends the walk back to the
first media tag, itself a tag of the chain. -/
theorem walk_follows_chain (config : SourceConfig) (f : List UInt8) (as : List Action)
    (hf : f.length < Nat.pow 2 64) (hlen : as.length < Nat.pow 2 63)
    (hopen : ∀ st, Action.open st ∈ as → st.data = f) :
    Walks f (fileHeaderLength + previousTagSizeLength) ((Source.create config).walk as) :=
  (create_sound config f).walk hf (Source.orderly_create config) as
    (Source.young_create config hlen) hopen

/-- The file of one tag opened, its scan run, started, the start run, asked to stop, and the
stop run ahead of the read that is out, which then completes stale. -/
theorem walk_follows_chain_overtaken :
    let opened := (Source.create {}).actAll [.open { data := oneTagFile }, .run 0, .run 0, .run 0]
    let as : List Action := [.open { data := oneTagFile }, .run 0, .run 0, .run 0,
      .start (opened.presentation.getD {}) .current, .run 0, .stop, .run 1, .run 0]
    oneTagFile.length < Nat.pow 2 64 ∧ as.length < Nat.pow 2 63 ∧
      (∀ st, Action.open st ∈ as → st.data = oneTagFile) ∧
      Walks oneTagFile (fileHeaderLength + previousTagSizeLength) ((Source.create {}).walk as) := by
  intro opened as
  have hf : oneTagFile.length < Nat.pow 2 64 := by decide
  have hlen : as.length < Nat.pow 2 63 := by decide
  have hopen : ∀ st, Action.open st ∈ as → st.data = oneTagFile := by
    intro st hm
    simp only [as, List.mem_cons, Action.open.injEq, reduceCtorEq, List.not_mem_nil, or_false] at hm
    rw [hm]
  exact ⟨hf, hlen, hopen, walk_follows_chain {} oneTagFile as hf hlen hopen⟩

end Run

end FlvDemux.Engine
