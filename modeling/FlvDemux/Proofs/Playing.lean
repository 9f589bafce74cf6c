import FlvDemux.Proofs.Playback
import FlvDemux.Proofs.Discovery

/-!
# Playing the file one read at a time

A streaming demuxer keeps `Source.Plays` from one completed read to the next: moves that touch
nothing the books read, a failure, reading on (`Source.Plays.pump`), a track operation, and one
case for each piece of a tag, whose bytes give each track what the tag gives it
(`Flv.tagSample`).
-/

namespace FlvDemux.Engine

open Flv

/-- `y` is `s` with nothing changed that the books of the playing read: the tracks, the log, the
phase, the survey and the AVC configuration with its flag; and no start queued that `s` had not
queued. What positioning the stream and issuing or taking a read do. -/
structure Source.Untouched (s y : Source) : Prop where
  video : y.video = s.video
  audio : y.audio = s.audio
  events : y.events = s.events
  phase : y.phase = s.phase
  survey : y.survey = s.survey
  avcConfig : y.avcConfig = s.avcConfig
  sent : y.avcConfigSent = s.avcConfigSent
  starts : ∀ sel pos, Task.start sel pos ∈ y.tasks → Task.start sel pos ∈ s.tasks

namespace Source.Untouched

variable {s x y : Source}

theorem refl (s : Source) : s.Untouched s :=
  ⟨rfl, rfl, rfl, rfl, rfl, rfl, rfl, fun _ _ h => h⟩

theorem trans (h : s.Untouched x) (h' : x.Untouched y) : s.Untouched y :=
  ⟨h'.video.trans h.video, h'.audio.trans h.audio, h'.events.trans h.events,
    h'.phase.trans h.phase, h'.survey.trans h.survey, h'.avcConfig.trans h.avcConfig,
    h'.sent.trans h.sent, fun sel pos hm => h.starts sel pos (h'.starts sel pos hm)⟩

theorem track (h : s.Untouched y) (k : TrackKind) : y.track k = s.track k := by
  cases k
  · exact h.video
  · exact h.audio

theorem isActive (h : s.Untouched y) (k : TrackKind) : y.isActive k = s.isActive k := by
  simp [Source.isActive, h.track k]

end Source.Untouched

section Frame

variable {f : List UInt8} {v : Survey} {S : List TrackKind} {U : List Exchange}
  {tags : List (Nat × TagHeader)} {b e : Nat} {s y : Source}

theorem Source.Holds.untouched (h : s.Holds f v S U tags b) (hu : s.Untouched y) :
    y.Holds f v S U tags b :=
  h.retrack (fun k => by rw [hu.track k]) hu.survey hu.phase hu.starts h.chain
    (fun k => (h.books k).frame (hu.track k) rfl rfl fun _ => rfl) (fun hp => h.fresh (hu.phase ▸ hp))

theorem Source.Configured.untouched (h : s.Configured f v tags) (hu : s.Untouched y) :
    y.Configured f v tags := by
  refine ⟨fun ha => ?_, fun hp => ?_⟩
  · rw [hu.avcConfig, hu.sent]
    exact h.1 (by rwa [← hu.isActive])
  · rw [hu.avcConfig, hu.sent]
    exact h.2 (by rwa [← hu.phase])

theorem Source.Holds.reconfigure (h : s.Holds f v S U tags b) (c : Option Avc.Config)
    (sent : Bool) : { s with avcConfig := c, avcConfigSent := sent }.Holds f v S U tags b :=
  h.retrack (fun k => by cases k <;> rfl) rfl rfl (fun _ _ hm => hm) h.chain
    (fun k => (h.books k).frame (by cases k <;> rfl) rfl rfl fun _ => rfl) h.fresh

theorem Source.Holds.between (h : s.Holds f v S U tags b) (hc : s.Configured f v tags)
    (hp : s.pending = none) : s.Plays f v S b U tags b :=
  { h with
    config := hc
    place := .between rfl fun step hw => by
      have hw' := hw.2
      rw [hp] at hw'
      cases hw' }

end Frame

section Quiet

variable {f : List UInt8} {v : Survey} {U : List Exchange} {M : List Event}

theorem Conforms.told (h : Conforms f v U) (hM : served M = []) : Conforms f v (U ++ M.map .told) := by
  intro k
  rw [answers_append, answers_told_of_served hM, asked_append, asked_told, List.append_nil,
    List.append_nil]
  exact h k

theorem Event.isStop_of_steady {e : Event} {M : List Event} (hM : Steady M) (he : e ∈ M) :
    e.isStop = false := by
  have := hM e he
  cases e <;> simp_all [Event.isStop, Event.isControl]

end Quiet

section PlaysOn

variable {f : List UInt8} {v : Survey} {S : List TrackKind} {U : List Exchange}
  {tags : List (Nat × TagHeader)} {b e : Nat} {L M : List Event} {x y : Source}

theorem Source.Plays.playsOn (h : y.Plays f v S e U tags b) : y.PlaysOn f v S e U y.events :=
  ⟨[], by simp, by simp, .inr ⟨tags, b, by simpa using h⟩⟩

theorem Source.PlaysOn.after (h : y.PlaysOn f v S e (U ++ M.map .told) (L ++ M))
    (hM : ∀ x ∈ M, x.isStop = false) : y.PlaysOn f v S e U L := by
  obtain ⟨N, hy, hN, hpost⟩ := h
  refine ⟨M ++ N, by rw [hy, List.append_assoc], ?_, ?_⟩
  · intro x hx
    rcases List.mem_append.1 hx with hx | hx
    · exact hM x hx
    · exact hN x hx
  · simpa only [List.map_append, List.append_assoc] using hpost

theorem Source.Holds.fail (h : x.Holds f v S U tags b) (err : SourceError) :
    ((fail err).run x).2.PlaysOn f v S e U x.events := by
  have hc := h.conforms
  rcases fail_events err (s := x) with hev | hev
  · exact ⟨[], by simp [hev], by simp, .inl ⟨fail_phase err x, by simpa using hc⟩⟩
  · refine ⟨[.error err], hev, by simp [Event.isStop], .inl ⟨fail_phase err x, ?_⟩⟩
    exact hc.told rfl

end PlaysOn

theorem issueRead_outcome (step : ReadStep) (target : Option SeekTarget) (n : Nat) (s : Source) :
    (∃ err, Step.exec (issueRead step target n) s = (.error err, s)) ∨ ∃ st o,
      Step.exec (issueRead step target n) s = (.ok (), { s with
        stream := st, readInFlight := true, pending := some step,
        tasks := s.tasks ++ [.read s.session.ticket o n] }) := by
  rcases h : Step.exec (issueRead step target n) s with ⟨r, y⟩
  cases r with
  | error err => exact .inl ⟨err, by rw [issueRead_error h]⟩
  | ok u =>
    right
    cases target with
    | none =>
      cases hs : s.stream with
      | none => simp [issueRead, Step.exec_bind, Step.exec_get, hs] at h
      | some st =>
        rw [issueRead_none hs] at h
        cases h
        exact ⟨s.stream, st.position, rfl⟩
    | some t =>
      cases hs : s.stream with
      | none => simp [issueRead, Step.exec_bind, seekStream_exec, hs] at h
      | some st =>
        cases hk : st.seek t with
        | error fl => simp [issueRead_seek_error hs hk] at h
        | ok r =>
          rw [issueRead_some hs hk] at h
          cases h
          exact ⟨some r.2, r.2.position, rfl⟩

section Issue

variable {f : List UInt8} {v : Survey} {S : List TrackKind} {U : List Exchange}
  {tags : List (Nat × TagHeader)} {b e : Nat} {x : Source}

theorem Source.Holds.issue (h : x.Holds f v S U tags b) (hc : x.Configured f v tags)
    (hword : x.session.word &&& shutdownBit = 0) {step : ReadStep}
    (hplace : ∀ y : Source, y.pending = some step → y.Awaits step → y.readInFlight = true →
      y.Place f e b) (target : Option SeekTarget) (n : Nat) :
    ((guarded (issueRead step target n)).run x).2.PlaysOn f v S e U x.events := by
  rcases issueRead_outcome step target n x with ⟨err, herr⟩ | ⟨st, o, hok⟩
  · rw [guarded_error herr]
    exact h.fail err
  · rw [guarded_ok hok]
    have hu : x.Untouched { x with
        stream := st, readInFlight := true, pending := some step,
        tasks := x.tasks ++ [.read x.session.ticket o n] } :=
      ⟨rfl, rfl, rfl, rfl, rfl, rfl, rfl, fun sel pos hm => by simpa using hm⟩
    have hw : ({ x with
        stream := st, readInFlight := true, pending := some step,
        tasks := x.tasks ++ [.read x.session.ticket o n] } : Source).Awaits step :=
      ⟨⟨x.session.ticket, o, n, by simp, (Session.isCurrent_iff _ _).2 ⟨hword, rfl⟩⟩, rfl⟩
    exact Source.Plays.playsOn
      { h.untouched hu with config := hc.untouched hu, place := hplace _ rfl hw rfl }

theorem Source.Plays.pump (h : x.Plays f v S e U tags b)
    (hword : x.session.word &&& shutdownBit = 0) : (pump.run x).2.PlaysOn f v S e U x.events := by
  simp only [Engine.pump, StateT.run_bind, StateT.run_get, bind_id_eq, pure_id_eq]
  split
  · rename_i hgo
    simp only [Bool.and_eq_true, Bool.or_eq_true, decide_eq_true_eq, Bool.not_eq_true'] at hgo
    obtain ⟨⟨-, hidle⟩, hwants⟩ := hgo
    have hb : b = e := by
      cases h.place with
      | between hb _ => exact hb
      | inTag _ hread => simp [hread] at hidle
      | ended _ _ hend => simp [Source.wantsData_of_ended hend] at hwants
    rw [guarded_run, readNextTag_exec, ← guarded_run]
    have hu : x.Untouched { x with rewindPending := false, skipPrefix := true } :=
      ⟨rfl, rfl, rfl, rfl, rfl, rfl, rfl, fun _ _ hm => hm⟩
    refine (h.toHolds.untouched hu).issue (h.config.untouched hu) hword
      (fun y hp _ _ => .between hb fun step hw => ?_) _ _
    have hw' := hw.2
    rw [hp] at hw'
    exact (Option.some.inj hw').symm
  · exact h.playsOn

end Issue

theorem Track.moves_deliver_any (t : Track) (x : Sample) :
    t.Moves (t.deliver x).1 (t.deliver x).2.1 (if t.active then [x] else []) [] := by
  cases ha : t.active
  · have hd : t.deliver x = (t, [], .none) := by simp [Track.deliver, ha]
    rw [hd]
    exact ⟨OfKind.nil, rfl, by simp, by simp⟩
  · simpa using t.moves_deliver ha

section Operations

variable {f : List UInt8} {v : Survey} {S : List TrackKind} {U : List Exchange}
  {tags tags' : List (Nat × TagHeader)} {b b' : Nat} {x y : Source}

theorem Source.Holds.replay (h : x.Holds f v S U tags b)
    (hchain : ChainFrom f v.firstMediaOffset tags' b')
    (hG : ∀ k, x.isActive k = true → (played f v k tags').1 = (played f v k tags).1)
    (hfresh : x.phase = .stopped → tags' = []) : x.Holds f v S U tags' b' :=
  h.retrack (fun _ => rfl) rfl rfl (fun _ _ hm => hm) hchain
    (fun k => (h.books k).frame rfl rfl rfl (hG k)) hfresh

theorem Source.Holds.told (h : x.Holds f v S U tags b) {M : List Event} (hM : served M = [])
    (ht : ∀ k, y.track k = x.track k) (hsv : y.survey = x.survey) (hph : y.phase = x.phase)
    (htasks : y.tasks = x.tasks) : y.Holds f v S (U ++ M.map .told) tags b :=
  h.retrack (fun k => by rw [ht k]) hsv hph (fun _ _ hm => htasks ▸ hm) h.chain
    (fun k => (h.books k).told (ht k) hM) (fun hp => h.fresh (hph ▸ hp))

theorem Source.Holds.onTrack (h : x.Holds f v S U tags b) {j : TrackKind} {t t' : Track}
    {M : List Event} {xs : List Sample} {rs : List (Option UInt64)} (ht : x.track j = some t)
    (hm : t.Moves t' M xs rs) (hkind : t'.kind = t.kind) (hx : t.active = false → xs = [])
    (hchain : ChainFrom f v.firstMediaOffset tags' b')
    (hG : ∀ k, x.isActive k = true →
      (played f v k tags').1 = (played f v k tags).1 ++ if k = j then xs else [])
    (hfresh : x.phase = .stopped → tags' = []) :
    ({ x.setTrack j t' with events := x.events ++ M } : Source).Holds f v S
      (U ++ rs.map (.asked j) ++ M.map .told) tags' b' := by
  refine h.retrack (fun k => ?_) ?_ ?_ ?_ hchain
    (fun k => (h.books k).onTrack ht (h.kinds j t ht) hm hx (hG k)) ?_
  · rw [Source.track_setTrack_events]
    split
    · subst k
      simp [ht, hkind, hm.active]
    · rfl
  · cases j <;> rfl
  · cases j <;> rfl
  · intro sel pos hm'
    cases j <;> exact hm'
  · intro hp
    exact hfresh (by cases j <;> exact hp)

theorem Source.Holds.signal (h : x.Holds f v S U tags b) (sig : Signal) :
    ∃ M, ((onSignal sig).run x).2.events = x.events ++ M ∧ (∀ e ∈ M, e.isStop = false) ∧
      ((onSignal sig).run x).2.Holds f v S (U ++ M.map .told) tags b := by
  have hq := onSignal_quiet sig x
  have hkeep : ∀ {M : List Event}, served M = [] →
      ((onSignal sig).run x).2.Holds f v S (U ++ M.map .told) tags b :=
    fun hM => h.told hM (onSignal_track x sig) hq.survey hq.phase hq.tasks
  rcases onSignal_events x sig with hev | hev
  · exact ⟨[], by simp [hev], by simp, by simpa using hkeep (M := []) rfl⟩
  · exact ⟨[.endOfPresentation], hev, by simp [Event.isStop], hkeep rfl⟩

theorem onSignal_keeps (sig : Signal) (x : Source) :
    ((onSignal sig).run x).2.avcConfig = x.avcConfig ∧
      ((onSignal sig).run x).2.avcConfigSent = x.avcConfigSent := by
  simp only [onSignal, StateT.run_modify, pure_id_eq]
  split_ifs <;> exact ⟨rfl, rfl⟩

theorem deliver_keeps (k : TrackKind) (smp : Sample) (x : Source) :
    (∀ j, ((deliver k smp).run x).2.isActive j = x.isActive j) ∧
      ((deliver k smp).run x).2.avcConfig = x.avcConfig ∧
      ((deliver k smp).run x).2.avcConfigSent = x.avcConfigSent ∧
      ((deliver k smp).run x).2.phase = x.phase := by
  simp only [deliver, StateT.run_bind, bind_id_eq]
  cases ht : x.track k with
  | none =>
    rw [onTrack_none ht, onSignal_other (by intro h; cases h)]
    exact ⟨fun _ => rfl, rfl, rfl, rfl⟩
  | some t =>
    rw [onTrack_some ht]
    obtain ⟨hc, hs⟩ := onSignal_keeps (t.deliver smp).2.2
      { x.setTrack k (t.deliver smp).1 with events := x.events ++ (t.deliver smp).2.1 }
    refine ⟨fun j => ?_, by rw [hc]; cases k <;> rfl, by rw [hs]; cases k <;> rfl,
      by simp [(onSignal_quiet _ _).phase]⟩
    simp only [Source.isActive, onSignal_track, Source.track_setTrack_events]
    split
    · subst j
      simp [ht, (t.deliver_reports smp).2.2]
    · rfl

theorem Source.Holds.deliver (h : x.Holds f v S U tags b) (k : TrackKind) (smp : Sample)
    (hchain : ChainFrom f v.firstMediaOffset tags' b')
    (hG : ∀ j, x.isActive j = true →
      (played f v j tags').1 = (played f v j tags).1 ++ if j = k then [smp] else [])
    (hfresh : x.phase = .stopped → tags' = []) :
    ∃ M, ((deliver k smp).run x).2.events = x.events ++ M ∧ (∀ e ∈ M, e.isStop = false) ∧
      ((deliver k smp).run x).2.Holds f v S (U ++ M.map .told) tags' b' := by
  simp only [Engine.deliver, StateT.run_bind, bind_id_eq]
  cases ht : x.track k with
  | none =>
    rw [onTrack_none ht, onSignal_other (by intro h; cases h)]
    have hG' : ∀ j, x.isActive j = true → (played f v j tags').1 = (played f v j tags).1 := by
      intro j hj
      rw [hG j hj]
      have hjk : j ≠ k := by
        rintro rfl
        simp [Source.isActive, ht] at hj
      simp [hjk]
    exact ⟨[], by simp, by simp, by simpa using h.replay hchain hG' hfresh⟩
  | some t =>
    rw [onTrack_some ht]
    have hact : x.isActive k = t.active := by simp [Source.isActive, ht]
    have h1 := h.onTrack ht (t.moves_deliver_any smp) (t.deliver_reports smp).2.1
      (fun ha => by simp [ha]) hchain (fun j hj => by
        rw [hG j hj]
        by_cases hjk : j = k
        · subst j
          simp [← hact, hj]
        · simp [hjk]) hfresh
    obtain ⟨M, hev, hstop, h2⟩ := h1.signal (t.deliver smp).2.2
    refine ⟨(t.deliver smp).2.1 ++ M, by rw [hev, List.append_assoc], fun e he => ?_, ?_⟩
    · rcases List.mem_append.1 he with he | he
      · exact Event.isStop_of_steady (t.deliver_reports smp).1.1 he
      · exact hstop e he
    · simpa [List.map_append, List.append_assoc] using h2

theorem Source.Holds.endTrack (h : x.Holds f v S U tags b) (k : TrackKind) :
    ∃ M, (x.endTrack k).events = x.events ++ M ∧ (∀ e ∈ M, e.isStop = false) ∧
      (x.endTrack k).Holds f v S (U ++ M.map .told) tags b := by
  rcases Source.endTrack_cases (s := x) k with ⟨-, hrun⟩ | ⟨t, ht, -, hrun⟩
  · rw [hrun]
    exact ⟨[], by simp, by simp, by simpa using h⟩
  · rw [hrun]
    have h1 := h.onTrack ht t.moves_markEnd (by simp [Track.markEnd]) (fun _ => rfl) h.chain
      (fun j _ => by simp) h.fresh
    obtain ⟨M, hev, hstop, h2⟩ := h1.signal t.markEnd.2.2
    refine ⟨t.markEnd.2.1 ++ M, by rw [hev, List.append_assoc], fun e he => ?_, ?_⟩
    · rcases List.mem_append.1 he with he | he
      · exact Event.isStop_of_steady (Track.dispatch_ofKind _).1 he
      · exact hstop e he
    · simpa [List.map_append, List.append_assoc] using h2

end Operations

section Config

variable {f : List UInt8} {v : Survey} {tags tags' : List (Nat × TagHeader)} {x y : Source}

theorem Source.Configured.congr (h : x.Configured f v tags)
    (hact : y.isActive .video = x.isActive .video) (hcfg : y.avcConfig = x.avcConfig)
    (hsent : y.avcConfigSent = x.avcConfigSent) (hph : y.phase = x.phase) :
    y.Configured f v tags := by
  refine ⟨fun ha => ?_, fun hp => ?_⟩
  · rw [hcfg, hsent]
    exact h.1 (hact ▸ ha)
  · rw [hcfg, hsent]
    exact h.2 (hph ▸ hp)

theorem Source.Configured.replay (h : x.Configured f v tags)
    (hv : x.isActive .video = true → (played f v .video tags').2 = (played f v .video tags).2) :
    x.Configured f v tags' :=
  ⟨fun ha => (h.1 ha).trans (hv ha).symm, h.2⟩

end Config

section Reference

variable {f : List UInt8} {b : Nat} {h : TagHeader}

theorem readAudioHeader_aacPacketType {tag : TagHeader} {data : List UInt8} {p : AudioPacket}
    (hp : readAudioHeader tag data = .ok p) : p.aacPacketType = none := by
  simp only [readAudioHeader, bind, Except.bind] at hp
  split at hp
  · cases hp
  · simp only [AudioPacket.make] at hp
    split at hp
    · cases hp
    · cases hp
      rfl

theorem audioPacketAt_eq {p : AudioPacket} (hk : h.kind = .audio) (hpos : 0 < h.dataSize.toNat)
    (hp : readAudioHeader h ((f.drop (b + tagHeaderLength)).take 1) = .ok p) :
    audioPacketAt f b h = some p := by
  simp [audioPacketAt, hk, hpos, hp, Except.toOption]

theorem audioPacketAt_tag {p : AudioPacket} (hp : audioPacketAt f b h = some p) : p.tag = h := by
  unfold audioPacketAt at hp
  split at hp
  · cases hr : readAudioHeader h ((f.drop (b + tagHeaderLength)).take 1) with
    | error e => simp [hr, Except.toOption] at hp
    | ok q =>
      simp only [hr, Except.toOption, Option.some.injEq] at hp
      exact hp ▸ (readAudioHeader_ok hr).2.1
  · cases hp

theorem videoPacketAt_eq {p : VideoPacket} (hk : h.kind = .video) (hpos : 0 < h.dataSize.toNat)
    (hp : readVideoHeader h ((f.drop (b + tagHeaderLength)).take 1) = .ok p) :
    videoPacketAt f b h = some p := by
  simp [videoPacketAt, hk, hpos, hp, Except.toOption]

theorem videoPacketAt_tag {p : VideoPacket} (hp : videoPacketAt f b h = some p) : p.tag = h := by
  unfold videoPacketAt at hp
  split at hp
  · cases hr : readVideoHeader h ((f.drop (b + tagHeaderLength)).take 1) with
    | error e => simp [hr, Except.toOption] at hp
    | ok q =>
      simp only [hr, Except.toOption, Option.some.injEq] at hp
      exact hp ▸ (readVideoHeader_ok hr).2.1
  · cases hp

theorem avcPacketAt_eq {p p' : VideoPacket} (hv : videoPacketAt f b h = some p)
    (havc : p.video.isAvc = true)
    (hp : readAvcPacketHeader p ((f.drop (b + tagHeaderLength + 1)).take AvcPacketHeader.length) =
      .ok p') :
    avcPacketAt f b h = some p' := by
  simp [avcPacketAt, hv, havc, hp, Except.toOption]

theorem avcPacketAt_of_other {p : VideoPacket} (hv : videoPacketAt f b h = some p)
    (havc : p.video.isAvc = false) : avcPacketAt f b h = none := by
  simp [avcPacketAt, hv, havc]

theorem avcPacketAt_tag {p : VideoPacket} (hp : avcPacketAt f b h = some p) : p.tag = h := by
  unfold avcPacketAt at hp
  obtain ⟨q, hq, hp⟩ := Option.bind_eq_some_iff.1 hp
  split at hp
  · cases hr : readAvcPacketHeader q ((f.drop (b + tagHeaderLength + 1)).take
      AvcPacketHeader.length) with
    | error e => simp [hr, Except.toOption] at hp
    | ok q' =>
      simp only [hr, Except.toOption, Option.some.injEq] at hp
      obtain ⟨-, a, rfl⟩ := readAvcPacketHeader_ok hr
      rw [← hp]
      show q.tag = h
      exact videoPacketAt_tag hq
  · cases hp

theorem audioPacketAt_some {p : AudioPacket} (hp : audioPacketAt f b h = some p) :
    h.kind = .audio ∧ 0 < h.dataSize.toNat := by
  unfold audioPacketAt at hp
  split at hp
  · assumption
  · cases hp

theorem videoPacketAt_some {p : VideoPacket} (hp : videoPacketAt f b h = some p) :
    h.kind = .video ∧ 0 < h.dataSize.toNat := by
  unfold videoPacketAt at hp
  split at hp
  · assumption
  · cases hp

theorem avcPacketAt_some {p : VideoPacket} (hp : avcPacketAt f b h = some p) :
    h.kind = .video ∧ 0 < h.dataSize.toNat := by
  obtain ⟨q, hq, -⟩ := Option.bind_eq_some_iff.1 hp
  exact videoPacketAt_some hq

theorem videoStep_sequenceHeader {p : VideoPacket} (hp : avcPacketAt f b h = some p)
    (hs : p.packetType = some .sequenceHeader) {cfg : Avc.Config}
    (hr : readAvcConfig ((f.drop (b + tagHeaderLength + p.subHeaderLength)).take p.payloadLength) =
      .ok cfg) (c : AvcState) :
    videoStep f b h c = (none, if c.config = some cfg then c else ⟨some cfg, false⟩) := by
  simp only [videoStep, hp, hs, if_true, hr]

theorem videoStep_nalu_unconfigured {p : VideoPacket} (hp : avcPacketAt f b h = some p)
    (hn : p.packetType = some .nalu) {c : AvcState} (hc : c.config = none) :
    videoStep f b h c = (none, c) := by
  simp only [videoStep, hp, hn, Option.some.injEq, reduceCtorEq, if_false, if_true, hc]

theorem videoStep_nalu {p : VideoPacket} (hp : avcPacketAt f b h = some p)
    (hn : p.packetType = some .nalu) {c : AvcState} {cfg : Avc.Config} (hc : c.config = some cfg)
    {units : List UInt8}
    (hu : readNalUnits cfg ((f.drop (b + tagHeaderLength + p.subHeaderLength)).take
      p.payloadLength) = .ok units) :
    videoStep f b h c = (some (pictureOf h p cfg c.sent units), ⟨some cfg, true⟩) := by
  simp only [videoStep, hp, hn, Option.some.injEq, reduceCtorEq, if_false, if_true, hc, hu]

theorem tagSample_other_kind {j k : TrackKind} (hk : h.kind = k.tagKind) (hjk : j ≠ k)
    (c : AvcState) : tagSample f b h j c = (none, c) :=
  tagSample_of_kind (by cases j <;> cases k <;> simp_all [TrackKind.tagKind])

theorem audioSampleAt_eq {p : AudioPacket}
    (hp : audioPacketAt f b h = some { p with aacPacketType := none }) :
    audioSampleAt f b h = some
      { buffers := [(f.drop (b + tagHeaderLength + p.subHeaderLength)).take p.payloadLength]
        timestampHns := p.tag.timestampHns } := by
  have htag : p.tag = h := (audioPacketAt_tag hp :)
  simp [audioSampleAt, hp, AudioPacket.subHeaderLength, AudioPacket.payloadLength, htag]

end Reference

theorem skipBytes_outcome (n : Nat) (x : Source) :
    (∃ err, Step.exec (skipBytes n) x = (.error err, x)) ∨
      ∃ st, Step.exec (skipBytes n) x = (.ok (), { x with stream := some st }) := by
  simp only [skipBytes, seekStream_exec]
  cases x.stream with
  | none => exact .inl ⟨_, rfl⟩
  | some st =>
    dsimp only
    cases st.seek (.current n) with
    | error fl => exact .inl ⟨_, rfl⟩
    | ok r => exact .inr ⟨r.2, rfl⟩

theorem replaceAvcConfig_exec {payload : List UInt8} {c : Avc.Config}
    (hr : readAvcConfig payload = .ok c) (x : Source) :
    Step.exec (replaceAvcConfig payload) x = (.ok (), if x.avcConfig = some c then x
      else { x with avcConfig := some c, avcConfigSent := false }) := by
  simp only [replaceAvcConfig, Step.exec_bind, ofFormat_exec, hr]
  rfl

theorem replaceAvcConfig_exec_error {payload : List UInt8} {err : FormatError}
    (hr : readAvcConfig payload = .error err) (x : Source) :
    Step.exec (replaceAvcConfig payload) x = (.error (.format err), x) := by
  simp only [replaceAvcConfig, Step.exec_bind, ofFormat_exec, hr]
  rfl

theorem deliverNalUnits_exec_unconfigured (p : VideoPacket) (payload : List UInt8) {x : Source}
    (hc : x.avcConfig = none) : Step.exec (deliverNalUnits p payload) x = (.ok (), x) := by
  simp only [deliverNalUnits, Step.exec_bind, Step.exec_get, hc]
  rfl

theorem deliverNalUnits_exec (p : VideoPacket) {payload : List UInt8} {x : Source}
    {c : Avc.Config} (hc : x.avcConfig = some c) {units : List UInt8}
    (hu : readNalUnits c payload = .ok units) :
    Step.exec (deliverNalUnits p payload) x = (.ok (), ((deliver .video
      { buffers := (if x.avcConfigSent then [] else c.privateData.toList) ++ [units]
        timestampHns := p.tag.timestampHns
        compositionOffsetHns := p.compositionOffsetHns
        keyFrame := p.video.isKeyFrame }).run { x with avcConfigSent := true }).2) := by
  simp only [deliverNalUnits, Step.exec_bind, Step.exec_get, hc, hu]
  rfl

theorem deliverNalUnits_exec_error (p : VideoPacket) {payload : List UInt8} {x : Source}
    {c : Avc.Config} (hc : x.avcConfig = some c) {err : FormatError}
    (hu : readNalUnits c payload = .error err) :
    Step.exec (deliverNalUnits p payload) x = (.error (.format err), x) := by
  simp only [deliverNalUnits, Step.exec_bind, Step.exec_get, hc, hu]
  rfl

theorem Source.endTrack_keeps (x : Source) (k : TrackKind) :
    (∀ j, (x.endTrack k).isActive j = x.isActive j) ∧ (x.endTrack k).avcConfig = x.avcConfig ∧
      (x.endTrack k).avcConfigSent = x.avcConfigSent ∧ (x.endTrack k).phase = x.phase ∧
      (x.endTrack k).readInFlight = x.readInFlight := by
  rcases Source.endTrack_cases (s := x) k with ⟨-, hrun⟩ | ⟨t, ht, -, hrun⟩
  · rw [hrun]
    exact ⟨fun _ => rfl, rfl, rfl, rfl, rfl⟩
  · rw [hrun]
    have hq := onSignal_quiet t.markEnd.2.2
      { x.setTrack k t.markEnd.1 with events := x.events ++ t.markEnd.2.1 }
    obtain ⟨hc, hs⟩ := onSignal_keeps t.markEnd.2.2
      { x.setTrack k t.markEnd.1 with events := x.events ++ t.markEnd.2.1 }
    refine ⟨fun j => ?_, by rw [hc]; cases k <;> rfl, by rw [hs]; cases k <;> rfl,
      by rw [hq.phase]; cases k <;> rfl, by rw [hq.readInFlight]; cases k <;> rfl⟩
    simp only [Source.isActive, onSignal_track, Source.track_setTrack_events]
    split
    · subst j
      simp [ht, Track.markEnd]
    · rfl

section Passing

variable {f : List UInt8} {v : Survey} {S : List TrackKind} {U : List Exchange}
  {tags : List (Nat × TagHeader)} {b e : Nat} {x : Source}

theorem Source.Holds.pass (h : x.Holds f v S U tags b) (hc : x.Configured f v tags) {t : TagHeader}
    (ht : tagAt f b = some t) (hk : t.isEndOfFile = false)
    (hnone : ∀ k, x.isActive k = true →
      tagSample f b t k (played f v k tags).2 = (none, (played f v k tags).2))
    (hph : x.phase ≠ .stopped) :
    x.Holds f v S U (tags ++ [(b, t)]) (nextTagOffset b t) ∧ x.Configured f v (tags ++ [(b, t)]) :=
  ⟨h.replay (h.chain.snoc ht hk) (fun k hk' => by rw [played_concat_none (hnone k hk')])
      (fun hp => absurd hp hph),
    hc.replay fun hv => by rw [played_concat_none (hnone .video hv)]⟩

theorem Source.Holds.skip_pump (h : x.Holds f v S U tags e) (hc : x.Configured f v tags)
    (hp : x.pending = none) (hword : x.session.word &&& shutdownBit = 0) (n : Nat) :
    ((guarded (do skipBytes n; pump : Step Unit)).run x).2.PlaysOn f v S e U x.events := by
  rcases skipBytes_outcome n x with ⟨err, herr⟩ | ⟨st, hok⟩
  · rw [guarded_bind_pump_error herr]
    exact h.fail err
  · rw [guarded_bind_pump hok]
    have hu : x.Untouched { x with stream := some st } :=
      ⟨rfl, rfl, rfl, rfl, rfl, rfl, rfl, fun _ _ hm => hm⟩
    exact ((h.untouched hu).between (hc.untouched hu) hp).pump hword

theorem Source.Holds.endOfFile (h : x.Holds f v S U tags b) (hc : x.Configured f v tags)
    (hph : x.phase = .started ∨ x.phase = .paused) (hread : x.readInFlight = false) :
    ((x.endTrack .video).endTrack .audio).PlaysOn f v S e U x.events := by
  obtain ⟨M₁, hev₁, hs₁, h₁⟩ := h.endTrack .video
  obtain ⟨M₂, hev₂, hs₂, h₂⟩ := h₁.endTrack .audio
  obtain ⟨hact₁, hcfg₁, hsent₁, hph₁, hread₁⟩ := x.endTrack_keeps .video
  obtain ⟨hact₂, hcfg₂, hsent₂, hph₂, hread₂⟩ := (x.endTrack .video).endTrack_keeps .audio
  have hend : ∀ k t, ((x.endTrack .video).endTrack .audio).track k = some t → t.active = true →
      t.endOfStream = true := by
    intro k t ht ha
    cases k with
    | video =>
      rw [Source.endTrack_other (x.endTrack .video) .audio (by decide)] at ht
      exact Source.endTrack_ended _ _ t ht ha
    | audio => exact Source.endTrack_ended _ _ t ht ha
  refine ⟨M₁ ++ M₂, by rw [hev₂, hev₁, List.append_assoc], fun x hx => ?_, .inr ⟨tags, b, ?_⟩⟩
  · rcases List.mem_append.1 hx with hx | hx
    · exact hs₁ x hx
    · exact hs₂ x hx
  · refine { (by simpa [List.map_append, List.append_assoc] using h₂ : Source.Holds _ _ _ _ _ _ _) with
      config := (hc.congr (hact₁ .video) hcfg₁ hsent₁ hph₁).congr (hact₂ .video) hcfg₂ hsent₂ hph₂
      place := .ended (by rw [hph₂, hph₁]; exact hph) (by rw [hread₂, hread₁]; exact hread) hend }

end Passing

section Pieces

variable {f : List UInt8} {v : Survey} {S : List TrackKind} {U : List Exchange}
  {tags : List (Nat × TagHeader)} {b e o n : Nat} {s : Source} {data : List UInt8} {h : TagHeader}
variable (hH : s.Holds f v S U tags b) (hC : s.Configured f v tags)
  (hword : s.session.word &&& shutdownBit = 0) (ht : tagAt f b = some h)
  (hk : h.isEndOfFile = false) (he : e = nextTagOffset b h)
include hH hC hword ht hk he

theorem Source.Holds.issue_inTag {step : ReadStep} (hR : step.Reads f b h)
    (target : Option SeekTarget) (m : Nat) :
    ((guarded (issueRead step target m)).run s).2.PlaysOn f v S e U s.events :=
  hH.issue hC hword (fun _ _ hw hread => .inTag hw hread ht hk he hR) target m

theorem Source.Holds.pass_pump (hp : s.pending = none) (hph : s.phase ≠ .stopped)
    (hnone : ∀ k, s.isActive k = true →
      tagSample f b h k (played f v k tags).2 = (none, (played f v k tags).2)) :
    (pump.run s).2.PlaysOn f v S e U s.events := by
  obtain ⟨hH', hC'⟩ := hH.pass hC ht hk hnone hph
  subst he
  exact (hH'.between hC' hp).pump hword

theorem Source.Holds.pass_skip (hp : s.pending = none) (hph : s.phase ≠ .stopped)
    (hnone : ∀ k, s.isActive k = true →
      tagSample f b h k (played f v k tags).2 = (none, (played f v k tags).2)) (m : Nat) :
    ((guarded (do skipBytes m; pump : Step Unit)).run s).2.PlaysOn f v S e U s.events := by
  obtain ⟨hH', hC'⟩ := hH.pass hC ht hk hnone hph
  subst he
  exact hH'.skip_pump hC' hp hword m

theorem Source.Holds.replaceAvcConfig_pump {p : VideoPacket} (hp : s.pending = none)
    (hph : s.phase ≠ .stopped) (hat : avcPacketAt f b h = some p)
    (hs : p.packetType = some .sequenceHeader) :
    ((guarded (do
      replaceAvcConfig ((f.drop (b + tagHeaderLength + p.subHeaderLength)).take p.payloadLength)
      pump : Step Unit)).run s).2.PlaysOn f v S e U s.events := by
  have hkind : h.kind = .video := (avcPacketAt_some hat).1
  cases hr : readAvcConfig ((f.drop (b + tagHeaderLength + p.subHeaderLength)).take
    p.payloadLength) with
  | error err =>
    rw [guarded_bind_pump_error (replaceAvcConfig_exec_error hr s)]
    exact hH.fail _
  | ok cfg =>
    rw [guarded_bind_pump (replaceAvcConfig_exec hr s)]
    have hH' := hH.replay (hH.chain.snoc ht hk) (fun k _ => by
        rw [played_concat]
        cases k with
        | audio => simp [tagSample_other_kind (k := .video) hkind (show TrackKind.audio ≠ .video by decide)]
        | video => simp [tagSample, videoStep_sequenceHeader hat hs hr])
      (fun h0 => absurd h0 hph)
    have hstate : s.isActive .video = true → (played f v .video (tags ++ [(b, h)])).2 =
        if s.avcConfig = some cfg then ⟨s.avcConfig, s.avcConfigSent⟩
        else ⟨some cfg, false⟩ := fun ha => by
      rw [played_concat, ← hC.1 ha]
      simp [tagSample, videoStep_sequenceHeader hat hs hr]
    subst he
    split
    · rename_i hsame
      exact (hH'.between ⟨fun ha => by rw [hstate ha, if_pos hsame], fun h0 => absurd h0 hph⟩
        hp).pump hword
    · rename_i hnew
      exact ((hH'.reconfigure (some cfg) false).between
        ⟨fun ha => by rw [hstate ha, if_neg hnew], fun h0 => absurd h0 hph⟩ hp).pump hword

theorem Source.Holds.deliverNalUnits_pump {p : VideoPacket} (hp : s.pending = none)
    (hph : s.phase ≠ .stopped) (hat : avcPacketAt f b h = some p)
    (hn : p.packetType = some .nalu) :
    ((guarded (do
      deliverNalUnits p ((f.drop (b + tagHeaderLength + p.subHeaderLength)).take p.payloadLength)
      pump : Step Unit)).run s).2.PlaysOn f v S e U s.events := by
  have hkind : h.kind = .video := (avcPacketAt_some hat).1
  have htag : p.tag = h := avcPacketAt_tag hat
  have haudio : ∀ c, tagSample f b h .audio c = (none, c) :=
    tagSample_other_kind (k := .video) hkind (by decide)
  have hstate : s.isActive .video = true →
      (played f v .video tags).2 = ⟨s.avcConfig, s.avcConfigSent⟩ := fun ha => (hC.1 ha).symm
  cases hcfg : s.avcConfig with
  | none =>
    rw [guarded_bind_pump (deliverNalUnits_exec_unconfigured p _ hcfg)]
    refine hH.pass_pump hC hword ht hk he hp hph (fun k hk' => ?_)
    cases k with
    | audio => exact haudio _
    | video =>
      rw [tagSample, hstate hk',
        videoStep_nalu_unconfigured (c := ⟨s.avcConfig, s.avcConfigSent⟩) hat hn hcfg]
  | some cfg =>
    cases hu : readNalUnits cfg ((f.drop (b + tagHeaderLength + p.subHeaderLength)).take
      p.payloadLength) with
    | error err =>
      rw [guarded_bind_pump_error (deliverNalUnits_exec_error p hcfg hu)]
      exact hH.fail _
    | ok units =>
      rw [guarded_bind_pump (deliverNalUnits_exec p hcfg hu), htag, hcfg]
      have hvideo : s.isActive .video = true → tagSample f b h .video (played f v .video tags).2 =
          (some (pictureOf h p cfg s.avcConfigSent units), ⟨some cfg, true⟩) := fun ha => by
        rw [tagSample, hstate ha,
          videoStep_nalu (c := ⟨s.avcConfig, s.avcConfigSent⟩) hat hn hcfg hu]
      have hG : ∀ j, s.isActive j = true → (played f v j (tags ++ [(b, h)])).1 =
          (played f v j tags).1 ++
            if j = .video then [pictureOf h p cfg s.avcConfigSent units] else [] := by
        intro j hj
        rw [played_concat]
        cases j with
        | audio => simp [haudio]
        | video => simp [hvideo hj]
      obtain ⟨M, hev, hstop, hH'⟩ := (hH.reconfigure (some cfg) true).deliver .video
        (pictureOf h p cfg s.avcConfigSent units) (hH.chain.snoc ht hk) hG
        (fun h0 => absurd h0 hph)
      obtain ⟨hact, hcfg', hsent', hph'⟩ := deliver_keeps .video
        (pictureOf h p cfg s.avcConfigSent units) { s with avcConfig := some cfg, avcConfigSent := true }
      have hq := deliver_quiet .video
        (pictureOf h p cfg s.avcConfigSent units) { s with avcConfig := some cfg, avcConfigSent := true }
      have hC' : Source.Configured f v (tags ++ [(b, h)]) ((Engine.deliver .video
          (pictureOf h p cfg s.avcConfigSent units)).run
            { s with avcConfig := some cfg, avcConfigSent := true }).2 := by
        refine ⟨fun ha => ?_, fun h0 => absurd (hph'.symm.trans h0) hph⟩
        rw [hcfg', hsent', played_concat, hvideo ((hact .video).symm.trans ha)]
      have hon := (hH'.between hC' (hq.pending.trans hp)).pump (by rw [hq.session]; exact hword)
      rw [hev] at hon
      subst he
      exact hon.after hstop


theorem Source.Holds.streamTag (hp : s.pending = none) (hph : s.phase ≠ .stopped) :
    ((guarded (Engine.streamTag h)).run s).2.PlaysOn f v S e U s.events := by
  have hpass : (∀ k, s.isActive k = true → ¬(h.kind = k.tagKind ∧ 0 < h.dataSize.toNat)) →
      ((guarded (do skipBytes h.dataSize.toNat; pump : Step Unit)).run s).2.PlaysOn
        f v S e U s.events := fun hnone =>
    hH.pass_skip hC hword ht hk he hp hph (fun k hk' => tagSample_of_kind (hnone k hk')) _
  simp only [Engine.streamTag, hk, Bool.false_eq_true, if_false]
  have hmedia : ∀ k : TrackKind, h.kind = k.tagKind → ((guarded (do
      if h.dataSize > 0 && (← get).isActive k then
        issueRead (if k = .audio then .audioHeader h else .videoHeader h) none 1
      else
        skipBytes h.dataSize.toNat
        pump : Step Unit)).run s).2.PlaysOn f v S e U s.events := by
    intro k hkk
    rw [guarded_get_bind]
    by_cases hcond : (decide (h.dataSize > 0) && s.isActive k) = true
    · rw [if_pos hcond]
      have hpos : 0 < h.dataSize.toNat := by simp at hcond; exact hcond.1
      refine hH.issue_inTag hC hword ht hk he ?_ none 1
      cases k with
      | audio => exact ⟨rfl, hkk, hpos⟩
      | video => exact ⟨rfl, hkk, hpos⟩
    · rw [if_neg hcond]
      refine hpass fun j hj hkind => hcond ?_
      obtain ⟨hkj, hpos⟩ := hkind
      have hjk : j = k := by
        rw [hkj] at hkk
        cases j <;> cases k <;> simp_all [TrackKind.tagKind]
      subst hjk
      simp [hj, UInt32.lt_iff_toNat_lt, hpos]
  have hother : (∀ k : TrackKind, h.kind ≠ k.tagKind) →
      ((guarded (do skipBytes h.dataSize.toNat; pump : Step Unit)).run s).2.PlaysOn
        f v S e U s.events := fun hno => hpass fun k _ hkk => hno k hkk.1
  cases hkind : h.kind
  all_goals simp only
  · exact hmedia .audio hkind
  · exact hmedia .video hkind
  · exact hother (by intro k; cases k <;> simp [TrackKind.tagKind, hkind])
  · simp [TagHeader.isEndOfFile, hkind] at hk
  · exact hother (by intro k; cases k <;> simp [TrackKind.tagKind, hkind])

variable (hdata : data = (f.drop o).take n)
include hdata

theorem Source.Holds.streamStep_audioHeader {t : TagHeader}
    (hR : (ReadStep.audioHeader t).Reads f b h) (hfit : (ReadStep.audioHeader t).Fits f o n e) :
    ((guarded (streamStep (.audioHeader t) data o)).run s).2.PlaysOn f v S e U s.events := by
  obtain ⟨rfl, hkind, hpos⟩ := hR
  obtain ⟨rfl, hin⟩ := hfit
  rw [he] at hin
  obtain ⟨rfl, -, -⟩ := hin.at_tag
  simp only [streamStep]
  rw [guarded_ofFormat_bind]
  cases hr : readAudioHeader t data with
  | error err => exact hH.fail _
  | ok p =>
    have hat : audioPacketAt f b t = some p := audioPacketAt_eq hkind hpos (by
      rw [← hr, hdata, Nat.add_zero])
    have hp0 : { p with aacPacketType := none } = p := by
      rw [← readAudioHeader_aacPacketType hr]
    have hR : audioPacketAt f b t = some { p with aacPacketType := none } := by
      rw [hp0]
      exact hat
    dsimp only
    split_ifs
    · exact hH.issue_inTag hC hword ht hk he (show (ReadStep.aacPacketType p).Reads f b t from hR)
        none 1
    · exact hH.issue_inTag hC hword ht hk he (show (ReadStep.audioPayload p).Reads f b t from hR)
        none _

theorem Source.Holds.streamStep_aacPacketType {p : AudioPacket}
    (hR : (ReadStep.aacPacketType p).Reads f b h) (hfit : (ReadStep.aacPacketType p).Fits f o n e) :
    ((guarded (streamStep (.aacPacketType p) data o)).run s).2.PlaysOn f v S e U s.events := by
  have hR' : audioPacketAt f b h = some { p with aacPacketType := none } := hR
  have htag : p.tag = h := (audioPacketAt_tag hR' :)
  obtain ⟨rfl, -, hin⟩ := hfit
  rw [htag, he] at hin
  obtain ⟨rfl, -, -⟩ := hin.at_tag
  simp only [streamStep]
  rw [guarded_ofFormat_bind]
  cases hr : readAacPacketType p data with
  | error err => exact hH.fail _
  | ok p' =>
    obtain ⟨-, a, rfl⟩ := readAacPacketType_ok hr
    exact hH.issue_inTag hC hword ht hk he
      (show (ReadStep.audioPayload { p with aacPacketType := some a }).Reads f b h from hR') none _

theorem Source.Holds.streamStep_audioPayload {p : AudioPacket} (hp : s.pending = none)
    (hph : s.phase ≠ .stopped)
    (hR : (ReadStep.audioPayload p).Reads f b h) (hfit : (ReadStep.audioPayload p).Fits f o n e) :
    ((guarded (streamStep (.audioPayload p) data o)).run s).2.PlaysOn f v S e U s.events := by
  have hR' : audioPacketAt f b h = some { p with aacPacketType := none } := hR
  have htag : p.tag = h := (audioPacketAt_tag hR' :)
  have hkind : h.kind = .audio := (audioPacketAt_some hR').1
  obtain ⟨rfl, -, hin⟩ := hfit
  rw [htag, he] at hin
  obtain ⟨rfl, -, -⟩ := hin.at_tag
  simp only [streamStep]
  rw [guarded_ofFormat_bind]
  cases hr : readPayload data p.payloadLength with
  | error err => exact hH.fail _
  | ok x =>
    obtain ⟨-, rfl⟩ := readPayload_ok hr
    dsimp only
    rw [guarded_bind_pump (Step.exec_lift _ _)]
    have hG : ∀ j, s.isActive j = true → (played f v j (tags ++ [(b, h)])).1 =
        (played f v j tags).1 ++ if j = .audio then
          [{ buffers := [x], timestampHns := p.tag.timestampHns }] else [] := by
      intro j _
      rw [played_concat]
      cases j with
      | audio => simp [tagSample, audioSampleAt_eq hR', hdata]
      | video => simp [tagSample_of_kind (show ¬(h.kind = TrackKind.video.tagKind ∧ _) by
          simp [hkind, TrackKind.tagKind])]
    obtain ⟨M, hev, hstop, hH'⟩ := hH.deliver .audio _ (hH.chain.snoc ht hk) hG
      (fun h0 => absurd h0 hph)
    obtain ⟨hact, hcfg, hsent, hph'⟩ := deliver_keeps .audio
      { buffers := [x], timestampHns := p.tag.timestampHns } s
    have hC' : s.Configured f v (tags ++ [(b, h)]) := hC.replay fun _ => by
      rw [played_concat, tagSample_of_kind (by simp [hkind, TrackKind.tagKind])]
    have hq := deliver_quiet .audio { buffers := [x], timestampHns := p.tag.timestampHns } s
    have hon := (hH'.between (hC'.congr (hact .video) hcfg hsent hph')
      (hq.pending.trans hp)).pump (by rw [hq.session]; exact hword)
    rw [hev] at hon
    subst he
    exact hon.after hstop

theorem Source.Holds.streamStep_videoHeader {t : TagHeader} (hp : s.pending = none)
    (hph : s.phase ≠ .stopped)
    (hR : (ReadStep.videoHeader t).Reads f b h) (hfit : (ReadStep.videoHeader t).Fits f o n e) :
    ((guarded (streamStep (.videoHeader t) data o)).run s).2.PlaysOn f v S e U s.events := by
  obtain ⟨rfl, hkind, hpos⟩ := hR
  obtain ⟨rfl, hin⟩ := hfit
  rw [he] at hin
  obtain ⟨rfl, -, -⟩ := hin.at_tag
  simp only [streamStep]
  rw [guarded_ofFormat_bind]
  cases hr : readVideoHeader t data with
  | error err => exact hH.fail _
  | ok q =>
    have hat : videoPacketAt f b t = some q := videoPacketAt_eq hkind hpos (by
      rw [← hr, hdata, Nat.add_zero])
    dsimp only
    split
    · exact hH.issue_inTag hC hword ht hk he
        (show (ReadStep.avcPacketHeader q).Reads f b t from hat) none _
    · rename_i havc
      refine hH.pass_skip hC hword ht hk he hp hph (fun k _ => ?_) _
      cases k with
      | audio => exact tagSample_other_kind (k := .video) hkind (by decide) _
      | video => exact videoStep_of_none (avcPacketAt_of_other hat (by simpa using havc))

theorem Source.Holds.streamStep_avcPacketHeader {q : VideoPacket} (hp : s.pending = none)
    (hph : s.phase ≠ .stopped)
    (hR : (ReadStep.avcPacketHeader q).Reads f b h)
    (hfit : (ReadStep.avcPacketHeader q).Fits f o n e) :
    ((guarded (streamStep (.avcPacketHeader q) data o)).run s).2.PlaysOn f v S e U s.events := by
  have hR' : videoPacketAt f b h = some q := hR
  have htag : q.tag = h := videoPacketAt_tag hR'
  have hkind : h.kind = .video := (videoPacketAt_some hR').1
  obtain ⟨rfl, havc, hin⟩ := hfit
  rw [htag, he] at hin
  obtain ⟨rfl, -, -⟩ := hin.at_tag
  simp only [streamStep]
  rw [guarded_ofFormat_bind]
  cases hr : readAvcPacketHeader q data with
  | error err => exact hH.fail _
  | ok q' =>
    have hat : avcPacketAt f b h = some q' := avcPacketAt_eq hR' havc (by rw [← hr, hdata])
    dsimp only
    split
    · rename_i hpt
      exact hH.issue_inTag hC hword ht hk he
        (show (ReadStep.videoPayload q').Reads f b h from ⟨hat, by simpa using hpt⟩) none _
    · rename_i hpt
      refine hH.pass_skip hC hword ht hk he hp hph (fun k _ => ?_) _
      cases k with
      | audio => exact tagSample_other_kind (k := .video) hkind (by decide) _
      | video => exact videoStep_of_other hat (by simpa using hpt)

theorem Source.Holds.streamStep_videoPayload {q : VideoPacket} (hp : s.pending = none)
    (hph : s.phase ≠ .stopped)
    (hR : (ReadStep.videoPayload q).Reads f b h) (hfit : (ReadStep.videoPayload q).Fits f o n e) :
    ((guarded (streamStep (.videoPayload q) data o)).run s).2.PlaysOn f v S e U s.events := by
  obtain ⟨hat, hpt⟩ := hR
  have htag : q.tag = h := avcPacketAt_tag hat
  obtain ⟨rfl, -, hin⟩ := hfit
  rw [htag, he] at hin
  obtain ⟨rfl, -, -⟩ := hin.at_tag
  simp only [streamStep]
  rw [guarded_ofFormat_bind]
  cases hr : readPayload data q.payloadLength with
  | error err => exact hH.fail _
  | ok x =>
    obtain ⟨-, rfl⟩ := readPayload_ok hr
    subst hdata
    dsimp only
    split
    · exact hH.replaceAvcConfig_pump hC hword ht hk he hp hph hat ‹_›
    · exact hH.deliverNalUnits_pump hC hword ht hk he hp hph hat (hpt.resolve_left ‹_›)

end Pieces

section Headers

variable {f : List UInt8} {v : Survey} {S : List TrackKind} {U : List Exchange}
  {tags : List (Nat × TagHeader)} {b e o : Nat} {s : Source} {data : List UInt8}
  (hH : s.Holds f v S U tags b) (hC : s.Configured f v tags)
  (hph : s.phase = .started ∨ s.phase = .paused) (hread : s.readInFlight = false)
include hH hC hph hread

theorem Source.Holds.streamStep_tagHeader_full {h : TagHeader}
    (hword : s.session.word &&& shutdownBit = 0) (hp : s.pending = none)
    (hlen : data.length = tagHeaderLength) (hr : readTagHeader data (b + tagHeaderLength).toUInt64 = .ok h)
    (ht : tagAt f b = some h) :
    ((guarded (streamStep .tagHeader data b)).run s).2.PlaysOn f v S (nextTagOffset b h) U
      s.events := by
  simp only [streamStep]
  rw [guarded_ofFormat_bind, hlen, hr]
  dsimp only
  cases hk : h.isEndOfFile
  · exact hH.streamTag hC hword ht hk rfl hp (by rcases hph with h | h <;> simp [h])
  · rw [guarded_ok (streamTag_endOfFile_exec hk s)]
    exact hH.endOfFile hC hph hread

theorem Source.Holds.streamStep_tagHeader_short (hlen : data.length ≠ tagHeaderLength) :
    ((guarded (streamStep .tagHeader data o)).run s).2.PlaysOn f v S e U s.events := by
  simp only [streamStep]
  rw [guarded_ofFormat_bind]
  cases hr : readTagHeader data (o + data.length).toUInt64 with
  | error err => exact hH.fail _
  | ok h =>
    obtain rfl := (readTagHeader_ok_length hr).resolve_right hlen
    rw [readTagHeader_nil] at hr
    cases hr
    dsimp only
    rw [guarded_ok (streamTag_endOfFile_exec (TagHeader.isEndOfFile_endOfFile _) s)]
    exact hH.endOfFile hC hph hread

end Headers

end FlvDemux.Engine
