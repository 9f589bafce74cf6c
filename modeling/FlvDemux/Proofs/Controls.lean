import FlvDemux.Proofs.Settling

/-!
# How the control operations keep the accounting of ends

A queued start forgets the count of tracks still to end, then starts the tracks one after the
other, counting and announcing each selected one, any of which may report its end at once.
`Starting` is what a demuxer keeps meanwhile; once every track is started it is the accounting
with those ends left to count.
-/

namespace FlvDemux.Engine

open Flv

namespace Track

variable (t : Track)

theorem activate_keeps (on : Bool) :
    (t.activate on).kind = t.kind ∧ (t.activate on).depth = t.depth ∧
      (t.activate on).phase = t.phase ∧ (t.activate on).eosSent = t.eosSent ∧
      (t.activate on).endOfStream = t.endOfStream := by
  unfold activate
  split_ifs <;> exact ⟨rfl, rfl, rfl, rfl, rfl⟩

theorem activate_active (on : Bool) : (t.activate on).active = on := by
  unfold activate
  split_ifs with h <;> simp_all

@[simp] theorem started_kind (pos : StartPosition) : (t.started pos).kind = t.kind := by
  cases pos <;> rfl

@[simp] theorem started_endOfStream (pos : StartPosition) :
    (t.started pos).endOfStream = t.endOfStream := by
  cases pos <;> rfl

theorem started_empty {t : Track} (hs : t.samples = []) (ho : t.overflow = []) (pos : StartPosition) :
    (t.started pos).samples = [] ∧ (t.started pos).overflow = [] := by
  cases pos
  · exact ⟨hs, ho⟩
  · exact ⟨rfl, rfl⟩

theorem started_loads {t : Track} (h : t.Sound) (pos : StartPosition) : t.Loads (t.started pos) := by
  cases pos
  · exact ⟨rfl, rfl, rfl, rfl, id, h.packed, h.idle⟩
  · refine ⟨rfl, rfl, rfl, rfl, id, ⟨by simp [started], by simp [started]⟩, fun ha => ?_⟩
    exact ⟨rfl, rfl, (h.idle ha).2.2⟩

end Track

/-- Starting the track of kind `k` for a start with `sel`: nothing happens when there is no such
track; a track left out is deselected; a selected one is selected, counted as still to end unless
it has reported its end, announced and started, and dispatches. -/
theorem startTrack_cases (sel : List TrackKind) (pos : StartPosition) (k : TrackKind)
    (s : Source) :
    (s.track k = none ∧ (startTrack sel pos k).run s = (none, s)) ∨
    (∃ t, s.track k = some t ∧ k ∉ sel ∧ ∃ b : Bool, (startTrack sel pos k).run s =
      (none, { s.setTrack k (t.activate false) with avcConfigSent := b })) ∨
    (∃ t, s.track k = some t ∧ k ∈ sel ∧ (startTrack sel pos k).run s =
      (some ((t.activate true).started pos).dispatch.2.2,
        let x : Source := { s.setTrack k (t.activate true) with
          pendingEos := s.pendingEos + (if t.eosSent then 0 else 1),
          events := s.events ++
            [if t.active then .updatedStream k else .newStream k, .streamStarted t.kind] }
        { x.setTrack k ((t.activate true).started pos).dispatch.1 with
          events := x.events ++ ((t.activate true).started pos).dispatch.2.1 })) := by
  simp only [startTrack, StateT.run_bind, StateT.run_get, bind_id_eq, pure_id_eq]
  cases ht : s.track k with
  | none => exact .inl ⟨rfl, rfl⟩
  | some t =>
    right
    dsimp only
    by_cases hk : k ∈ sel
    · right
      refine ⟨t, rfl, hk, ?_⟩
      have hc : sel.contains k = true := by simpa using hk
      simp only [hc, Bool.not_true, Bool.false_eq_true, if_false, StateT.run_bind, bind_id_eq,
        StateT.run_set, emit_run, StateT.run_map, map_id_eq, (t.activate_keeps true).2.2.2.1,
        Track.start_eq, Track.dispatch_kind, Track.started_kind]
      cases hs : t.eosSent <;> cases k <;>
        simp [Source.setTrack, Source.track, onTrack, emit, (t.activate_keeps true).1]
    · left
      refine ⟨t, rfl, hk, ?_⟩
      have hc : sel.contains k = false := by simpa using hk
      simp only [hc, Bool.not_false, if_true, StateT.run_bind, bind_id_eq, StateT.run_set,
        StateT.run_pure, pure_id_eq]
      split
      · exact ⟨false, rfl⟩
      · exact ⟨(s.setTrack k (t.activate false)).avcConfigSent, rfl⟩

theorem startTrack_all_run (sel : List TrackKind) (pos : StartPosition) (s : Source) :
    (TrackKind.all.filterMapM (startTrack sel pos)).run s =
      (((startTrack sel pos .video).run s).1.toList ++
        ((startTrack sel pos .audio).run ((startTrack sel pos .video).run s).2).1.toList,
       ((startTrack sel pos .audio).run ((startTrack sel pos .video).run s).2).2) := by
  simp only [TrackKind.all, List.filterMapM_cons, List.filterMapM_nil, StateT.run_bind, bind_id_eq]
  cases (startTrack sel pos .video).run s with
  | mk a x =>
    cases hb : (startTrack sel pos .audio).run x with
    | mk b y => cases a <;> cases b <;> simp [hb]

section Announce

variable {s y : Source} {j k : TrackKind} {e : Event} {t t' : Track} {L : List Event}

theorem Event.announces_cases (he : Event.announces j e = true) :
    e = .newStream j ∨ e = .updatedStream j := by
  cases e <;> simp_all [Event.announces]

theorem announces_start (a : Bool) (k : TrackKind) :
    Event.announces k (if a then .updatedStream k else .newStream k) = true := by
  cases a <;> simp [Event.announces]

theorem selection_concat (L : List Event) (e : Event) :
    selection (L ++ [e]) = (selection L).read e := by
  simp [selection, List.foldl_append]

theorem Selection.read_announces (he : Event.announces k e = true) (x : Selection) :
    (x.read e).announced = x.announced ++ [k] := by
  obtain rfl | rfl := Event.announces_cases he <;> rfl

theorem announces_plainish (he : Event.announces j e = true) :
    e.isStop = false ∧ (∀ i, e ≠ .endOfStream i) ∧ served [e] = [] := by
  obtain rfl | rfl := Event.announces_cases he <;> simp [Event.isStop, served]

theorem Track.Accounted.concat (h : t.Accounted L k) (hstop : e.isStop = false)
    (hk : e ≠ .endOfStream k) : t.Accounted (L ++ [e]) k := by
  refine ⟨h.sound, h.depth, h.kind, ?_, h.ended⟩
  rw [sinceStop, afterLast_concat, if_neg (by simp [hstop]), List.mem_append, List.mem_singleton,
    or_iff_left hk.symm]
  exact h.sent

theorem Track.Accounted.activate (h : t.Accounted L k) (on : Bool) : (t.activate on).Accounted L k := by
  obtain ⟨hk, hd, -, he, hend⟩ := t.activate_keeps on
  exact ⟨Track.activate_sound h.sound on, hd ▸ h.depth, hk ▸ h.kind, he ▸ h.sent, by
    rw [he, hend]; exact h.ended⟩

theorem Core.congr (hc : Core s) (hv : y.video = s.video) (ha : y.audio = s.audio)
    (hph : y.phase = s.phase) (hse : y.session = s.session) (hst : y.stream = s.stream)
    (he : y.events = s.events) : Core y := by
  have htr := Source.track_congr s y hv ha
  refine ⟨fun h => ?_, fun h => ?_, fun h => ?_, fun k t ht => ?_, fun k ht => ?_, ?_⟩
  · rw [hse]; exact hc.word (hph ▸ h)
  · rw [hv, ha]; exact hc.fresh (hph ▸ h)
  · rw [hst]; exact hc.opening (hph ▸ h)
  · rw [he]; exact hc.tracks k t (htr k ▸ ht)
  · rw [he]; exact hc.absent k (htr k ▸ ht)
  · rw [he]; exact hc.log

theorem Core.announce (hc : Core s) (he : Event.announces j e = true) :
    Core { s with events := s.events ++ [e] } := by
  obtain ⟨hstop, hend, -⟩ := announces_plainish he
  refine ⟨hc.word, hc.fresh, hc.opening, fun k t ht => (hc.tracks k t ht).concat hstop (hend k),
    fun k ht => ?_, every_concat.2 ⟨hc.log, ?_⟩⟩
  · simpa [(hend k).symm] using hc.absent k ht
  · obtain rfl | rfl := Event.announces_cases he <;> trivial

theorem Core.opened (hc : Core s) (ht : s.track k = some t) :
    ¬(s.phase = .invalid ∨ s.phase = .opening) := fun hp => by
  obtain ⟨hv, ha⟩ := hc.fresh hp
  cases k <;> simp_all [Source.track]

theorem Core.retrack (hc : Core s) (ht : s.track k = some t) (h' : t'.Accounted s.events k) :
    Core (s.setTrack k t') := by
  have hnot := hc.opened ht
  refine ⟨fun h => by simpa using hc.word (by simpa using h), fun h => absurd (by simpa using h) hnot,
    fun h => by simpa using hc.opening (by simpa using h), fun i u hu => ?_, fun i hi => ?_,
    by simpa using hc.log⟩
  · rw [Source.track_setTrack] at hu
    split at hu
    · subst i
      cases hu
      simpa using h'
    · simpa using hc.tracks i u hu
  · rw [Source.track_setTrack] at hi
    split at hi
    · cases hi
    · simpa using hc.absent i hi

end Announce

section Sealing

variable {s : Source} {k : TrackKind} {t : Track}

theorem Source.Sealed.activate (h : s.Sealed) (ht : s.track k = some t) (on : Bool)
    (hnone : ∀ sel pos, Task.start sel pos ∉ s.tasks)
    (hgrow : s.phase = .stopped ∨ (on = true → t.active = true)) :
    (s.setTrack k (t.activate on)).Sealed := by
  obtain ⟨-, -, -, he, hend⟩ := t.activate_keeps on
  refine ⟨⟨fun j u hu hs => ?_, fun hp j u hu => ?_, fun sel pos hm => absurd (by simpa using hm) (hnone sel pos),
    by simpa using h.log⟩, fun hq => ?_⟩
  · rw [Source.track_setTrack] at hu
    split at hu
    · subst j
      cases hu
      unfold Track.activate
      split_ifs
      · exact h.drained k t ht (he ▸ hs)
      · exact h.drained k t ht (he ▸ hs)
      · exact ⟨rfl, rfl⟩
    · exact h.drained j u hu hs
  · rw [Source.setTrack_phase] at hp
    rw [Source.track_setTrack] at hu
    split at hu
    · subst j
      cases hu
      rw [hend]
      exact h.stopped hp k t ht
    · exact h.stopped hp j u hu
  · rcases hgrow with hp | hgrow
    · obtain ⟨j, u, hu, -, hue⟩ := hq
      rw [Source.track_setTrack] at hu
      split at hu
      · subst j
        cases hu
        rw [hend, h.stopped hp k t ht] at hue
        cases hue
      · rw [h.stopped hp j u hu] at hue
        cases hue
    · refine h.quenched_of (fun j u hu => ?_) (by simp) hq
      rw [Source.track_setTrack] at hu
      split at hu
      · subst j
        cases hu
        exact ⟨t, ht, fun ha => hgrow (by rw [← t.activate_active on]; exact ha), hend⟩
      · exact ⟨u, hu, id, rfl⟩

end Sealing


/-- What a demuxer keeps while a start with the log `L` before it is under way: the tracks of
kinds `done` have been started, and `n` of the ends they reported are not counted yet. The tracks
agree with the log; the tracks announced are the selected ones of `done`; the count of ends is
that of the selected tracks of `done` still to end, with the ends not counted yet; while none is
left to count, no selected track of `done` has ended since it was announced; each end reported
since `L` left its track reported; the presentation has not ended; and the demuxer is sealed when
`c` holds. -/
structure Starting (c : Prop) (L : List Event) (done : List TrackKind) (n : Nat) (s : Source) :
    Prop extends Core s where
  announced : (selection s.events).announced = done.filter s.isActive
  pending : s.pendingEos =
    (done.countP fun k => (s.track k).any fun t => t.active && !t.eosSent) + n
  noEnds : n = 0 → ∀ k ∈ done, s.isActive k = true →
    .endOfStream k ∉ afterLast (Event.announces k) s.events
  reports : ∃ M, s.events = L ++ M ∧ ∀ k, .endOfStream k ∈ M → k ∈ done ∧ s.Reported k
  sealed : c → s.Sealed
  eop : s.eopSent = false

namespace Starting

variable {c : Prop} {L : List Event} {done : List TrackKind} {n : Nat} {s : Source}
  {k : TrackKind} {t : Track}

theorem init (hs : Accounts s) (hc : c → s.Sealed) :
    Starting c s.events [] 0 { s with pendingOp := false, pendingEos := 0, eopSent := false } where
  toCore := hs.toCore.congr rfl rfl rfl rfl rfl rfl
  announced := hs.reported
  pending := rfl
  noEnds _ _ hk := absurd hk List.not_mem_nil
  reports := ⟨[], by simp, fun _ hk => absurd hk List.not_mem_nil⟩
  sealed h := (hc h).congr rfl rfl rfl (fun _ _ hm => hm) ⟨[], by simp, rfl⟩ fun _ => rfl
  eop := rfl

theorem skip (h : Starting c L done n s) (ht : s.track k = none) :
    Starting c L (done ++ [k]) n s where
  toCore := h.toCore
  announced := by rw [h.announced, List.filter_append]; simp [Source.isActive, ht]
  pending := by rw [h.pending, List.countP_append]; simp [ht]
  noEnds hn j hj ha := by
    rcases List.mem_append.1 hj with hj | hj
    · exact h.noEnds hn j hj ha
    · obtain rfl := List.mem_singleton.1 hj
      simp [Source.isActive, ht] at ha
  reports := by
    obtain ⟨M, hM, hrep⟩ := h.reports
    exact ⟨M, hM, fun j hj => ⟨List.mem_append_left _ (hrep j hj).1, (hrep j hj).2⟩⟩
  sealed := h.sealed
  eop := h.eop

theorem deselect (h : Starting c L done n s) (hk : k ∉ done) (ht : s.track k = some t)
    (hnone : c → ∀ sel pos, Task.start sel pos ∉ s.tasks) (b : Bool) :
    Starting c L (done ++ [k]) n { s.setTrack k (t.activate false) with avcConfigSent := b } := by
  set y : Source := { s.setTrack k (t.activate false) with avcConfigSent := b } with hy
  have htr : ∀ j, y.track j = if j = k then some (t.activate false) else s.track j := fun j => by
    rw [Source.track_congr (s.setTrack k (t.activate false)) y rfl rfl, Source.track_setTrack]
  have hother : ∀ j ∈ done, y.track j = s.track j := fun j hj => by
    rw [htr, if_neg (by rintro rfl; exact hk hj)]
  have hact : ∀ j ∈ done, y.isActive j = s.isActive j := fun j hj => by
    simp [Source.isActive, hother j hj]
  have hyk : y.isActive k = false := by simp [Source.isActive, htr, t.activate_active]
  have hev : y.events = s.events := by simp [hy]
  obtain ⟨M, hM, hrep⟩ := h.reports
  refine ⟨(h.toCore.retrack ht ((h.tracks k t ht).activate false)).congr rfl rfl rfl rfl rfl rfl,
    ?_, ?_, fun hn j hj ha => ?_, ⟨M, by rw [hev, hM], fun j hj => ?_⟩, fun hc => ?_,
    by simpa [hy] using h.eop⟩
  · rw [hev, h.announced, List.filter_append, List.filter_congr hact]
    simp [hyk]
  · have hcount : (done.countP fun j => (y.track j).any fun t => t.active && !t.eosSent) =
        done.countP fun j => (s.track j).any fun t => t.active && !t.eosSent :=
      List.countP_congr fun j hj => by rw [hother j hj]
    rw [show y.pendingEos = s.pendingEos by simp [hy], h.pending, List.countP_append, hcount]
    simp [htr, t.activate_active]
  · rcases List.mem_append.1 hj with hj | hj
    · rw [hev]
      exact h.noEnds hn j hj (by rw [← hact j hj]; exact ha)
    · obtain rfl := List.mem_singleton.1 hj
      rw [hyk] at ha
      cases ha
  · obtain ⟨hd, hr⟩ := hrep j hj
    exact ⟨List.mem_append_left _ hd, hr.of_track (hother j hd)⟩
  · exact ((h.sealed hc).activate ht false (hnone hc) (.inr fun h => by cases h)).congr rfl rfl rfl
      (fun _ _ hm => hm) ⟨[], by simp [hev], rfl⟩ fun _ => rfl

theorem announce (h : Starting c L done n s) (hk : k ∉ done) (ht : s.track k = some t)
    (hnone : c → ∀ sel pos, Task.start sel pos ∉ s.tasks)
    (hgrow : c → s.phase = .stopped ∨ t.active = true) :
    Starting c L (done ++ [k]) n { s.setTrack k (t.activate true) with
      pendingEos := s.pendingEos + (if t.eosSent then 0 else 1),
      events := s.events ++
        [if t.active then .updatedStream k else .newStream k, .streamStarted t.kind] } := by
  set ann : Event := if t.active then .updatedStream k else .newStream k with hann
  have hann' : Event.announces k ann = true := announces_start t.active k
  obtain ⟨-, hend, hserved⟩ := announces_plainish hann'
  have hss : Plain [Event.streamStarted t.kind] := fun e he => by rw [List.mem_singleton.1 he]; rfl
  set x : Source := { s.setTrack k (t.activate true) with
      pendingEos := s.pendingEos + (if t.eosSent then 0 else 1),
      events := s.events ++ [ann, .streamStarted t.kind] } with hx
  have htr : ∀ j, x.track j = if j = k then some (t.activate true) else s.track j := fun j => by
    rw [Source.track_congr (s.setTrack k (t.activate true)) x rfl rfl, Source.track_setTrack]
  have hother : ∀ j ∈ done, x.track j = s.track j := fun j hj => by
    rw [htr, if_neg (by rintro rfl; exact hk hj)]
  have hact : ∀ j ∈ done, x.isActive j = s.isActive j := fun j hj => by
    simp [Source.isActive, hother j hj]
  have hxk : x.isActive k = true := by simp [Source.isActive, htr, t.activate_active]
  have hev : x.events = s.events ++ [ann] ++ [.streamStarted t.kind] := by simp [hx]
  obtain ⟨M, hM, hrep⟩ := h.reports
  refine ⟨(((h.toCore.retrack ht ((h.tracks k t ht).activate true)).announce hann').plain hss).congr
      rfl rfl rfl rfl rfl (by simp [hx]), ?_, ?_, fun hn j hj ha => ?_,
    ⟨M ++ [ann, .streamStarted t.kind], by rw [hx, hM, List.append_assoc], fun j hj => ?_⟩,
    fun hc => ?_, by simpa [hx] using h.eop⟩
  · rw [hev, hss.steady.selection_append, selection_concat, Selection.read_announces hann',
      h.announced, List.filter_append, List.filter_congr hact]
    simp [hxk]
  · have hcount : (done.countP fun j => (x.track j).any fun t => t.active && !t.eosSent) =
        done.countP fun j => (s.track j).any fun t => t.active && !t.eosSent :=
      List.countP_congr fun j hj => by rw [hother j hj]
    rw [show x.pendingEos = s.pendingEos + (if t.eosSent then 0 else 1) from rfl, h.pending,
      List.countP_append, hcount]
    cases hs : t.eosSent
    · simp [htr, t.activate_active, (t.activate_keeps true).2.2.2.1, hs]
      omega
    · simp [htr, t.activate_active, (t.activate_keeps true).2.2.2.1, hs]
  · rcases List.mem_append.1 hj with hd | hj
    · have hjk : j ≠ k := by rintro rfl; exact hk hd
      have hnot : ∀ e ∈ [ann, Event.streamStarted t.kind], Event.announces j e = false := by
        intro e he
        simp only [List.mem_cons, List.not_mem_nil, or_false] at he
        rcases he with rfl | rfl
        · obtain he | he := Event.announces_cases hann' <;> rw [he] <;>
            simp [Event.announces, Ne.symm hjk]
        · rfl
      rw [hev, List.append_assoc, List.singleton_append, afterLast_append_of_forall hnot]
      simp only [List.mem_append, List.mem_cons, List.not_mem_nil, or_false, not_or]
      exact ⟨h.noEnds hn j hd (by rw [← hact j hd]; exact ha), (hend j).symm, fun he => by cases he⟩
    · obtain rfl := List.mem_singleton.1 hj
      rw [hev, List.append_assoc, List.singleton_append, afterLast_append_cons hann']
      simp [afterLast, Event.announces]
  · rcases List.mem_append.1 hj with hj | hj
    · obtain ⟨hd, hr⟩ := hrep j hj
      exact ⟨List.mem_append_left _ hd, hr.of_track (hother j hd)⟩
    · simp only [List.mem_cons, List.not_mem_nil, or_false] at hj
      rcases hj with hj | hj
      · exact absurd hj.symm (hend j)
      · cases hj
  · refine ((h.sealed hc).activate ht true (hnone hc) ((hgrow hc).imp_right fun ha _ => ha)).congr
      rfl rfl rfl (fun _ _ hm => hm) ⟨[ann, .streamStarted t.kind], by simp [hx], ?_⟩ fun _ => rfl
    rw [show [ann, Event.streamStarted t.kind] = [ann] ++ [.streamStarted t.kind] from rfl,
      served_append, hserved]
    rfl

theorem dispatch (h : Starting c L (done ++ [k]) n s) (hk : k ∉ done) (ht : s.track k = some t)
    (ha : t.active = true) {u : Track} (hu : t.Loads u) (hph : u.phase = .started)
    (hend : u.endOfStream = t.endOfStream)
    (hq : t.samples = [] → t.overflow = [] → u.samples = [] ∧ u.overflow = []) :
    Starting c L (done ++ [k]) (n + if u.dispatch.2.2 = .endOfStream then 1 else 0)
      { s.setTrack k u.dispatch.1 with events := s.events ++ u.dispatch.2.1 } := by
  have hacc := h.tracks k t ht
  set y : Source := { s.setTrack k u.dispatch.1 with events := s.events ++ u.dispatch.2.1 }
    with hy
  have htr : ∀ j, y.track j = if j = k then some u.dispatch.1 else s.track j :=
    Source.track_setTrack_events s k u.dispatch.1 _
  have hother : ∀ j ∈ done, y.track j = s.track j := fun j hj => by
    rw [htr, if_neg (by rintro rfl; exact hk hj)]
  have hact : ∀ j, y.isActive j = s.isActive j := by
    intro j
    by_cases hj : j = k
    · subst j
      simp [Source.isActive, htr, ht, hu.active]
    · simp [Source.isActive, htr, hj]
  have hsig : u.dispatch.2.2 = .endOfStream → t.eosSent = false := fun hs =>
    hu.eosSent ▸ (u.dispatch_signal_end hs).2.2.1
  obtain ⟨M, hM, hrep⟩ := h.reports
  refine ⟨h.toCore.dispatch ht hu.packed hu.idle (hu.depth ▸ hacc.depth) (hu.kind.trans hacc.kind)
      hu.eosSent (fun he => hu.ended (hacc.ended (hu.eosSent ▸ he))) Plain.nil, ?_, ?_,
    fun hn j hj hja => ?_, ⟨M ++ u.dispatch.2.1, by rw [hy, hM, List.append_assoc], fun j hj => ?_⟩,
    fun hc => ?_, by simpa [hy] using h.eop⟩
  · show (selection (s.events ++ u.dispatch.2.1)).announced = _
    rw [u.dispatch_steady.selection_append, h.announced, List.filter_congr fun j _ => hact j]
  · have hcount : (done.countP fun j => (y.track j).any fun t => t.active && !t.eosSent) =
        done.countP fun j => (s.track j).any fun t => t.active && !t.eosSent :=
      List.countP_congr fun j hj => by rw [hother j hj]
    rw [show y.pendingEos = s.pendingEos by simp [hy], h.pending, List.countP_append,
      List.countP_append, hcount]
    -- the track counts as still to end until the end it reports now is counted
    by_cases hs : u.dispatch.2.2 = .endOfStream
    · simp [htr, ht, Track.dispatch_eosSent, hu.active, hu.eosSent, ha, hs, hsig hs]
      omega
    · simp [htr, ht, Track.dispatch_eosSent, hu.active, hu.eosSent, ha, hs]
  · have hs : u.dispatch.2.2 ≠ .endOfStream := fun hs => by simp [hs] at hn
    show _ ∉ afterLast _ (s.events ++ u.dispatch.2.1)
    rw [u.dispatch_steady.afterLast_announces, List.mem_append, not_or]
    refine ⟨h.noEnds (by simp at hn; exact hn.1) j hj (by rw [← hact j]; exact hja), fun hm => ?_⟩
    exact hs (u.endOfStream_mem_dispatch.1 hm).2
  · rcases List.mem_append.1 hj with hj | hj
    · obtain ⟨hd, hr⟩ := hrep j hj
      refine ⟨hd, ?_⟩
      by_cases hjk : j = k
      · subst j
        obtain ⟨t', ht', hr⟩ := hr
        obtain rfl : t = t' := Option.some.inj (ht.symm.trans ht')
        obtain ⟨h1, h2⟩ := hq hr.samples hr.overflow
        exact ⟨u.dispatch.1, by simp [htr], Track.Reported.dispatch
          ⟨hu.eosSent ▸ hr.sent, h1, h2, .inl ⟨hph, hu.active.trans ha⟩⟩⟩
      · exact hr.of_track (by rw [htr, if_neg hjk])
    · obtain ⟨rfl, hs⟩ := u.endOfStream_mem_dispatch.1 hj
      rw [hu.kind, hacc.kind]
      exact ⟨List.mem_append_right _ (List.mem_singleton_self k), u.dispatch.1, by simp [htr],
        Track.dispatch_reported hu.packed (hu.depth ▸ hacc.depth) (hu.active.trans ha) hs⟩
  · have hs := h.sealed hc
    exact hs.dispatch h.toCore ht hu (fun he => hq (hs.drained k t ht he).1 (hs.drained k t ht he).2)
      hend

theorem startTrack (h : Starting c L done n s) (hk : k ∉ done) (sel : List TrackKind)
    (pos : StartPosition) (hlive : s.phase ≠ .shutdown)
    (hnone : c → ∀ sel pos, Task.start sel pos ∉ s.tasks)
    (hgrow : c → s.phase = .started ∨ s.phase = .paused → k ∈ sel → s.isActive k = true) :
    Starting c L (done ++ [k]) (n + ((startTrack sel pos k).run s).1.toList.count .endOfStream)
      ((startTrack sel pos k).run s).2 := by
  rcases startTrack_cases sel pos k s with ⟨ht, hrun⟩ | ⟨t, ht, -, b, hrun⟩ | ⟨t, ht, hsel, hrun⟩ <;>
    rw [hrun]
  · simpa using h.skip ht
  · simpa using h.deselect hk ht hnone b
  · have hx := h.announce hk ht hnone fun hc => by
      by_cases hplay : s.phase = .started ∨ s.phase = .paused
      · exact .inr (by simpa [Source.isActive, ht] using hgrow hc hplay hsel)
      · -- a demuxer with a track has been opened, and is not playing: it is stopped
        have hopen := h.opened ht
        left
        cases hp : s.phase <;> simp_all
    have hsound := ((h.tracks k t ht).activate true).sound
    have hy := hx.dispatch hk
      ((Source.track_congr (s.setTrack k (t.activate true)) _ rfl rfl k).trans (by simp))
      (t.activate_active true) (Track.started_loads hsound pos)
      (by cases pos <;> rfl) (Track.started_endOfStream _ pos)
      fun h1 h2 => Track.started_empty h1 h2 pos
    have hcount : ∀ sig : Signal,
        (some sig).toList.count .endOfStream = if sig = .endOfStream then 1 else 0 := by
      intro sig
      cases sig <;> rfl
    rw [hcount]
    exact hy

/-- Once every track is started, the start reports itself: the accounting holds with the ends its
tracks reported left to count, every end reported since `L` left its track reported, and while
`c` holds and no start is queued the demuxer is sealed. -/
theorem started (h : Starting c L TrackKind.all n s) :
    Tally n { s with phase := .started, events := s.events ++ [.sourceStarted] } ∧
      (∃ M, s.events ++ [.sourceStarted] = L ++ M ∧ ∀ k, .endOfStream k ∈ M →
        ({ s with phase := .started, events := s.events ++ [.sourceStarted] } : Source).Reported k) ∧
      (c → (∀ sel pos, Task.start sel pos ∉ s.tasks) →
        ({ s with phase := .started, events := s.events ++ [.sourceStarted] } : Source).Sealed) := by
  set y : Source := { s with phase := .started, events := s.events ++ [.sourceStarted] } with hy
  have htr : ∀ k, y.track k = s.track k := Source.track_congr s y rfl rfl
  have hact : ∀ k, y.isActive k = s.isActive k := Source.isActive_congr s y rfl rfl
  have hstart : sinceStart y.events = [] := by simp [hy, sinceStart, afterLast_concat, Event.isStart]
  have hsel : selection y.events = ⟨(selection s.events).announced, []⟩ := by
    rw [show y.events = s.events ++ [.sourceStarted] from rfl, selection_concat]
    rfl
  have hlatest : ∀ k, k ∈ (selection y.events).latest ↔ y.isActive k = true := by
    intro k
    rw [hsel, h.announced, List.mem_filter, hact]
    cases k <;> simp [TrackKind.all]
  obtain ⟨M, hM, hrep⟩ := h.reports
  have hcore : Core y :=
    ⟨fun hp => by simp [hy] at hp, fun hp => by simp [hy] at hp, fun hp => by simp [hy] at hp,
      fun k t ht => (h.tracks k t (htr k ▸ ht)).concat rfl (fun he => by cases he),
      fun k ht => by simpa [hy] using h.absent k (htr k ▸ ht), every_concat.2 ⟨h.log, trivial⟩⟩
  refine ⟨⟨hcore, fun _ _ _ _ => .inl rfl, by rw [hsel], fun _ => ?_, fun _ => .inl rfl,
      fun hp => absurd (.inl rfl) hp⟩,
    ⟨M ++ [.sourceStarted], by rw [hM, List.append_assoc], fun k hk => ?_⟩, fun hc hnone => ?_⟩
  · refine ⟨⟨by simp [hy], by rw [hstart]; simp⟩, ?_, by rw [hstart]; simp [hy, h.eop], hlatest,
      fun h0 hex => ?_⟩
    · show s.pendingEos = y.unended + n
      rw [h.pending, Source.unended_congr s y rfl rfl]
      rfl
    · obtain ⟨k, hk, hm⟩ := hex
      have hn : n = 0 := by
        have := h.pending
        simp only [show y.pendingEos = s.pendingEos from rfl] at h0
        omega
      rw [show y.events = s.events ++ [.sourceStarted] from rfl, afterLast_concat,
        if_neg (by simp [Event.announces]), List.mem_append] at hm
      rcases hm with hm | hm
      · refine absurd hm (h.noEnds hn k ?_ ?_)
        · cases k <;> simp [TrackKind.all]
        · rw [← hact]; exact (hlatest k).1 hk
      · simp at hm
  · rcases List.mem_append.1 hk with hk | hk
    · exact (hrep k hk).2.of_track (htr k)
    · simp at hk
  · have hs := h.sealed hc
    refine ⟨⟨fun k t ht => hs.drained k t (htr k ▸ ht), fun hp => by simp [hy] at hp,
      fun sel pos hm => absurd hm (hnone sel pos), every_sample_append hs.log rfl⟩, ?_⟩
    exact hs.quenched_of (fun k t ht => ⟨t, htr k ▸ ht, id, rfl⟩) rfl


end Starting

section Start

variable {s : Source}

theorem startTrack_track_other {j k : TrackKind} (hjk : j ≠ k) (sel : List TrackKind)
    (pos : StartPosition) (s : Source) : ((startTrack sel pos k).run s).2.track j = s.track j := by
  rcases startTrack_cases sel pos k s with ⟨-, hrun⟩ | ⟨t, -, -, b, hrun⟩ | ⟨t, -, -, hrun⟩ <;>
    rw [hrun]
  · exact (Source.track_congr (s.setTrack k _) _ rfl rfl j).trans (by simp [hjk])
  · refine (Source.track_congr (Source.setTrack _ k _) _ rfl rfl j).trans ?_
    rw [Source.track_setTrack, if_neg hjk]
    exact (Source.track_congr (s.setTrack k _) _ rfl rfl j).trans (by simp [hjk])

theorem forM_onSignal_of {P : Source → Prop} (hP : ∀ sig x, P x → P ((onSignal sig).run x).2)
    (sigs : List Signal) {x : Source} (h : P x) : P ((sigs.forM onSignal).run x).2 := by
  induction sigs generalizing x with
  | nil => exact h
  | cons sig sigs ih => exact ih (hP sig x h)

theorem reports_signal {x : Source}
    (h : ∃ M, x.events = s.events ++ M ∧ ∀ k, .endOfStream k ∈ M → x.Reported k) (sig : Signal) :
    ∃ M, ((onSignal sig).run x).2.events = s.events ++ M ∧
      ∀ k, .endOfStream k ∈ M → ((onSignal sig).run x).2.Reported k := by
  obtain ⟨M, hM, hrep⟩ := h
  have htr := onSignal_track x sig
  rcases onSignal_events x sig with he | he
  · exact ⟨M, by rw [he, hM], fun k hk => (hrep k hk).of_track (htr k)⟩
  · refine ⟨M ++ [.endOfPresentation], by rw [he, hM, List.append_assoc], fun k hk => ?_⟩
    rcases List.mem_append.1 hk with hk | hk
    · exact (hrep k hk).of_track (htr k)
    · simp at hk

theorem runStart_eq (h : s.phase ≠ .shutdown) (sel : List TrackKind) (pos : StartPosition) :
    ((runStart sel pos).run s).2 =
      let r := (TrackKind.all.filterMapM (startTrack sel pos)).run
        { s with pendingOp := false, pendingEos := 0, eopSent := false }
      (pump.run ((r.1.forM onSignal).run
        { r.2 with phase := .started, events := r.2.events ++ [.sourceStarted] }).2).2 := by
  simp only [runStart, StateT.run_bind, StateT.run_modify, StateT.run_get, bind_id_eq, pure_id_eq]
  rw [if_pos h]
  simp only [StateT.run_bind, StateT.run_modify, bind_id_eq, emit_run]
  rfl

/-- A queued start keeps the accounting, each end it reports leaving its track reported. With no
other start queued it keeps a sealed demuxer sealed, when a playing demuxer selects no track it
had not. -/
theorem runStart_settles {c : Prop} (hs : Accounts s) (hc : c → s.Sealed)
    (hlive : s.phase ≠ .shutdown) (sel : List TrackKind) (pos : StartPosition)
    (hnone : c → ∀ sel pos, Task.start sel pos ∉ s.tasks)
    (hgrow : c → s.phase = .started ∨ s.phase = .paused → ∀ k ∈ sel, s.isActive k = true) :
    s.Logs ((runStart sel pos).run s).2 ∧ (c → ((runStart sel pos).run s).2.Sealed) := by
  rw [runStart_eq hlive, startTrack_all_run]
  set x : Source := { s with pendingOp := false, pendingEos := 0, eopSent := false }
  have hv := (Starting.init (c := c) hs hc).startTrack List.not_mem_nil sel pos hlive hnone
    fun hc' hp hk => hgrow hc' hp .video hk
  have hq := startTrack_quiet sel pos .video x
  have ha := hv.startTrack (k := .audio) (by simp) sel pos (by rw [hq.phase]; exact hlive)
    (fun hc' => by rw [hq.tasks]; exact hnone hc') fun hc' hp hk => by
      rw [Source.isActive, startTrack_track_other (by decide)]
      exact hgrow hc' (by rw [← hq.phase]; exact hp) .audio hk
  set v := (startTrack sel pos .video).run x
  set a := (startTrack sel pos .audio).run v.2
  obtain ⟨hT, hlog, hsealed⟩ := Starting.started (L := s.events) (n := 0 + v.1.toList.count .endOfStream +
    a.1.toList.count .endOfStream) ha
  have hT' : Tally (0 + (v.1.toList ++ a.1.toList).count .endOfStream)
      { a.2 with phase := .started, events := a.2.events ++ [.sourceStarted] } := by
    rw [List.count_append, ← Nat.add_assoc]
    exact hT
  have hacc := Tally.signals _ hT'
  have hlogs : s.Logs (((v.1.toList ++ a.1.toList).forM onSignal).run
      { a.2 with phase := .started, events := a.2.events ++ [.sourceStarted] }).2 :=
    ⟨hacc, forM_onSignal_of (P := fun w => ∃ M, w.events = s.events ++ M ∧
      ∀ k, .endOfStream k ∈ M → w.Reported k) (fun sig _ h => reports_signal h sig) _ hlog⟩
  refine ⟨hlogs.trans_calm (pump_calm _), fun hc' => ?_⟩
  have hq' := startTrack_quiet sel pos .audio v.2
  exact (forM_onSignal_of (P := Source.Sealed) (fun sig _ h => h.signal sig) _
    (hsealed hc' fun sel' pos' => by rw [hq'.tasks, hq.tasks]; exact hnone hc' sel' pos')).pump

end Start

section PauseStop

variable {s : Source}

theorem mem_track_events {f : Track → List Event} {e : Event}
    (he : e ∈ (s.video.map f).getD [] ++ (s.audio.map f).getD []) : ∃ t, e ∈ f t := by
  rcases List.mem_append.1 he with he | he
  · cases hv : s.video <;> simp only [hv, Option.map_none, Option.map_some, Option.getD_none,
      Option.getD_some, List.not_mem_nil] at he
    exact ⟨_, he⟩
  · cases ha : s.audio <;> simp only [ha, Option.map_none, Option.map_some, Option.getD_none,
      Option.getD_some, List.not_mem_nil] at he
    exact ⟨_, he⟩

theorem Track.mem_pause_events {t : Track} {e : Event} (he : e ∈ t.pause.2) :
    e = .streamPaused t.kind := by
  unfold Track.pause at he
  split at he <;> simp_all

theorem Track.mem_stop_events {t : Track} {e : Event} (he : e ∈ t.stop.2) :
    e = .streamStopped t.kind := by
  unfold Track.stop at he
  split at he <;> simp_all

theorem paused_track (s : Source) (k : TrackKind) :
    ({ s with
      pendingOp := false, phase := .paused,
      video := s.video.map (fun t => t.pause.1), audio := s.audio.map (fun t => t.pause.1) } :
      Source).track k = (s.track k).map (fun t => t.pause.1) := by
  cases k <;> rfl

theorem Accounts.pause (hs : Accounts s) (hph : s.phase = .started) :
    Accounts { s with
      pendingOp := false, phase := .paused,
      video := s.video.map (fun t => t.pause.1), audio := s.audio.map (fun t => t.pause.1) } := by
  have hp := hs.playing (.inl hph)
  have hun : Source.unended { s with
      pendingOp := false, phase := .paused,
      video := s.video.map (fun t => t.pause.1), audio := s.audio.map (fun t => t.pause.1) } =
      s.unended := by
    simp only [Source.unended, paused_track]
    exact List.countP_congr fun k _ => by cases s.track k <;> rfl
  refine ⟨⟨fun h => by simp at h, fun h => by simp at h, fun h => by simp at h,
      fun k t ht => ?_, fun k ht => ?_, hs.log⟩, fun _ _ _ _ => .inr rfl, hs.reported,
    fun _ => ⟨hp.live, by rw [hun]; exact hp.pending, hp.eop, fun k => ?_, hp.owed⟩,
    fun h => absurd h (by omega), fun h => absurd (.inr rfl) h⟩
  · rw [paused_track, Option.map_eq_some_iff] at ht
    obtain ⟨t₀, ht₀, rfl⟩ := ht
    have h₀ := hs.tracks k t₀ ht₀
    exact ⟨Track.pause_sound h₀.sound, h₀.depth, h₀.kind, h₀.sent, h₀.ended⟩
  · rw [paused_track, Option.map_eq_none_iff] at ht
    exact hs.absent k ht
  · rw [hp.selected k, Source.isActive, Source.isActive, paused_track]
    cases s.track k <;> rfl

theorem Source.Sealed.pause (h : s.Sealed) (hph : s.phase = .started) :
    ({ s with
      pendingOp := false, phase := .paused,
      video := s.video.map (fun t => t.pause.1), audio := s.audio.map (fun t => t.pause.1) } :
      Source).Sealed := by
  refine ⟨⟨fun k t ht hs => ?_, fun hp => by simp at hp, fun sel pos hm _ k hk => ?_, h.log⟩,
    h.quenched_of (fun k t ht => ?_) rfl⟩
  · rw [paused_track, Option.map_eq_some_iff] at ht
    obtain ⟨t₀, ht₀, rfl⟩ := ht
    exact h.drained k t₀ ht₀ hs
  · have hact := h.restarts sel pos hm (.inl hph) k hk
    rw [Source.isActive, paused_track]
    rw [Source.isActive] at hact
    cases hk' : s.track k <;> simp_all [Track.pause]
  · rw [paused_track, Option.map_eq_some_iff] at ht
    obtain ⟨t₀, ht₀, rfl⟩ := ht
    exact ⟨t₀, ht₀, id, rfl⟩

theorem pause_events_quiet (s : Source) :
    Plain ((s.video.map fun t => t.pause.2).getD [] ++ (s.audio.map fun t => t.pause.2).getD [] ++
      [.sourcePaused]) ∧
    served ((s.video.map fun t => t.pause.2).getD [] ++ (s.audio.map fun t => t.pause.2).getD [] ++
      [.sourcePaused]) = [] := by
  have hev : ∀ e ∈ (s.video.map fun t => t.pause.2).getD [] ++ (s.audio.map fun t => t.pause.2).getD [] ++
      [.sourcePaused], ∃ k, e = .streamPaused k ∨ e = .sourcePaused := by
    intro e he
    rcases List.mem_append.1 he with he | he
    · obtain ⟨t, he⟩ := mem_track_events he
      exact ⟨t.kind, .inl (Track.mem_pause_events he)⟩
    · exact ⟨.video, .inr (List.mem_singleton.1 he)⟩
  refine ⟨fun e he => ?_, List.filterMap_eq_nil_iff.2 fun e he => ?_⟩ <;>
    obtain ⟨k, rfl | rfl⟩ := hev e he <;> rfl

theorem runPause_settles (hs : Accounts s) (hph : s.phase = .started) :
    s.Logs (runPause.run s).2 ∧ (s.Sealed → (runPause.run s).2.Sealed) := by
  rw [runPause_moves hph]
  obtain ⟨hplain, hserved⟩ := pause_events_quiet s
  exact ⟨.of_events ((hs.pause hph).plain hplain) _ rfl fun k => hplain.not_mem rfl,
    fun h => (h.pause hph).congr rfl rfl rfl (fun _ _ hm => hm) ⟨_, rfl, hserved⟩ fun _ => rfl⟩

theorem stopped_track (s : Source) (k : TrackKind) :
    ({ s with
      pendingOp := false,
      stream := s.stream.map (fun st => { st with position := 0 }), session := s.session.restart,
      video := s.video.map (fun t => t.stop.1), audio := s.audio.map (fun t => t.stop.1),
      rewindPending := true, avcConfig := s.survey.avcConfig, avcConfigSent := false,
      pendingEos := 0, eopSent := false, phase := .stopped,
      events := s.events ++ (((s.video.map fun t => t.stop.2).getD [] ++
        (s.audio.map fun t => t.stop.2).getD []) ++ [.sourceStopped]) } : Source).track k =
      (s.track k).map (fun t => t.stop.1) := by
  cases k <;> rfl

theorem stop_events_plain (s : Source) :
    Plain ((s.video.map fun t => t.stop.2).getD [] ++ (s.audio.map fun t => t.stop.2).getD []) ∧
      served ((s.video.map fun t => t.stop.2).getD [] ++ (s.audio.map fun t => t.stop.2).getD []) =
        [] := by
  have hev : ∀ e ∈ (s.video.map fun t => t.stop.2).getD [] ++ (s.audio.map fun t => t.stop.2).getD [],
      ∃ k, e = .streamStopped k := by
    intro e he
    obtain ⟨t, he⟩ := mem_track_events he
    exact ⟨t.kind, Track.mem_stop_events he⟩
  refine ⟨fun e he => ?_, List.filterMap_eq_nil_iff.2 fun e he => ?_⟩ <;>
    obtain ⟨k, rfl⟩ := hev e he <;> rfl

theorem runStop_settles (hs : Accounts s) (hph : s.phase ≠ .shutdown) :
    s.Logs (runStop.run s).2 ∧ (s.Sealed → (runStop.run s).2.Sealed) := by
  rw [runStop_moves hph]
  obtain ⟨hplain, hserved⟩ := stop_events_plain s
  set X := (s.video.map fun t => t.stop.2).getD [] ++ (s.audio.map fun t => t.stop.2).getD []
  have hstop : sinceStop (s.events ++ (X ++ [.sourceStopped])) = [] := by
    rw [← List.append_assoc, sinceStop, afterLast_concat]
    rfl
  have hnoend : ∀ k, Event.endOfStream k ∉ X ++ [.sourceStopped] := fun k hk => by
    rcases List.mem_append.1 hk with hk | hk
    · exact hplain.not_mem rfl hk
    · simp at hk
  refine ⟨.of_events ?_ _ rfl hnoend, fun h => ⟨⟨fun k t ht _ => ?_, fun _ k t ht => ?_,
    fun _ _ _ hp => by simp at hp, every_sample_append h.log (by simp [hserved])⟩,
    fun ⟨k, t, ht, _, he⟩ => ?_⟩⟩
  · exact
    { word := fun h => by simp at h
      fresh := fun h => by simp at h
      opening := fun h => by simp at h
      tracks := fun k t ht => by
        rw [stopped_track, Option.map_eq_some_iff] at ht
        obtain ⟨t₀, ht₀, rfl⟩ := ht
        have h₀ := hs.tracks k t₀ ht₀
        exact ⟨Track.stop_sound, h₀.depth, h₀.kind, by rw [hstop]; simp [Track.stop],
          fun h => by simp [Track.stop] at h⟩
      absent := fun k ht => by
        rw [stopped_track, Option.map_eq_none_iff] at ht
        rw [List.mem_append, not_or]
        exact ⟨hs.absent k ht, hnoend k⟩
      log := by
        rw [← List.append_assoc, every_concat, hplain.every_end]
        exact ⟨hs.log, trivial⟩
      running := fun k t ht hst => by
        rw [stopped_track, Option.map_eq_some_iff] at ht
        obtain ⟨t₀, -, rfl⟩ := ht
        simp [Track.stop] at hst
      reported := by
        rw [← List.append_assoc, selection_concat, hplain.steady.selection_append]
        exact hs.reported
      playing := fun h => by simp at h
      owing := fun h => absurd h (Nat.lt_irrefl 0)
      concludes := fun _ hlive => by
        refine absurd ?_ hlive.2
        rw [← List.append_assoc, sinceStart, afterLast_concat]
        simp [Event.isStart] }
  · rw [stopped_track, Option.map_eq_some_iff] at ht
    obtain ⟨t₀, -, rfl⟩ := ht
    exact ⟨rfl, rfl⟩
  · rw [stopped_track, Option.map_eq_some_iff] at ht
    obtain ⟨t₀, -, rfl⟩ := ht
    rfl
  · rw [stopped_track, Option.map_eq_some_iff] at ht
    obtain ⟨t₀, -, rfl⟩ := ht
    simp [Track.stop] at he

end PauseStop

end FlvDemux.Engine
