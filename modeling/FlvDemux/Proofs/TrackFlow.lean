import FlvDemux.Engine.Track

/-!
# Flow control of one track: what the queues keep

Every track operation keeps the queues in shape (`Track.Sound`) and loses nothing: the samples
sent out, then those still held, are the samples given, and likewise the tokens, as a `Ledger`
that sees only what operations are given and answer records.
-/

namespace FlvDemux.Engine

/-- The sample and the token that a `sample` event carries. -/
def Event.served? : Event → Option (Sample × Option UInt64)
  | .sample _ s r => some (s, r)
  | _ => none

/-- The answers among a list of events, in order: each sample with the token it answers. -/
def served (evs : List Event) : List (Sample × Option UInt64) := evs.filterMap Event.served?

attribute [simp] Event.served?

@[simp] theorem served_nil : served [] = [] := rfl

@[simp] theorem served_append (a b : List Event) : served (a ++ b) = served a ++ served b := by
  simp [served]

@[simp] theorem served_cons (e : Event) (evs : List Event) :
    served (e :: evs) = e.served?.toList ++ served evs := by
  cases e <;> rfl

namespace Track

section Refill

variable (t : Track)

@[simp] theorem refill_kind : t.refill.kind = t.kind := rfl
@[simp] theorem refill_phase : t.refill.phase = t.phase := rfl
@[simp] theorem refill_active : t.refill.active = t.active := rfl
@[simp] theorem refill_endOfStream : t.refill.endOfStream = t.endOfStream := rfl
@[simp] theorem refill_eosSent : t.refill.eosSent = t.eosSent := rfl
@[simp] theorem refill_depth : t.refill.depth = t.depth := rfl
@[simp] theorem refill_requests : t.refill.requests = t.requests := rfl

theorem refill_queues : t.refill.samples ++ t.refill.overflow = t.samples ++ t.overflow := by
  simp [refill]

theorem refill_samples_le (h : t.samples.length ≤ t.depth) :
    t.refill.samples.length ≤ t.depth := by
  simp only [refill, List.length_append, List.length_take]
  omega

theorem refill_full (h : t.samples.length ≤ t.depth) (ho : t.refill.overflow ≠ []) :
    t.refill.samples.length = t.depth := by
  simp only [refill, ne_eq, List.drop_eq_nil_iff, Nat.not_le] at ho
  simp only [refill, List.length_append, List.length_take]
  omega

end Refill

section Serve

@[simp] theorem serve_kind (t : Track) (rs : List (Option UInt64)) :
    (t.serve rs).1.kind = t.kind := by
  fun_induction serve t rs <;> simp_all

@[simp] theorem serve_phase (t : Track) (rs : List (Option UInt64)) :
    (t.serve rs).1.phase = t.phase := by
  fun_induction serve t rs <;> simp_all

@[simp] theorem serve_active (t : Track) (rs : List (Option UInt64)) :
    (t.serve rs).1.active = t.active := by
  fun_induction serve t rs <;> simp_all

@[simp] theorem serve_endOfStream (t : Track) (rs : List (Option UInt64)) :
    (t.serve rs).1.endOfStream = t.endOfStream := by
  fun_induction serve t rs <;> simp_all

@[simp] theorem serve_eosSent (t : Track) (rs : List (Option UInt64)) :
    (t.serve rs).1.eosSent = t.eosSent := by
  fun_induction serve t rs <;> simp_all

@[simp] theorem serve_depth (t : Track) (rs : List (Option UInt64)) :
    (t.serve rs).1.depth = t.depth := by
  fun_induction serve t rs <;> simp_all

theorem serve_samples (t : Track) (rs : List (Option UInt64)) :
    (served (t.serve rs).2).map Prod.fst ++ (t.serve rs).1.samples ++ (t.serve rs).1.overflow =
      t.samples ++ t.overflow := by
  fun_induction serve t rs with
  | case1 t => simp
  | case2 t r rs h => simp
  | case3 t r rs s ss h t' evs hrec ih =>
    rw [hrec, refill_queues] at ih
    simpa [h] using ih

theorem serve_tokens (t : Track) (rs : List (Option UInt64)) :
    (served (t.serve rs).2).map Prod.snd ++ (t.serve rs).1.requests = rs := by
  fun_induction serve t rs with
  | case1 t => simp
  | case2 t r rs h => simp
  | case3 t r rs s ss h t' evs hrec ih =>
    rw [hrec] at ih
    simpa using ih

theorem serve_drained (t : Track) (rs : List (Option UInt64)) :
    (t.serve rs).1.samples = [] ∨ (t.serve rs).1.requests = [] := by
  fun_induction serve t rs with
  | case1 t => simp
  | case2 t r rs h => simp [h]
  | case3 t r rs s ss h t' evs hrec ih => simpa [hrec] using ih

theorem serve_events (t : Track) (rs : List (Option UInt64)) :
    (t.serve rs).2 = (served (t.serve rs).2).map fun p => .sample t.kind p.1 p.2 := by
  fun_induction serve t rs with
  | case1 t => simp
  | case2 t r rs h => simp
  | case3 t r rs s ss h t' evs hrec ih =>
    rw [hrec] at ih
    simpa using ih

theorem serve_of_samples_nil {t : Track} (h : t.samples = []) (rs : List (Option UInt64)) :
    t.serve rs = ({ t with requests := rs }, []) := by
  cases rs with
  | nil => rfl
  | cons r rs => simp [serve, h]

end Serve

/-- The ready samples fit the depth, and samples are held back only behind a full ready list. -/
def Packed (t : Track) : Prop :=
  t.samples.length ≤ t.depth ∧ (t.overflow ≠ [] → t.samples.length = t.depth)

/-- A track that is not selected holds nothing. -/
def Idle (t : Track) : Prop :=
  t.active = false → t.samples = [] ∧ t.overflow = [] ∧ t.requests = []

/-- The shape a track keeps through every operation. -/
structure Sound (t : Track) : Prop where
  packed : t.Packed
  drained : t.phase = .started → t.samples = [] ∨ t.requests = []
  idle : t.Idle

theorem refill_packed (t : Track) (h : t.samples.length ≤ t.depth) : t.refill.Packed :=
  ⟨refill_samples_le t h, refill_full t h⟩

theorem serve_packed (t : Track) (rs : List (Option UInt64)) (h : t.Packed) :
    (t.serve rs).1.Packed := by
  fun_induction serve t rs with
  | case1 t => exact h
  | case2 t r rs h' => exact h
  | case3 t r rs s ss hs t' evs hrec ih =>
    rw [hrec] at ih
    apply ih
    apply refill_packed
    have hlen := h.1
    simp only [hs, List.length_cons] at hlen
    simp only
    omega

theorem serve_idle (t : Track) (rs : List (Option UInt64)) (h : t.Idle) (hr : t.active = false → rs = []) :
    (t.serve rs).1.Idle := by
  intro ha
  rw [serve_active] at ha
  obtain ⟨hs, ho, -⟩ := h ha
  rw [serve_of_samples_nil hs]
  exact ⟨hs, ho, hr ha⟩

section Dispatch

/-- What a started track does once its requests are answered: it reports its end once the ready
samples are gone and the stream has ended, and otherwise says whether it wants data. -/
def conclude (u : Track) (evs : List Event) : Track × List Event × Signal :=
  if u.samples.isEmpty && u.endOfStream then
    if u.eosSent then (u, evs, .none)
    else ({ u with eosSent := true }, evs ++ [.endOfStream u.kind], .endOfStream)
  else (u, evs, if u.needsData then .requestData else .none)

/-- The condition under which a track reports its end: nothing ready, the stream ended, and the
end not reported yet. -/
def Ends (u : Track) : Prop := u.samples = [] ∧ u.endOfStream = true ∧ u.eosSent = false

instance (u : Track) : Decidable u.Ends :=
  inferInstanceAs (Decidable (u.samples = [] ∧ u.endOfStream = true ∧ u.eosSent = false))

theorem conclude_of_ends {u : Track} (h : u.Ends) (evs : List Event) :
    conclude u evs = ({ u with eosSent := true }, evs ++ [.endOfStream u.kind], .endOfStream) := by
  obtain ⟨hs, he, hn⟩ := h
  simp [conclude, hs, he, hn]

theorem conclude_of_not_ends {u : Track} (h : ¬u.Ends) (evs : List Event) :
    (conclude u evs).1 = u ∧ (conclude u evs).2.1 = evs ∧ (conclude u evs).2.2 ≠ .endOfStream := by
  simp only [Ends, not_and] at h
  unfold conclude
  split
  · rename_i hc
    simp only [Bool.and_eq_true, List.isEmpty_iff] at hc
    have hsent : u.eosSent = true := by simpa using h hc.1 hc.2
    simp [hsent]
  · simp only [true_and]
    split <;> simp

theorem conclude_track (u : Track) (evs : List Event) :
    (conclude u evs).1 = { u with eosSent := u.eosSent || decide u.Ends } := by
  by_cases h : u.Ends
  · simp [conclude_of_ends h, h]
  · simp [(conclude_of_not_ends h evs).1, h]

theorem dispatch_of_started {t : Track} (h : t.phase = .started) :
    t.dispatch = conclude (t.refill.serve t.requests).1 (t.refill.serve t.requests).2 := by
  simp [dispatch, h, conclude]

theorem dispatch_of_not_started {t : Track} (h : t.phase ≠ .started) :
    t.dispatch = (t, [], .none) := by
  simp [dispatch, h]

end Dispatch


section DispatchFacts

variable (t : Track)

@[simp] theorem dispatch_kind : t.dispatch.1.kind = t.kind := by
  by_cases h : t.phase = .started
  · simp [dispatch_of_started h, conclude_track]
  · simp [dispatch_of_not_started h]

@[simp] theorem dispatch_phase : t.dispatch.1.phase = t.phase := by
  by_cases h : t.phase = .started
  · simp [dispatch_of_started h, conclude_track]
  · simp [dispatch_of_not_started h]

@[simp] theorem dispatch_active : t.dispatch.1.active = t.active := by
  by_cases h : t.phase = .started
  · simp [dispatch_of_started h, conclude_track]
  · simp [dispatch_of_not_started h]

@[simp] theorem dispatch_endOfStream : t.dispatch.1.endOfStream = t.endOfStream := by
  by_cases h : t.phase = .started
  · simp [dispatch_of_started h, conclude_track]
  · simp [dispatch_of_not_started h]

@[simp] theorem dispatch_depth : t.dispatch.1.depth = t.depth := by
  by_cases h : t.phase = .started
  · simp [dispatch_of_started h, conclude_track]
  · simp [dispatch_of_not_started h]

theorem served_conclude (u : Track) (evs : List Event) : served (conclude u evs).2.1 = served evs := by
  by_cases h : u.Ends
  · simp [conclude_of_ends h]
  · simp [(conclude_of_not_ends h evs).2.1]

theorem dispatch_samples :
    (served t.dispatch.2.1).map Prod.fst ++ t.dispatch.1.samples ++ t.dispatch.1.overflow =
      t.samples ++ t.overflow := by
  by_cases h : t.phase = .started
  · rw [dispatch_of_started h, served_conclude, conclude_track]
    simpa [refill_queues] using serve_samples t.refill t.requests
  · simp [dispatch_of_not_started h]

theorem dispatch_tokens :
    (served t.dispatch.2.1).map Prod.snd ++ t.dispatch.1.requests = t.requests := by
  by_cases h : t.phase = .started
  · rw [dispatch_of_started h, served_conclude, conclude_track]
    simpa using serve_tokens t.refill t.requests
  · simp [dispatch_of_not_started h]

theorem refill_idle {t : Track} (h : t.Idle) : t.refill.Idle := by
  intro ha
  obtain ⟨hs, ho, hr⟩ := h ha
  simp [refill, hs, ho, hr]

theorem dispatch_sound {t : Track} (hp : t.Packed) (hi : t.Idle) : t.dispatch.1.Sound := by
  by_cases h : t.phase = .started
  · rw [dispatch_of_started h, conclude_track]
    have hu := serve_packed t.refill t.requests (refill_packed t hp.1)
    have hd := serve_drained t.refill t.requests
    have hidle := serve_idle t.refill t.requests (refill_idle hi) fun ha => (hi ha).2.2
    exact ⟨hu, fun _ => hd, hidle⟩
  · rw [dispatch_of_not_started h]
    exact ⟨hp, fun h' => absurd h' h, hi⟩

end DispatchFacts

/-- The track as a start leaves it before it answers requests: started, and emptied of samples
when the start gives a time. -/
def started (t : Track) : StartPosition → Track
  | .at _ => { t with phase := .started, samples := [], overflow := [] }
  | .current => { t with phase := .started }

theorem start_eq (t : Track) (pos : StartPosition) :
    t.start pos = ((t.started pos).dispatch.1,
      .streamStarted (t.started pos).dispatch.1.kind :: (t.started pos).dispatch.2.1,
      (t.started pos).dispatch.2.2) := by
  cases pos <;> rfl

theorem request_ok {t : Track} {token : Option UInt64} {r : Track × List Event × Signal}
    (h : t.request token = .ok r) :
    (t.phase = .started ∨ t.phase = .paused) ∧ t.active = true ∧
      ¬(t.endOfStream = true ∧ t.samples = [] ∧ t.overflow = []) ∧
      r = dispatch { t with requests := t.requests ++ [token] } := by
  unfold request at h
  split at h
  · cases h
  · cases h
  all_goals
    rename_i hp
    split at h
    · cases h
    · rename_i ha
      split at h
      · cases h
      · rename_i he
        simp only [Bool.not_eq_true', Bool.not_eq_false] at ha
        simp only [Bool.and_eq_true, List.isEmpty_iff, not_and] at he
        cases h
        exact ⟨by simp [hp], ha, fun ⟨h1, h2, h3⟩ => he ⟨h1, h2⟩ h3, rfl⟩


section Operations

variable {t : Track}

theorem activate_sound (h : t.Sound) (on : Bool) : (t.activate on).Sound := by
  unfold activate
  split
  · exact h
  · split
    · rename_i hne hon
      obtain ⟨hs, ho, -⟩ := h.idle (by simpa [hon] using hne)
      exact ⟨⟨by simp [hs], by simp [ho]⟩, fun _ => .inl hs, fun ha => by simp at ha⟩
    · exact ⟨⟨by simp, by simp⟩, fun _ => .inl rfl, fun _ => ⟨rfl, rfl, rfl⟩⟩

theorem start_sound (h : t.Sound) (pos : StartPosition) : (t.start pos).1.Sound := by
  rw [start_eq]
  apply dispatch_sound
  · cases pos
    · exact h.packed
    · exact ⟨by simp [started], by simp [started]⟩
  · intro ha
    obtain ⟨hs, ho, hr⟩ := h.idle (by cases pos <;> simpa [started] using ha)
    cases pos <;> simp [started, hs, ho, hr]

theorem pause_sound (h : t.Sound) : t.pause.1.Sound :=
  ⟨h.packed, fun hp => by simp [pause] at hp, h.idle⟩

theorem stop_sound : t.stop.1.Sound :=
  ⟨⟨by simp [stop], by simp [stop]⟩, fun _ => .inl rfl, fun _ => ⟨rfl, rfl, rfl⟩⟩

theorem shutdown_sound : t.shutdown.Sound :=
  ⟨⟨by simp [shutdown], by simp [shutdown]⟩, fun _ => .inl rfl, fun _ => ⟨rfl, rfl, rfl⟩⟩

theorem markEnd_sound (h : t.Sound) : t.markEnd.1.Sound :=
  dispatch_sound h.packed h.idle

theorem request_sound (h : t.Sound) {token : Option UInt64} {r : Track × List Event × Signal}
    (hr : t.request token = .ok r) : r.1.Sound := by
  obtain ⟨-, ha, -, rfl⟩ := request_ok hr
  exact dispatch_sound h.packed fun hna => by simp [ha] at hna

theorem deliver_sound (h : t.Sound) (s : Sample) : (t.deliver s).1.Sound := by
  unfold deliver
  split
  · exact h
  · rename_i ha
    simp only [Bool.not_eq_true', Bool.not_eq_false] at ha
    have hidle : ∀ u : Track, u.active = t.active → u.Idle := fun u hu hna => by simp [hu, ha] at hna
    split
    · rename_i hroom
      simp only [Bool.and_eq_true, decide_eq_true_eq, List.isEmpty_iff] at hroom
      refine dispatch_sound ⟨?_, ?_⟩ (hidle _ rfl)
      · simp only [List.length_append, List.length_singleton]
        omega
      · simp [hroom.2]
    · rename_i hfull
      simp only [Bool.and_eq_true, decide_eq_true_eq, List.isEmpty_iff, not_and] at hfull
      refine dispatch_sound ⟨h.packed.1, fun _ => ?_⟩ (hidle _ rfl)
      by_cases hlt : t.samples.length < t.depth
      · exact h.packed.2 (hfull hlt)
      · have := h.packed.1
        simp only
        omega

end Operations


end Track

/-- An operation the demuxer applies to a track. -/
inductive TrackOp where
  | activate (on : Bool)
  | start (pos : StartPosition)
  | pause
  | stop
  | shutdown
  | markEnd
  | request (token : Option UInt64)
  | deliver (sample : Sample)
  deriving Repr

namespace Track

/-- Carries out an operation: the track after it, and the events it reports or the error that
refused it. A refused request leaves the track as it was. -/
def perform (t : Track) : TrackOp → Track × Except SourceError (List Event)
  | .activate on => (t.activate on, .ok [])
  | .start pos => ((t.start pos).1, .ok (t.start pos).2.1)
  | .pause => (t.pause.1, .ok t.pause.2)
  | .stop => (t.stop.1, .ok t.stop.2)
  | .shutdown => (t.shutdown, .ok [])
  | .markEnd => (t.markEnd.1, .ok t.markEnd.2.1)
  | .request token =>
    match t.request token with
    | .ok r => (r.1, .ok r.2.1)
    | .error e => (t, .error e)
  | .deliver s => ((t.deliver s).1, .ok (t.deliver s).2.1)

end Track

/-- The books of a track kept from outside, from what each operation was given and what it
answered: whether the track is selected, the samples given to it while selected, the tokens of
the requests it accepted, and the samples and tokens it sent out, each since the operation that
last dropped them. -/
structure Ledger where
  selected : Bool := false
  given : List Sample := []
  accepted : List (Option UInt64) := []
  sentSamples : List Sample := []
  sentTokens : List (Option UInt64) := []

namespace Ledger

/-- Books the samples and tokens a list of events sends out. -/
def book (L : Ledger) (evs : List Event) : Ledger :=
  { L with sentSamples := L.sentSamples ++ (served evs).map Prod.fst
           sentTokens := L.sentTokens ++ (served evs).map Prod.snd }

/-- Forgets the samples, as a stop, a deselection, a shutdown and a start at a time drop them. -/
def dropSamples (L : Ledger) : Ledger := { L with given := [], sentSamples := [] }

/-- Forgets the requests, as a stop, a deselection and a shutdown drop them. -/
def dropRequests (L : Ledger) : Ledger := { L with accepted := [], sentTokens := [] }

/-- Books one operation from what it was given and what it answered. -/
def record (L : Ledger) : TrackOp → Except SourceError (List Event) → Ledger
  | _, .error _ => L
  | .activate on, .ok _ =>
    if on then { L with selected := true } else { L.dropSamples.dropRequests with selected := false }
  | .start (.at _), .ok evs => L.dropSamples.book evs
  | .stop, .ok evs => L.dropSamples.dropRequests.book evs
  | .shutdown, .ok _ => { L.dropSamples.dropRequests with selected := false }
  | .request token, .ok evs => { L with accepted := L.accepted ++ [token] }.book evs
  | .deliver s, .ok evs => (if L.selected then { L with given := L.given ++ [s] } else L).book evs
  | _, .ok evs => L.book evs

/-- The books match the track: the samples sent, then those the track holds, are those it was
given, and the tokens sent, then those still waiting, are those of the requests it accepted. -/
def Books (L : Ledger) (t : Track) : Prop :=
  L.selected = t.active ∧ L.sentSamples ++ t.samples ++ t.overflow = L.given ∧
    L.sentTokens ++ t.requests = L.accepted

theorem book_of_served_nil (L : Ledger) {evs : List Event} (h : served evs = []) : L.book evs = L := by
  simp [book, h]

theorem books_dispatch {L : Ledger} {t : Track} (h : L.Books t) :
    (L.book t.dispatch.2.1).Books t.dispatch.1 := by
  obtain ⟨hsel, hs, hr⟩ := h
  refine ⟨by simp [book, hsel], ?_, ?_⟩
  · have hd := Track.dispatch_samples t
    simp only [List.append_assoc] at hd
    simp only [book, ← hs, List.append_assoc, hd]
  · have hd := Track.dispatch_tokens t
    simp only [book, ← hr, List.append_assoc, hd]

theorem books_perform {L : Ledger} {t : Track} (hs : t.Sound) (hb : L.Books t) (op : TrackOp) :
    (L.record op (t.perform op).2).Books (t.perform op).1 := by
  obtain ⟨hsel, hsam, hreq⟩ := hb
  cases op with
  | activate on =>
    simp only [Track.perform, record]
    unfold Track.activate
    by_cases heq : t.active = on
    · rw [if_pos heq]
      cases on
      · obtain ⟨hs', ho, hr⟩ := hs.idle heq
        simp [Books, dropSamples, dropRequests, heq, hs', ho, hr]
      · exact ⟨heq.symm, hsam, hreq⟩
    · rw [if_neg heq]
      cases on
      · simp [Books, dropSamples, dropRequests]
      · exact ⟨rfl, hsam, hreq⟩
  | start pos =>
    simp only [Track.perform, Track.start_eq]
    cases pos
    · have hd := books_dispatch (L := L) (t := t.started .current) ⟨hsel, hsam, hreq⟩
      simpa [record, book] using hd
    · rename_i time
      have hd := books_dispatch (L := L.dropSamples) (t := t.started (.at time))
        ⟨hsel, by simp [dropSamples, Track.started], hreq⟩
      simpa [record, book] using hd
  | pause =>
    refine ⟨?_, ?_, ?_⟩ <;> cases ha : t.active <;>
      simp [Track.perform, Track.pause, record, book, ha, hsel, hsam, hreq]
  | stop =>
    refine ⟨?_, ?_, ?_⟩ <;> cases ha : t.active <;>
      simp [Track.perform, Track.stop, record, book, dropSamples, dropRequests, ha, hsel]
  | shutdown =>
    simp [Books, Track.perform, Track.shutdown, record, dropSamples, dropRequests]
  | markEnd =>
    exact books_dispatch (L := L) (t := { t with endOfStream := true }) ⟨hsel, hsam, hreq⟩
  | request token =>
    simp only [Track.perform]
    split
    · rename_i r hr
      obtain ⟨-, -, -, rfl⟩ := Track.request_ok hr
      exact books_dispatch ⟨hsel, hsam, by simp [← hreq]⟩
    · exact ⟨hsel, hsam, hreq⟩
  | deliver s =>
    simp only [Track.perform, record, hsel]
    cases ha : t.active
    · have hd : t.deliver s = (t, [], .none) := by simp [Track.deliver, ha]
      simp only [hd, Bool.false_eq_true, if_false, book_of_served_nil L served_nil]
      exact ⟨hsel, hsam, hreq⟩
    · simp only [if_true]
      by_cases hroom : t.samples.length < t.depth ∧ t.overflow = []
      · have hd : t.deliver s = Track.dispatch { t with samples := t.samples ++ [s] } := by
          simp [Track.deliver, ha, hroom]
        rw [hd]
        exact books_dispatch ⟨by simp [ha], by simp [← hsam, hroom.2], hreq⟩
      · have hd : t.deliver s = Track.dispatch { t with overflow := t.overflow ++ [s] } := by
          simp [Track.deliver, ha, hroom]
        rw [hd]
        exact books_dispatch ⟨by simp [ha], by simp [← hsam], hreq⟩

end Ledger


namespace Track

theorem perform_sound {t : Track} (hs : t.Sound) (op : TrackOp) : (t.perform op).1.Sound := by
  cases op with
  | activate on => exact activate_sound hs on
  | start pos => exact start_sound hs pos
  | pause => exact pause_sound hs
  | stop => exact stop_sound
  | shutdown => exact shutdown_sound
  | markEnd => exact markEnd_sound hs
  | request token =>
    simp only [perform]
    split
    · exact request_sound hs ‹_›
    · exact hs
  | deliver s => exact deliver_sound hs s

@[simp] theorem perform_depth (t : Track) (op : TrackOp) : (t.perform op).1.depth = t.depth := by
  cases op with
  | activate on =>
    simp only [perform, activate]
    split
    · rfl
    · split <;> rfl
  | request token =>
    simp only [perform]
    split
    · rename_i r hr
      obtain ⟨-, -, -, rfl⟩ := request_ok hr
      simp
    · rfl
  | deliver s =>
    simp only [perform, deliver]
    split
    · rfl
    · split <;> simp
  | start pos => cases pos <;> simp [perform, start_eq, started]
  | _ => simp [perform, pause, stop, shutdown, markEnd]

/-- A track after operations in turn, beside its books kept from what each operation was given
and what it answered. -/
def replay (t : Track) (L : Ledger) : List TrackOp → Track × Ledger
  | [] => (t, L)
  | op :: ops => (t.perform op).1.replay (L.record op (t.perform op).2) ops

theorem replay_sound {t : Track} {L : Ledger} (hs : t.Sound) (hb : L.Books t) (ops : List TrackOp) :
    (t.replay L ops).1.Sound ∧ (t.replay L ops).2.Books (t.replay L ops).1 := by
  induction ops generalizing t L with
  | nil => exact ⟨hs, hb⟩
  | cons op ops ih => exact ih (perform_sound hs op) (Ledger.books_perform hs hb op)

@[simp] theorem replay_depth (t : Track) (L : Ledger) (ops : List TrackOp) :
    (t.replay L ops).1.depth = t.depth := by
  induction ops generalizing t L with
  | nil => rfl
  | cons op ops ih => simp [replay, ih]

theorem new_sound (k : TrackKind) (d : Nat) : (Track.new k d).Sound :=
  ⟨⟨by simp [Track.new], by simp [Track.new]⟩, fun _ => .inl rfl, fun _ => ⟨rfl, rfl, rfl⟩⟩

/-- Whatever a track of depth `d` is put through, its ready samples fit the depth, samples are
held back only behind a full ready list, and a started track never holds a ready sample beside an
unanswered request. Nothing is lost or made up on the way: the samples it sent out, followed by
those it holds ready and held back, are the samples it was given while selected since they were
last dropped, in order; the tokens it sent out, followed by the requests still waiting, are those
of the requests it accepted since they were last dropped. Every sample goes out in one event with
the token it answers. -/
theorem replay_new_lossless (k : TrackKind) (d : Nat) (ops : List TrackOp) :
    let r := (Track.new k d).replay {} ops
    r.1.samples.length ≤ d ∧ (r.1.overflow ≠ [] → r.1.samples.length = d) ∧
      (r.1.phase = .started → r.1.samples = [] ∨ r.1.requests = []) ∧
      r.2.sentSamples ++ r.1.samples ++ r.1.overflow = r.2.given ∧
      r.2.sentTokens ++ r.1.requests = r.2.accepted := by
  intro r
  obtain ⟨⟨⟨hle, hfull⟩, hdrained, -⟩, -, hsam, hreq⟩ :=
    replay_sound (new_sound k d) (L := {}) ⟨rfl, rfl, rfl⟩ ops
  have hd : r.1.depth = d := by simp [r, Track.new]
  exact ⟨hd ▸ hle, hd ▸ hfull, hdrained, hsam, hreq⟩

end Track

end FlvDemux.Engine
