import FlvDemux.Proofs.EngineSteps
import FlvDemux.Proofs.Chain

/-!
# The demuxer walks the chain of tags of its file

`Walking f e s` says a read of the current session is always where the walk of the chain of tags
of `f` needs it, the next tag header being read at `e`, whatever the client does and however the
reads complete; a stop or the end of the open sends the walk back to the first media tag.
-/

namespace FlvDemux.Engine

open Flv

def Task.isRead : Task → Bool
  | .read .. => true
  | _ => false

/-- Whether the bytes of a read are only ever asked for by the scan at open. -/
def ReadStep.scanOnly : ReadStep → Bool
  | .fileHeader | .scriptPayload _ => true
  | _ => false

namespace Source

/-- Where the stream of a demuxer stands; 0 without a stream. -/
def position (s : Source) : Nat := (s.stream.map (·.position)).getD 0

/-- Where the demuxer reads its next tag header when it reads one (`readNextTag`): the first
media tag after a stop, past the size field of the previous tag while walking, where the stream
stands right after open. -/
def nextHeaderAt (s : Source) : Nat :=
  if s.rewindPending then s.survey.firstMediaOffset
  else if s.skipPrefix then s.position + previousTagSizeLength else s.position

end Source

/-- A read of `n` bytes at `o` lies in the tag of `f` with header `tag`, `c` bytes into its data
and not past the end of `f`, and the walk goes on at `e`, after the tag. -/
def InTag (f : List UInt8) (tag : TagHeader) (c o n e : Nat) : Prop :=
  ∃ h, tagAt f h = some tag ∧ o = h + tagHeaderLength + c ∧ o ≤ f.length ∧
    c + n ≤ tag.dataSize.toNat ∧ e = nextTagOffset h tag

/-- A read of `n` bytes at `o` for `step` is the read a walk of `f` that goes on at `e` needs:
the file header at the front; a tag header where the walk is, or anywhere past the end of the
file when the walk is too; and the pieces of a tag in order, each packet within its tag. -/
def ReadStep.Fits (f : List UInt8) (o n e : Nat) : ReadStep → Prop
  | .fileHeader => o = 0 ∧ n = fileHeaderLength ∧ e = fileHeaderLength + previousTagSizeLength
  | .tagHeader => n = tagHeaderLength ∧ (o = e ∨ f.length ≤ o ∧ f.length < e + tagHeaderLength)
  | .scriptPayload tag => n = tag.dataSize.toNat ∧ InTag f tag 0 o n e
  | .audioHeader tag | .videoHeader tag => n = 1 ∧ InTag f tag 0 o n e
  | .aacPacketType p => n = 1 ∧ p.audio.isAac ∧ InTag f p.tag 1 o n e
  | .audioPayload p => n = p.payloadLength ∧ p.subHeaderLength ≤ p.tag.dataSize.toNat ∧
      InTag f p.tag p.subHeaderLength o n e
  | .avcPacketHeader p => n = AvcPacketHeader.length ∧ p.video.isAvc ∧ InTag f p.tag 1 o n e
  | .videoPayload p => n = p.payloadLength ∧ p.subHeaderLength ≤ p.tag.dataSize.toNat ∧
      InTag f p.tag p.subHeaderLength o n e

/-- The read of `n` bytes at `o` the demuxer waits for fits the walk, and the stream stands at
`o`: nothing moves it while a read of the current session is out. -/
structure Awaiting (f : List UInt8) (e : Nat) (s : Source) (o n : Nat) : Prop where
  step : ∃ step, s.pending = some step ∧ step.Fits f o n e ∧
    (s.phase ≠ .opening → step.scanOnly = false)
  position : s.position = o
  rewind : s.rewindPending = false
  skip : s.skipPrefix = true
  phase : s.phase = .opening ∨ s.phase = .started ∨ s.phase = .paused

/-- With no read of the current session out, the next tag header is read where the walk is, or
both are past the end of the file. A stopped demuxer stands at its first media tag. -/
structure Resting (f : List UInt8) (e : Nat) (s : Source) : Prop where
  phase : s.phase ≠ .opening
  stopped : s.phase = .stopped → e = s.survey.firstMediaOffset ∧ s.nextHeaderAt = e
  next : s.phase ≠ .invalid →
    s.nextHeaderAt = e ∨ f.length ≤ s.nextHeaderAt ∧ f.length < e + tagHeaderLength

/-- A live demuxer of the file `f` whose walk reads its next tag header at `e`, a tag of the
chain. At most one read is queued, exactly while one is out; at most one control operation,
exactly while one is accepted. The read of the current session is where the walk needs it; a
stale read finds a rewind pending. -/
structure Walking (f : List UInt8) (e : Nat) (s : Source) : Prop where
  live : s.phase ≠ .shutdown
  word : s.session.word &&& shutdownBit = 0
  reads : s.tasks.countP Task.isRead = if s.readInFlight then 1 else 0
  controls : s.tasks.countP (fun t => !t.isRead) = if s.pendingOp then 1 else 0
  pending : s.pending.isSome = true → s.readInFlight = true
  stream : s.phase = .invalid ∨ ∃ st, s.stream = some st ∧ st.data = f
  invalid : s.phase = .invalid → s.tasks = [] ∧ s.readInFlight = false ∧
    s.rewindPending = false ∧ s.skipPrefix = true ∧ e = fileHeaderLength + previousTagSizeLength
  opening : s.phase = .opening → s.pendingOp = false
  first : OnChain f s.survey.firstMediaOffset
  chain : OnChain f e
  current : ∀ o n, Task.read s.session.word o n ∈ s.tasks → Awaiting f e s o n
  stale : ∀ t o n, Task.read t o n ∈ s.tasks → t ≠ s.session.word →
    s.rewindPending = true ∧ s.phase ≠ .opening
  resting : (∀ o n, Task.read s.session.word o n ∉ s.tasks) → Resting f e s

/-- A demuxer that is shut down for good, or one walking its file. -/
def Sound (f : List UInt8) (e : Nat) (s : Source) : Prop :=
  (s.phase = .shutdown ∧ s.session.word &&& shutdownBit ≠ 0) ∨ Walking f e s

/-- No read is queued or out and the stream of `f` stands at `q`; the rest is as `Walking`
has it. Inside a step, between the completion of one read and the issue of the next. -/
structure Idle (f : List UInt8) (q : Nat) (s : Source) : Prop where
  live : s.phase ≠ .shutdown ∧ s.phase ≠ .invalid
  word : s.session.word &&& shutdownBit = 0
  reads : s.tasks.countP Task.isRead = 0
  controls : s.tasks.countP (fun t => !t.isRead) = if s.pendingOp then 1 else 0
  inFlight : s.readInFlight = false
  pending : s.pending = none
  stream : ∃ st, s.stream = some st ∧ st.data = f ∧ st.position = q
  opening : s.phase = .opening → s.pendingOp = false
  first : OnChain f s.survey.firstMediaOffset

section Tasks

@[simp] theorem Task.isRead_read (t : UInt64) (o n : Nat) : (Task.read t o n).isRead = true := rfl

theorem not_mem_of_countP_isRead {ts : List Task} (h : ts.countP Task.isRead = 0) (t : UInt64)
    (o n : Nat) : Task.read t o n ∉ ts := fun hm =>
  absurd h (List.countP_pos_iff.2 ⟨_, hm, rfl⟩).ne'

end Tasks

namespace Idle

variable {f : List UInt8} {q : Nat} {s : Source}

theorem quiet (hi : Idle f q s) {s' : Source} (hq : s.Quiet s') : Idle f q s' := by
  rw [hq]
  exact ⟨hi.live, hi.word, hi.reads, hi.controls, hi.inFlight, hi.pending, hi.stream, hi.opening,
    hi.first⟩

theorem move (hi : Idle f q s) {st : ByteStream} (hs : s.stream = some st) (q' : Nat) :
    Idle f q' { s with stream := some { st with position := q' } } := by
  obtain ⟨st', hst', hd, -⟩ := hi.stream
  rw [hs] at hst'
  cases hst'
  exact ⟨hi.live, hi.word, hi.reads, hi.controls, hi.inFlight, hi.pending, ⟨_, rfl, hd, rfl⟩,
    hi.opening,
    hi.first⟩

theorem position (hi : Idle f q s) : s.position = q := by
  obtain ⟨st, hs, -, hq⟩ := hi.stream
  simp [Source.position, hs, hq]

theorem skip (hi : Idle f q s) {k : Nat} (hk : q + k ≤ maxPosition) :
    ∃ st, s.stream = some st ∧
      Step.exec (skipBytes k) s = (.ok (), { s with stream := some { st with position := q + k } }) := by
  obtain ⟨st, hs, -, hq⟩ := hi.stream
  refine ⟨st, hs, ?_⟩
  rw [skipBytes_ok hs (ByteStream.seek_current st (by omega)), hq]

theorem issued (hi : Idle f q s) {step : ReadStep} {n e : Nat} (hfit : step.Fits f q n e)
    (hscan : s.phase ≠ .opening → step.scanOnly = false) (hr : s.rewindPending = false)
    (hk : s.skipPrefix = true) (hph : s.phase = .opening ∨ s.phase = .started ∨ s.phase = .paused)
    (he : OnChain f e) :
    Walking f e { s with readInFlight := true, pending := some step,
                         tasks := s.tasks ++ [.read s.session.ticket q n] } := by
  have hnone := not_mem_of_countP_isRead hi.reads
  have hmem : ∀ t o m, Task.read t o m ∈ s.tasks ++ [.read s.session.ticket q n] →
      t = s.session.word ∧ o = q ∧ m = n := by
    intro t o m h
    simp only [List.mem_append, List.mem_singleton, Task.read.injEq] at h
    rcases h with h | ⟨rfl, rfl, rfl⟩
    · exact absurd h (hnone _ _ _)
    · exact ⟨rfl, rfl, rfl⟩
  refine ⟨hi.live.1, hi.word, ?_, ?_, fun _ => rfl, .inr ?_, fun h => absurd h hi.live.2, hi.opening,
    hi.first, he, ?_, ?_, ?_⟩
  · simp [List.countP_append, hi.reads]
  · simp [List.countP_append, hi.controls]
  · obtain ⟨st, hs, hd, -⟩ := hi.stream
    exact ⟨st, hs, hd⟩
  · intro o m h
    obtain ⟨-, rfl, rfl⟩ := hmem _ _ _ h
    exact ⟨⟨step, rfl, hfit, hscan⟩, hi.position, hr, hk, hph⟩
  · intro t o m h hne
    exact absurd (hmem _ _ _ h).1 hne
  · intro h
    exact absurd (List.mem_append_right _ (List.mem_singleton_self _)) (h q n)

end Idle

theorem guarded_run (m : Step Unit) (s : Source) :
    (guarded m).run s = match Step.exec m s with
      | (.ok (), s') => ((), s')
      | (.error e, s') => (fail e).run s' := by
  simp only [guarded, StateT.run_bind, bind_id_eq]
  rcases h : Step.exec m s with ⟨r, s'⟩
  simp only [Step.exec] at h
  rw [h]
  cases r <;> rfl

theorem guarded_ok {m : Step Unit} {s s' : Source} (h : Step.exec m s = (.ok (), s')) :
    (guarded m).run s = ((), s') := by
  rw [guarded_run, h]

theorem guarded_error {m : Step Unit} {s s' : Source} {e : SourceError}
    (h : Step.exec m s = (.error e, s')) : (guarded m).run s = (fail e).run s' := by
  rw [guarded_run, h]

theorem fail_session {s : Source} (h : s.phase ≠ .shutdown) (e : SourceError) :
    ((fail e).run s).2.session = s.session.shutdown := by
  simp only [fail, StateT.run_bind, StateT.run_get, bind_id_eq, pure_id_eq]
  split <;> exact shutdownNow_session h

theorem readNextTag_exec (s : Source) : Step.exec readNextTag s =
    Step.exec (issueRead .tagHeader
      (if s.rewindPending then some (.start s.survey.firstMediaOffset)
       else if s.skipPrefix then some (.current previousTagSizeLength) else none)
      tagHeaderLength) { s with rewindPending := false, skipPrefix := true } := by
  simp only [readNextTag, Step.exec_bind, Step.exec_get, Step.exec_set]


theorem ByteStream.seek_current_past (st : ByteStream) {d : Nat} (h : maxPosition < st.position + d) :
    st.seek (.current d) = .error .seekBeforeStart := by
  simp only [ByteStream.seek, ByteStream.target]
  rw [if_neg (by omega)]

theorem issueRead_seek_error {s : Source} {st : ByteStream} (h : s.stream = some st) {t : SeekTarget}
    {f : Fault} (hs : st.seek t = .error f) (step : ReadStep) (n : Nat) :
    Step.exec (issueRead step (some t) n) s = (.error (.io f), s) := by
  simp only [issueRead, Step.exec_bind, seekStream_exec, h, hs]

theorem Idle.reset {f : List UInt8} {q : Nat} {s : Source} (hi : Idle f q s) (r k : Bool) :
    Idle f q { s with rewindPending := r, skipPrefix := k } :=
  ⟨hi.live, hi.word, hi.reads, hi.controls, hi.inFlight, hi.pending, hi.stream, hi.opening, hi.first⟩

theorem fail_sound {f : List UInt8} {e : Nat} {s : Source} (h : s.phase ≠ .shutdown)
    (err : SourceError) : Sound f e ((fail err).run s).2 := by
  left
  rw [fail_phase, fail_session h]
  exact ⟨rfl, s.session.shutdown_bit⟩

theorem readNextTag_idle {f : List UInt8} {q e : Nat} {s : Source} (hi : Idle f q s)
    (hph : s.phase = .opening ∨ s.phase = .started ∨ s.phase = .paused)
    (hnext : s.nextHeaderAt = e ∨ f.length ≤ s.nextHeaderAt ∧ f.length < e + tagHeaderLength)
    (he : OnChain f e) : Sound f e ((guarded readNextTag).run s).2 := by
  obtain ⟨st, hs, -, hq⟩ := hi.stream
  have hi0 := hi.reset false true
  have hfit : ∀ o, o = s.nextHeaderAt → ReadStep.Fits f o tagHeaderLength e .tagHeader := by
    rintro o rfl
    exact ⟨rfl, hnext⟩
  by_cases hrw : s.rewindPending = true
  · have h := issueRead_some (s := { s with rewindPending := false, skipPrefix := true }) hs
      (ByteStream.seek_start st s.survey.firstMediaOffset) .tagHeader tagHeaderLength
    rw [guarded_ok (by rw [readNextTag_exec, if_pos hrw]; exact h)]
    exact .inr ((hi0.move hs _).issued (hfit _ (by simp [Source.nextHeaderAt, hrw]))
      (fun _ => rfl) rfl rfl hph he)
  · by_cases hk : s.skipPrefix = true
    · have htarget : (if s.rewindPending then some (SeekTarget.start s.survey.firstMediaOffset)
          else if s.skipPrefix then some (SeekTarget.current previousTagSizeLength) else none) =
          some (.current previousTagSizeLength) := by simp [hrw, hk]
      by_cases hmax : q + previousTagSizeLength ≤ maxPosition
      · have h := issueRead_some (s := { s with rewindPending := false, skipPrefix := true }) hs
          (ByteStream.seek_current st (by rw [hq]; exact hmax)) .tagHeader tagHeaderLength
        rw [guarded_ok (by rw [readNextTag_exec, htarget]; exact h)]
        have hpos : st.position + previousTagSizeLength = s.nextHeaderAt := by
          simp [Source.nextHeaderAt, hrw, hk, Source.position, hs]
        exact .inr ((hi0.move hs _).issued (hfit _ hpos) (fun _ => rfl) rfl rfl hph he)
      · have hseek := st.seek_current_past (d := previousTagSizeLength) (by rw [hq]; omega)
        have h := issueRead_seek_error (s := { s with rewindPending := false, skipPrefix := true }) hs
          hseek .tagHeader tagHeaderLength
        rw [guarded_error (by rw [readNextTag_exec, htarget]; exact h)]
        exact fail_sound (by exact hi.live.1) _
    · have hk' : s.skipPrefix = false := by simpa using hk
      have h := issueRead_none (s := { s with rewindPending := false, skipPrefix := true }) hs
        .tagHeader tagHeaderLength
      rw [guarded_ok (by rw [readNextTag_exec]; simpa [hrw, hk'] using h)]
      have hpos : st.position = s.nextHeaderAt := by
        simp [Source.nextHeaderAt, hrw, hk', Source.position, hs]
      rw [hq] at hpos
      exact .inr (hq ▸ hi0.issued (hfit _ hpos) (fun _ => rfl) rfl rfl hph he)



theorem Idle.walking {f : List UInt8} {q e : Nat} {s : Source} (hi : Idle f q s)
    (hr : Resting f e s) (he : OnChain f e) : Walking f e s := by
  have hnone := not_mem_of_countP_isRead hi.reads
  refine ⟨hi.live.1, hi.word, by simp [hi.reads, hi.inFlight], hi.controls, by simp [hi.pending],
    ?_, fun h => absurd h hi.live.2, hi.opening, hi.first, he, fun o n h => absurd h (hnone _ _ _),
    fun t o n h => absurd h (hnone _ _ _), fun _ => hr⟩
  obtain ⟨st, hs, hd, -⟩ := hi.stream
  exact .inr ⟨st, hs, hd⟩

theorem Walking.idle {f : List UInt8} {e : Nat} {s : Source} (hw : Walking f e s)
    (hf : s.readInFlight = false) (hph : s.phase ≠ .invalid) : Idle f s.position s ∧ Resting f e s := by
  have hreads : s.tasks.countP Task.isRead = 0 := by simpa [hf] using hw.reads
  have hnone := not_mem_of_countP_isRead hreads
  have hpending : s.pending = none := by
    cases hp : s.pending with
    | none => rfl
    | some _ => simp [hw.pending (by simp [hp])] at hf
  obtain ⟨st, hs, hd⟩ := hw.stream.resolve_left hph
  exact ⟨⟨⟨hw.live, hph⟩, hw.word, hreads, hw.controls, hf, hpending,
    ⟨st, hs, hd, by simp [Source.position, hs]⟩, hw.opening, hw.first⟩,
    hw.resting fun o n => hnone _ _ _⟩

theorem pump_idle {f : List UInt8} {q e : Nat} {s : Source} (hi : Idle f q s) (hr : Resting f e s)
    (he : OnChain f e) : Sound f e (pump.run s).2 := by
  simp only [pump, StateT.run_bind, StateT.run_get, bind_id_eq, pure_id_eq]
  split
  · rename_i hc
    have hph : s.phase = .started ∨ s.phase = .paused := by
      simp only [Bool.and_eq_true, Bool.or_eq_true, decide_eq_true_eq] at hc
      exact hc.1.1
    exact readNextTag_idle hi (.inr hph) (hr.next hi.live.2) he
  · exact .inr (hi.walking hr he)

theorem pump_sound {f : List UInt8} {e : Nat} {s : Source} (hw : Walking f e s) :
    Sound f e (pump.run s).2 := by
  by_cases hgo : (s.phase = .started || s.phase = .paused) && !s.readInFlight && s.wantsData
  · have hf : s.readInFlight = false := by simp at hgo; exact hgo.1.2
    have hph : s.phase ≠ .invalid := by simp at hgo; rcases hgo.1.1 with h | h <;> simp [h]
    obtain ⟨hi, hr⟩ := hw.idle hf hph
    exact pump_idle hi hr hw.chain
  · simp only [pump, StateT.run_bind, StateT.run_get, bind_id_eq, pure_id_eq, if_neg hgo]
    exact .inr hw

theorem Source.Quiet.onTrack {s t : Source} (h : s.Quiet t) (k : TrackKind)
    (g : Track → Track × List Event × Signal) : s.Quiet ((onTrack k g).run t).2 :=
  h.trans (onTrack_quiet k g t)

theorem Source.Quiet.onSignal {s t : Source} (h : s.Quiet t) (sig : Signal) :
    s.Quiet ((onSignal sig).run t).2 :=
  h.trans (onSignal_quiet sig t)

theorem streamTag_endOfFile {h : TagHeader} (hk : h.isEndOfFile = true) (s : Source) :
    ∃ s', Step.exec (streamTag h) s = (.ok (), s') ∧ s.Quiet s' := by
  simp only [streamTag, hk, if_true, TrackKind.all, List.forIn_cons, List.forIn_nil, Step.exec_bind,
    Step.exec_get]
  split_ifs
  all_goals simp only [Step.exec_bind, Step.exec_lift, Step.exec_pure, Step.exec_get]
  all_goals split_ifs
  all_goals simp only [Step.exec_bind, Step.exec_lift, Step.exec_pure]
  all_goals refine ⟨_, rfl, ?_⟩
  · exact ((((Source.Quiet.refl s).onTrack _ _).onSignal _).onTrack _ _).onSignal _
  · exact ((Source.Quiet.refl s).onTrack _ _).onSignal _
  · exact ((Source.Quiet.refl s).onTrack _ _).onSignal _
  · exact .refl s
theorem Idle.nextHeaderAt {f : List UInt8} {q : Nat} {s : Source} (hi : Idle f q s)
    (hr : s.rewindPending = false) (hk : s.skipPrefix = true) :
    s.nextHeaderAt = q + previousTagSizeLength := by
  simp [Source.nextHeaderAt, hr, hk, hi.position]

theorem Idle.resting {f : List UInt8} {q e : Nat} {s : Source} (hi : Idle f q s)
    (hph : s.phase = .started ∨ s.phase = .paused) (hr : s.rewindPending = false)
    (hk : s.skipPrefix = true)
    (he : q + previousTagSizeLength = e ∨
      f.length ≤ q + previousTagSizeLength ∧ f.length < e + tagHeaderLength) : Resting f e s := by
  refine ⟨by rcases hph with h | h <;> simp [h], fun h => by rcases hph with h' | h' <;> simp [h'] at h,
    fun _ => ?_⟩
  rw [hi.nextHeaderAt hr hk]
  exact he

theorem Idle.skip_past {f : List UInt8} {q k : Nat} {s : Source} (hi : Idle f q s)
    (hk : maxPosition < q + k) :
    Step.exec (skipBytes k) s = (.error (.io .seekBeforeStart), s) := by
  obtain ⟨st, hs, -, hq⟩ := hi.stream
  simp only [skipBytes, seekStream_exec, hs, st.seek_current_past (d := k) (by omega)]

theorem pass_sound {f : List UInt8} {q k e : Nat} {s : Source} (hi : Idle f q s)
    (hph : s.phase = .started ∨ s.phase = .paused) (hr : s.rewindPending = false)
    (hs : s.skipPrefix = true) (he : q + k + previousTagSizeLength = e) (hc : OnChain f e) :
    Sound f e ((guarded (do skipBytes k; pump : Step Unit)).run s).2 := by
  by_cases hk : q + k ≤ maxPosition
  · obtain ⟨st, hst, hskip⟩ := hi.skip hk
    rw [guarded_ok (by rw [Step.exec_bind, hskip]; rfl)]
    exact pump_idle (hi.move hst _) ((hi.move hst _).resting hph hr hs (.inl he)) hc
  · rw [guarded_error (by rw [Step.exec_bind, hi.skip_past (by omega)])]
    exact fail_sound hi.live.1 _

end FlvDemux.Engine
