import FlvDemux.Engine.Event
import Mathlib.Data.List.Induction

/-!
# The event log of a demuxer

The accounting of ends is a property of the event log, read through a few views: the events since
the last stop, those since the last start, and the selection of the latest start. `Every rule L`
says each event passes `rule` against the events before it; a run of `Plain` events leaves every
view as it was, or extends it.
-/

namespace FlvDemux.Engine

namespace Event

/-- Whether an event is a stop of the demuxer. -/
def isStop : Event → Bool
  | .sourceStopped => true
  | _ => false

/-- Whether an event is a start of the demuxer reporting itself. -/
def isStart : Event → Bool
  | .sourceStarted => true
  | _ => false

/-- Whether an event announces the track of kind `k` to a start. -/
def announces (k : TrackKind) : Event → Bool
  | .newStream j | .updatedStream j => j == k
  | _ => false

/-- Whether an event is a start, a stop or an announcement: what delimits the views. -/
def isControl : Event → Bool
  | .newStream _ | .updatedStream _ | .sourceStarted | .sourceStopped => true
  | _ => false

/-- Whether the accounting reads an event: a start, a stop, an announcement or an end. -/
def isMark : Event → Bool
  | .endOfStream _ | .endOfPresentation => true
  | e => e.isControl

end Event

/-- The events after the last one that `p` picks; all of them when it picks none. -/
def afterLast (p : Event → Bool) (L : List Event) : List Event :=
  L.foldl (fun acc e => if p e then [] else acc ++ [e]) []

/-- The events of the current epoch: those after the last stop. -/
def sinceStop (L : List Event) : List Event := afterLast Event.isStop L

/-- The events after the last start reported itself. -/
def sinceStart (L : List Event) : List Event := afterLast Event.isStart L

/-- The latest start has reported itself, and no stop came after it. -/
def LiveStart (L : List Event) : Prop := .sourceStarted ∈ L ∧ .sourceStopped ∉ sinceStart L

/-- The tracks of the latest start that has reported itself, and those a start still under way
has announced since. -/
structure Selection where
  latest : List TrackKind := []
  announced : List TrackKind := []

/-- Reads one event into a selection: a start announces its tracks, then reports itself. -/
def Selection.read (x : Selection) : Event → Selection
  | .newStream k | .updatedStream k => { x with announced := x.announced ++ [k] }
  | .sourceStarted => { latest := x.announced, announced := [] }
  | _ => x

def selection (L : List Event) : Selection := L.foldl Selection.read {}

/-- Each event of a log passes `rule`, judged against the events before it. -/
def Every (rule : List Event → Event → Prop) (L : List Event) : Prop :=
  ∀ pre e post, L = pre ++ e :: post → rule pre e

/-- The rule the ends follow, for an event after the events `pre`: a track reports its end at
most once in an epoch; the presentation ends at most once per start, after that start reported
itself and before any stop, and only once every track of that start has ended in the epoch. -/
def EndRule (pre : List Event) : Event → Prop
  | .endOfStream k => .endOfStream k ∉ sinceStop pre
  | .endOfPresentation =>
    LiveStart pre ∧ .endOfPresentation ∉ sinceStart pre ∧
      ∀ k ∈ (selection pre).latest, .endOfStream k ∈ sinceStop pre
  | _ => True

/-- A track delivers no sample after it has reported its end in the epoch. -/
def SampleRule (pre : List Event) : Event → Prop
  | .sample k _ _ => .endOfStream k ∉ sinceStop pre
  | _ => True

/-- The presentation ends when it should: once every track of a live start has ended in the
epoch, one of them after that start announced it, the presentation has ended since the start. -/
def Concludes (L : List Event) : Prop :=
  LiveStart L → (∀ k ∈ (selection L).latest, .endOfStream k ∈ sinceStop L) →
    (∃ k ∈ (selection L).latest, .endOfStream k ∈ afterLast (Event.announces k) L) →
    .endOfPresentation ∈ sinceStart L

/-- Events with no start, stop or announcement among them. -/
def Steady (M : List Event) : Prop := ∀ e ∈ M, e.isControl = false

/-- Events the accounting does not read. -/
def Plain (M : List Event) : Prop := ∀ e ∈ M, e.isMark = false

section AfterLast

variable (p : Event → Bool)

@[simp] theorem afterLast_nil : afterLast p [] = [] := rfl

theorem afterLast_concat (L : List Event) (e : Event) :
    afterLast p (L ++ [e]) = if p e then [] else afterLast p L ++ [e] := by
  simp only [afterLast, List.foldl_append, List.foldl_cons, List.foldl_nil]

variable {p}

theorem afterLast_append_of_forall {L M : List Event} (h : ∀ e ∈ M, p e = false) :
    afterLast p (L ++ M) = afterLast p L ++ M := by
  induction M generalizing L with
  | nil => simp
  | cons e M ih =>
    have he : p e = false := h e List.mem_cons_self
    rw [List.append_cons, ih fun x hx => h x (List.mem_cons_of_mem e hx), afterLast_concat,
      if_neg (by simp [he]), List.append_assoc, List.singleton_append]

theorem afterLast_append_cons {L M : List Event} {e : Event} (he : p e = true) :
    afterLast p (L ++ e :: M) = afterLast p M := by
  simp only [afterLast, List.foldl_append, List.foldl_cons, he, if_true]

theorem mem_of_mem_afterLast {L : List Event} {e : Event} (h : e ∈ afterLast p L) : e ∈ L := by
  induction L using List.reverseRecOn with
  | nil => simp at h
  | append_singleton L x ih =>
    rw [afterLast_concat] at h
    split at h
    · simp at h
    · rcases List.mem_append.1 h with h | h
      · exact List.mem_append_left _ (ih h)
      · exact List.mem_append_right _ h

end AfterLast

section Every

variable {rule : List Event → Event → Prop} {L M : List Event}

theorem every_nil (rule : List Event → Event → Prop) : Every rule [] := by
  intro pre e post h
  simp at h

theorem every_append :
    Every rule (L ++ M) ↔ Every rule L ∧ Every (fun pre => rule (L ++ pre)) M := by
  constructor
  · intro h
    exact ⟨fun pre e post hL => h pre e (post ++ M) (by simp [hL]),
      fun pre e post hM => h (L ++ pre) e post (by simp [hM])⟩
  · rintro ⟨hL, hM⟩ pre e post h
    rcases List.append_eq_append_iff.1 h with ⟨as, hpre, hM'⟩ | ⟨bs, hL', hpost⟩
    · rw [hpre]
      exact hM as e post hM'
    · rcases List.cons_eq_append_iff.1 hpost with ⟨rfl, hM'⟩ | ⟨as', rfl, -⟩
      · simpa [hL'] using hM [] e post hM'
      · exact hL pre e as' hL'

theorem every_concat {e : Event} : Every rule (L ++ [e]) ↔ Every rule L ∧ rule L e := by
  rw [every_append]
  constructor
  · rintro ⟨hL, h⟩
    exact ⟨hL, by simpa using h [] e [] rfl⟩
  · rintro ⟨hL, h⟩
    refine ⟨hL, fun pre x post hx => ?_⟩
    cases pre with
    | nil =>
      cases hx
      simpa using h
    | cons y pre => simp at hx

end Every

namespace Steady

variable {M M' : List Event}

theorem nil : Steady [] := fun _ h => absurd h List.not_mem_nil

theorem append (h : Steady M) (h' : Steady M') : Steady (M ++ M') := by
  intro e he
  rcases List.mem_append.1 he with he | he
  · exact h e he
  · exact h' e he

theorem singleton {e : Event} (he : e.isControl = false) : Steady [e] := by
  simpa [Steady] using he

theorem sinceStop_append (h : Steady M) (L : List Event) :
    sinceStop (L ++ M) = sinceStop L ++ M :=
  afterLast_append_of_forall fun e he => by
    have := h e he
    cases e <;> simp_all [Event.isControl, Event.isStop]

theorem sinceStart_append (h : Steady M) (L : List Event) :
    sinceStart (L ++ M) = sinceStart L ++ M :=
  afterLast_append_of_forall fun e he => by
    have := h e he
    cases e <;> simp_all [Event.isControl, Event.isStart]

theorem afterLast_announces (h : Steady M) (k : TrackKind) (L : List Event) :
    afterLast (Event.announces k) (L ++ M) = afterLast (Event.announces k) L ++ M :=
  afterLast_append_of_forall fun e he => by
    have := h e he
    cases e <;> simp_all [Event.isControl, Event.announces]

theorem selection_append (h : Steady M) (L : List Event) : selection (L ++ M) = selection L := by
  induction M generalizing L with
  | nil => simp
  | cons e M ih =>
    have he : e.isControl = false := h e List.mem_cons_self
    have hread : ∀ x : Selection, x.read e = x := by
      intro x
      cases e <;> simp_all [Event.isControl, Selection.read]
    rw [List.append_cons, ih (fun x hx => h x (List.mem_cons_of_mem e hx))]
    simp only [selection, List.foldl_append, List.foldl_cons, List.foldl_nil, hread]

theorem liveStart_append (h : Steady M) (L : List Event) : LiveStart (L ++ M) ↔ LiveStart L := by
  unfold LiveStart
  have hs : .sourceStarted ∉ M := fun hm => by simpa [Event.isControl] using h _ hm
  have ht : .sourceStopped ∉ M := fun hm => by simpa [Event.isControl] using h _ hm
  simp [h.sinceStart_append, hs, ht]

end Steady

namespace Plain

variable {M M' : List Event}

theorem nil : Plain [] := fun _ h => absurd h List.not_mem_nil

theorem append (h : Plain M) (h' : Plain M') : Plain (M ++ M') := by
  intro e he
  rcases List.mem_append.1 he with he | he
  · exact h e he
  · exact h' e he

theorem steady (h : Plain M) : Steady M := fun e he => by
  have := h e he
  cases e <;> simp_all [Event.isMark, Event.isControl]

theorem not_mem (h : Plain M) {e : Event} (he : e.isMark = true) : e ∉ M := fun hm => by
  simp [h e hm] at he

theorem mem_append_iff (h : Plain M) {e : Event} (he : e.isMark = true) (X : List Event) :
    e ∈ X ++ M ↔ e ∈ X := by
  simp [List.mem_append, h.not_mem he]

theorem every_end (h : Plain M) (L : List Event) : Every EndRule (L ++ M) ↔ Every EndRule L := by
  rw [every_append]
  refine ⟨And.left, fun hL => ⟨hL, fun pre e post hM => ?_⟩⟩
  have he : e.isMark = false := h e (by simp [hM])
  cases e <;> simp_all [Event.isMark, Event.isControl, EndRule]

theorem concludes (h : Plain M) {L : List Event} (hc : Concludes L) : Concludes (L ++ M) := by
  intro hlive hall hone
  rw [h.steady.liveStart_append] at hlive
  rw [h.steady.selection_append] at hall hone
  obtain ⟨k, hk, hm⟩ := hone
  rw [h.steady.afterLast_announces, h.mem_append_iff (e := .endOfStream k) rfl] at hm
  rw [h.steady.sinceStart_append, h.mem_append_iff (e := .endOfPresentation) rfl]
  refine hc hlive (fun j hj => ?_) ⟨k, hk, hm⟩
  have := hall j hj
  rwa [h.steady.sinceStop_append, h.mem_append_iff (e := .endOfStream j) rfl] at this

end Plain

end FlvDemux.Engine
