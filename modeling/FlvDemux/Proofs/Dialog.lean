import FlvDemux.Proofs.Reference
import FlvDemux.Proofs.VideoStretch

/-!
# What passes between a demuxer and its client

The dialog of a run lists the requests a demuxer accepted and the events it reported
(`Source.dialog`), read from its last stop on and track by track (`answers`, `asked`). The books
of a track balance against it (`Source.BalancedOn`), and every track operation keeps them so
(`Source.BalancedOn.move`).
-/

namespace FlvDemux.Engine

open Flv

/-- What passes between a demuxer and its client: a request it accepted, or an event it
reported. -/
inductive Exchange where
  | asked (k : TrackKind) (token : Option UInt64)
  | told (e : Event)
  deriving DecidableEq, Repr

namespace Exchange

/-- Whether an exchange is the report of a stop. -/
def isStop : Exchange → Bool
  | .told e => e.isStop
  | .asked _ _ => false

/-- The sample and the token of an answer on the track of kind `k`. -/
def answer? (k : TrackKind) : Exchange → Option (Sample × Option UInt64)
  | .told (.sample j x r) => if j = k then some (x, r) else none
  | _ => none

/-- The token of a request that the track of kind `k` accepted. -/
def asked? (k : TrackKind) : Exchange → Option (Option UInt64)
  | .asked j r => if j = k then some r else none
  | .told _ => none

end Exchange

/-- The answers on the track of kind `k` in a dialog, in order: each sample with its token. -/
def answers (k : TrackKind) (X : List Exchange) : List (Sample × Option UInt64) :=
  X.filterMap (Exchange.answer? k)

/-- The tokens of the requests that the track of kind `k` accepted in a dialog, in order. -/
def asked (k : TrackKind) (X : List Exchange) : List (Option UInt64) :=
  X.filterMap (Exchange.asked? k)

/-- The part of a dialog after its last stop; all of it when there is none. -/
def sinceStopped (X : List Exchange) : List Exchange :=
  (X.reverse.takeWhile fun x => !x.isStop).reverse

namespace Source

/-- What one action passes: the request, when it is accepted, then the events the action
reports. -/
def exchange (s : Source) (a : Action) : List Exchange :=
  (match a, (s.act a).1 with
    | .request k token, .ok () => [.asked k token]
    | _, _ => []) ++ ((s.act a).2.events.drop s.events.length).map .told

/-- What a run passes, action after action. -/
def dialog (s : Source) : List Action → List Exchange
  | [] => []
  | a :: as => s.exchange a ++ (s.act a).2.dialog as

end Source

section Views

variable {k j : TrackKind} {X Y : List Exchange} {M : List Event}

@[simp] theorem answers_nil : answers k [] = [] := rfl

@[simp] theorem answers_append : answers k (X ++ Y) = answers k X ++ answers k Y :=
  List.filterMap_append

@[simp] theorem asked_nil : asked k [] = [] := rfl

@[simp] theorem asked_append : asked k (X ++ Y) = asked k X ++ asked k Y :=
  List.filterMap_append

theorem answers_cons (x : Exchange) : answers k (x :: X) = (x.answer? k).toList ++ answers k X := by
  simp only [answers, List.filterMap_cons]
  cases x.answer? k <;> rfl

@[simp] theorem asked_told : asked k (M.map .told) = [] := by
  simp [asked, List.filterMap_map, Function.comp_def, Exchange.asked?]

@[simp] theorem asked_request (token : Option UInt64) :
    asked k [.asked j token] = if j = k then [token] else [] := by
  by_cases h : j = k <;> simp [asked, Exchange.asked?, h]

@[simp] theorem answers_request (token : Option UInt64) : answers k [.asked j token] = [] := rfl

@[simp] theorem answers_asked (rs : List (Option UInt64)) : answers k (rs.map (.asked j)) = [] := by
  simp [answers, List.filterMap_map, Function.comp_def, Exchange.answer?]

@[simp] theorem asked_asked (rs : List (Option UInt64)) :
    asked k (rs.map (.asked j)) = if j = k then rs else [] := by
  by_cases h : j = k <;> simp [asked, List.filterMap_map, Function.comp_def, Exchange.asked?, h]

theorem answers_told (h : OfKind j M) :
    answers k (M.map .told) = if j = k then served M else [] := by
  induction M with
  | nil => split <;> rfl
  | cons e M ih =>
    have hM : OfKind j M := ⟨fun x hx => h.1 x (List.mem_cons_of_mem e hx),
      fun j' x tok hx => h.2 j' x tok (List.mem_cons_of_mem e hx)⟩
    rw [List.map_cons, answers_cons, ih hM, served_cons]
    cases e with
    | sample j' x tok =>
      obtain rfl := h.2 j' x tok List.mem_cons_self
      split <;> simp_all [Exchange.answer?]
    | _ => simp [Exchange.answer?]

theorem answers_told_of_served (h : served M = []) : answers k (M.map .told) = [] := by
  induction M with
  | nil => rfl
  | cons e M ih =>
    rw [served_cons, List.append_eq_nil_iff] at h
    rw [List.map_cons, answers_cons, ih h.2]
    cases e <;> simp_all [Exchange.answer?]

@[simp] theorem sinceStopped_nil : sinceStopped [] = [] := rfl

theorem sinceStopped_append (h : ∀ x ∈ Y, x.isStop = false) :
    sinceStopped (X ++ Y) = sinceStopped X ++ Y := by
  simp only [sinceStopped, List.reverse_append]
  rw [List.takeWhile_append_of_pos (fun x hx => by simp [h x (List.mem_reverse.1 hx)])]
  simp

theorem sinceStopped_concat_stop {x : Exchange} (hx : x.isStop = true) :
    sinceStopped (X ++ [x]) = [] := by
  simp [sinceStopped, hx]

theorem isStop_told {M : List Event} (h : ∀ e ∈ M, e.isStop = false) :
    ∀ x ∈ M.map Exchange.told, x.isStop = false := by
  intro x hx
  obtain ⟨e, he, rfl⟩ := List.mem_map.1 hx
  exact h e he

end Views

namespace Source

variable {s : Source} {a : Action} {M : List Event}

theorem exchange_of_events (hy : (s.act a).2.events = s.events ++ M)
    (ha : ∀ k token, a ≠ .request k token) : s.exchange a = M.map .told := by
  cases a with
  | request k token => exact absurd rfl (ha k token)
  | _ => simp [exchange, hy]

theorem exchange_request {k : TrackKind} {token : Option UInt64}
    (hy : (s.act (.request k token)).2.events = s.events ++ M) :
    s.exchange (.request k token) =
      (if (s.act (.request k token)).1 = .ok () then [.asked k token] else []) ++ M.map .told := by
  simp only [exchange, hy, List.drop_left]
  split <;> simp_all

end Source

namespace Source

/-- The samples the track of kind `k` holds, ready and held back; none without a track. -/
def heldOn (s : Source) (k : TrackKind) : List Sample := ((s.track k).map Track.held).getD []

/-- The tokens of the requests the track of kind `k` has not answered; none without a track. -/
def waitingOn (s : Source) (k : TrackKind) : List (Option UInt64) :=
  ((s.track k).map Track.requests).getD []

/-- The books of the track of kind `k` balance against the dialog `U` and the samples `G` the
file gave it: the samples answered, then those the track holds, are `G` while the track is
selected and nothing otherwise; the tokens answered, then those waiting, are those asked. -/
def BalancedOn (U : List Exchange) (G : List Sample) (s : Source) (k : TrackKind) : Prop :=
  (answers k U).map Prod.fst ++ s.heldOn k = (if s.isActive k then G else []) ∧
    (answers k U).map Prod.snd ++ s.waitingOn k = asked k U

end Source

/-- An operation that took the track `t` to `t'` reporting `M`: it reports events of the track's
kind and keeps the track selected or not; the samples and tokens it answers leave the track in
order, and `xs` and `rs` join what it holds and what waits. -/
structure Track.Moves (t t' : Track) (M : List Event) (xs : List Sample)
    (rs : List (Option UInt64)) : Prop where
  ofKind : OfKind t.kind M
  active : t'.active = t.active
  held : (served M).map Prod.fst ++ t'.held = t.held ++ xs
  tokens : (served M).map Prod.snd ++ t'.requests = t.requests ++ rs

namespace Track

variable (t : Track)

theorem moves_dispatch {u : Track} (hk : u.kind = t.kind) (ha : u.active = t.active)
    (hh : u.held = t.held) (hr : u.requests = t.requests) :
    t.Moves u.dispatch.1 u.dispatch.2.1 [] [] where
  ofKind := hk ▸ dispatch_ofKind u
  active := by rw [dispatch_active, ha]
  held := by rw [dispatch_held, hh, List.append_nil]
  tokens := by rw [dispatch_tokens, hr, List.append_nil]

theorem moves_markEnd : t.Moves t.markEnd.1 t.markEnd.2.1 [] [] :=
  t.moves_dispatch rfl rfl rfl rfl

theorem moves_request (token : Option UInt64) :
    t.Moves (dispatch { t with requests := t.requests ++ [token] }).1
      (dispatch { t with requests := t.requests ++ [token] }).2.1 [] [token] where
  ofKind := dispatch_ofKind _
  active := dispatch_active _
  held := by rw [dispatch_held, List.append_nil]; rfl
  tokens := by rw [dispatch_tokens]

theorem moves_deliver {x : Sample} (ha : t.active = true) :
    t.Moves (t.deliver x).1 (t.deliver x).2.1 [x] [] where
  ofKind := (deliver_reports t x).1
  active := (deliver_reports t x).2.2
  held := deliver_held t x ha
  tokens := by
    unfold deliver
    rw [if_neg (by simp [ha])]
    split <;> rw [dispatch_tokens, List.append_nil]

theorem moves_pause : t.Moves t.pause.1 t.pause.2 [] [] where
  ofKind := pause_ofKind t
  active := rfl
  held := by
    unfold pause
    split <;> simp [held]
  tokens := by
    unfold pause
    split <;> simp

end Track

namespace Source.BalancedOn

variable {U U' : List Exchange} {G G' : List Sample} {s y : Source} {k : TrackKind}

theorem frame (hb : s.BalancedOn U G k) (hs : y.track k = s.track k)
    (ha : answers k U' = answers k U) (hq : asked k U' = asked k U)
    (hG : s.isActive k = true → G' = G) : y.BalancedOn U' G' k := by
  have hheld : y.heldOn k = s.heldOn k := by simp [heldOn, hs]
  have hwait : y.waitingOn k = s.waitingOn k := by simp [waitingOn, hs]
  have hact : y.isActive k = s.isActive k := by simp [isActive, hs]
  refine ⟨?_, by rw [ha, hq, hwait]; exact hb.2⟩
  rw [ha, hheld, hact, hb.1]
  split
  · rw [hG ‹_›]
  · rfl

theorem move (hb : s.BalancedOn U G k) {t t' : Track} {M : List Event} {xs : List Sample}
    {rs : List (Option UInt64)} (ht : s.track k = some t) (ht' : y.track k = some t')
    (hm : t.Moves t' M xs rs) (ha : answers k U' = answers k U ++ served M)
    (hq : asked k U' = asked k U ++ rs) (hG : t.active = true → G' = G ++ xs)
    (hx : t.active = false → xs = []) : y.BalancedOn U' G' k := by
  have hact : y.isActive k = s.isActive k := by simp [isActive, ht, ht', hm.active]
  obtain ⟨hs, hr⟩ := hb
  have hheld : y.heldOn k = t'.held := by simp [heldOn, ht']
  have hwait : y.waitingOn k = t'.requests := by simp [waitingOn, ht']
  simp only [heldOn, waitingOn, ht, Option.map_some, Option.getD_some] at hs hr
  refine ⟨?_, ?_⟩
  · rw [ha, hheld, List.map_append, List.append_assoc, hm.held, ← List.append_assoc, hs, hact]
    cases hactive : t.active
    · simp [isActive, ht, hactive, hx hactive]
    · simp [isActive, ht, hactive, hG hactive]
  · rw [ha, hq, hwait, List.map_append, List.append_assoc, hm.tokens, ← List.append_assoc, hr]

theorem told {M : List Event} (hb : s.BalancedOn U G k) (hs : y.track k = s.track k)
    (hM : served M = []) : y.BalancedOn (U ++ M.map .told) G k :=
  hb.frame hs (by simp [answers_told_of_served hM]) (by simp) fun _ => rfl

theorem onTrack {j : TrackKind} {t t' : Track} {M : List Event} {xs : List Sample}
    {rs : List (Option UInt64)} (hb : s.BalancedOn U G k) (ht : s.track j = some t)
    (hkind : t.kind = j) (hm : t.Moves t' M xs rs) (hx : t.active = false → xs = [])
    (hG : s.isActive k = true → G' = G ++ if k = j then xs else []) :
    ({ s.setTrack j t' with events := s.events ++ M } : Source).BalancedOn
      (U ++ rs.map (.asked j) ++ M.map .told) G' k := by
  have htrack : ({ s.setTrack j t' with events := s.events ++ M } : Source).track k =
      if k = j then some t' else s.track k := by
    cases j <;> cases k <;> rfl
  have hans : answers k (M.map .told) = if j = k then served M else [] := by
    rw [← hkind]
    exact answers_told hm.ofKind
  by_cases hjk : k = j
  · subst hjk
    refine hb.move ht (htrack.trans (if_pos rfl)) hm (by simp [hans]) (by simp) (fun ha => ?_) hx
    simpa using hG (by simp [isActive, ht, ha])
  · refine hb.frame (htrack.trans (if_neg hjk)) (by simp [hans, Ne.symm hjk])
      (by simp [Ne.symm hjk]) fun ha => ?_
    simpa [hjk] using hG ha

end Source.BalancedOn

end FlvDemux.Engine
