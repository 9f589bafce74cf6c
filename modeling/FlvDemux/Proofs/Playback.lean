import FlvDemux.Proofs.Dialog
import FlvDemux.Proofs.Settling

/-!
# A playing demuxer plays what the file gives

`Source.Plays` keeps a demuxer with one selection of tracks playing what its file gives each
track: the books balance against the dialog since the last stop, the configuration in force is
the one the tags played leave, and the demuxer stands between two tags, in a tag with a read out,
or at the end of the file (`Source.Place`).
-/

namespace FlvDemux.Engine

open Flv

/-- What the tags `tags` give the track of kind `k` of a demuxer opened on `f` with the survey
`v`: its samples, and the configuration state after them. -/
def played (f : List UInt8) (v : Survey) (k : TrackKind) (tags : List (Nat × TagHeader)) :
    List Sample × AvcState :=
  demuxTags f k tags ⟨v.avcConfig, false⟩

section Played

variable {f : List UInt8} {v : Survey} {k : TrackKind} {tags : List (Nat × TagHeader)} {b : Nat}

@[simp] theorem played_nil (f : List UInt8) (v : Survey) (k : TrackKind) :
    played f v k [] = ([], ⟨v.avcConfig, false⟩) := rfl

theorem played_concat (f : List UInt8) (v : Survey) (k : TrackKind) (tags : List (Nat × TagHeader))
    (o : Nat) (h : TagHeader) :
    played f v k (tags ++ [(o, h)]) =
      ((played f v k tags).1 ++ (tagSample f o h k (played f v k tags).2).1.toList,
        (tagSample f o h k (played f v k tags).2).2) :=
  demuxTags_concat f k tags o h _

theorem played_isPrefix_demux (hc : ChainFrom f v.firstMediaOffset tags b) :
    (played f v k tags).1 <+: demux f v k :=
  demuxTags_prefix hc

theorem played_concat_none {o : Nat} {h : TagHeader}
    (hn : tagSample f o h k (played f v k tags).2 = (none, (played f v k tags).2)) :
    played f v k (tags ++ [(o, h)]) = played f v k tags := by
  rw [played_concat, hn]
  simp

end Played

/-- What a read out for `step` holds of the tag of `f` at `b` with header `h`: the tag itself,
non-empty and of the step's kind, for its sub-header; then the packet read so far, as the file
has it; a payload is read only for a configuration or a picture. -/
def ReadStep.Reads (f : List UInt8) (b : Nat) (h : TagHeader) : ReadStep → Prop
  | .audioHeader t => t = h ∧ h.kind = .audio ∧ 0 < h.dataSize.toNat
  | .videoHeader t => t = h ∧ h.kind = .video ∧ 0 < h.dataSize.toNat
  | .aacPacketType p | .audioPayload p => audioPacketAt f b h = some { p with aacPacketType := none }
  | .avcPacketHeader p => videoPacketAt f b h = some p
  | .videoPayload p => avcPacketAt f b h = some p ∧
      (p.packetType = some .sequenceHeader ∨ p.packetType = some .nalu)
  | _ => False

/-- Where the playing of a demuxer stands, its walk going on at `e` and the tags before `b`
played: between two tags, with at most the next tag header read; in the tag of `f` at `b`, a
read of it out; or at the end of the file, with no read out and every selected track told. -/
inductive Source.Place (f : List UInt8) (e b : Nat) (s : Source) : Prop
  | between (hb : b = e) (hstep : ∀ step, s.Awaits step → step = .tagHeader)
  | inTag {h : TagHeader} {step : ReadStep} (hstep : s.Awaits step) (hread : s.readInFlight = true)
      (ht : tagAt f b = some h) (hk : h.isEndOfFile = false) (he : e = nextTagOffset b h)
      (hr : step.Reads f b h)
  | ended (hph : s.phase = .started ∨ s.phase = .paused) (hread : s.readInFlight = false)
      (hend : ∀ k t, s.track k = some t → t.active = true → t.endOfStream = true)

/-- What a demuxer opened on `f` with the survey `v` keeps while it plays the selection `S`, the
tags `tags` of the chain before `b` played, its dialog since the last stop being `U`: the books
of every track balance against `U` and what `tags` give it; a stopped demuxer has played nothing;
the tracks selected are of `S`, and all of them while the demuxer plays; each track is of its
kind; and every start queued selects `S`. -/
structure Source.Holds (f : List UInt8) (v : Survey) (S : List TrackKind) (U : List Exchange)
    (tags : List (Nat × TagHeader)) (b : Nat) (s : Source) : Prop where
  survey : s.survey = v
  chain : ChainFrom f v.firstMediaOffset tags b
  books : ∀ k, s.BalancedOn U (played f v k tags).1 k
  fresh : s.phase = .stopped → tags = []
  isOpen : s.isOpen = true
  chosen : ∀ k, s.isActive k = true → k ∈ S
  playing : s.phase = .started ∨ s.phase = .paused → ∀ k t, s.track k = some t → k ∈ S →
    t.active = true
  kinds : ∀ k t, s.track k = some t → t.kind = k
  starts : ∀ sel pos, Task.start sel pos ∈ s.tasks → ∀ k, k ∈ sel ↔ k ∈ S

/-- The configuration in force is the one the tags `tags` leave while video is selected, and the
one the survey `v` found, not gone out, while the demuxer is stopped. -/
def Source.Configured (f : List UInt8) (v : Survey) (tags : List (Nat × TagHeader)) (s : Source) :
    Prop :=
  (s.isActive .video = true →
      (⟨s.avcConfig, s.avcConfigSent⟩ : AvcState) = (played f v .video tags).2) ∧
    (s.phase = .stopped → s.avcConfig = v.avcConfig ∧ s.avcConfigSent = false)

/-- A demuxer that holds its books as `Source.Holds` says, with the configuration the tags
played leave, and stands where its walk at `e` and the tags played say. -/
structure Source.Plays (f : List UInt8) (v : Survey) (S : List TrackKind) (e : Nat)
    (U : List Exchange) (tags : List (Nat × TagHeader)) (b : Nat) (s : Source) : Prop
    extends Source.Holds f v S U tags b s where
  config : s.Configured f v tags
  place : s.Place f e b

/-- Every answer on every track in the dialog `U` is within what a demuxer opened on `f` with
the survey `v` plays: the samples are the first of those the file gives the track, and the tokens
the first of those asked of it. -/
def Conforms (f : List UInt8) (v : Survey) (U : List Exchange) : Prop :=
  ∀ k, (answers k U).map Prod.fst <+: demux f v k ∧ (answers k U).map Prod.snd <+: asked k U

/-- After a step from a demuxer whose log was `L` and whose dialog since the last stop was `U`,
`y` has reported `M` more, none of them a stop, and it has shut down with every answer within
what the file gives, or it plays on from its walk at `e`. -/
def Source.PlaysOn (f : List UInt8) (v : Survey) (S : List TrackKind) (e : Nat) (U : List Exchange)
    (L : List Event) (y : Source) : Prop :=
  ∃ M, y.events = L ++ M ∧ (∀ x ∈ M, x.isStop = false) ∧
    ((y.phase = .shutdown ∧ Conforms f v (U ++ M.map .told)) ∨
      ∃ tags b, y.Plays f v S e (U ++ M.map .told) tags b)

section Books

variable {f : List UInt8} {v : Survey} {S : List TrackKind} {U : List Exchange}
  {tags : List (Nat × TagHeader)} {b e : Nat} {s y : Source}

theorem Source.Holds.conforms (h : s.Holds f v S U tags b) : Conforms f v U := by
  intro k
  obtain ⟨hs, hr⟩ := h.books k
  refine ⟨?_, ⟨_, hr⟩⟩
  have hpre : (answers k U).map Prod.fst <+: (played f v k tags).1 := by
    have hp : (answers k U).map Prod.fst <+: (answers k U).map Prod.fst ++ s.heldOn k :=
      List.prefix_append _ _
    rw [hs] at hp
    split at hp
    · exact hp
    · exact (List.prefix_nil.1 hp) ▸ List.nil_prefix
  exact hpre.trans (played_isPrefix_demux h.chain)

/-- Books are assembled from what a step keeps: the kinds and selection of the tracks, the survey,
the phase and the starts queued; the books themselves, the chain and whether anything was played
are the step's own. -/
theorem Source.Holds.retrack {U' : List Exchange} {tags' : List (Nat × TagHeader)} {b' : Nat}
    (h : s.Holds f v S U tags b)
    (hsel : ∀ k, (y.track k).map (fun t => (t.kind, t.active)) =
      (s.track k).map (fun t => (t.kind, t.active)))
    (hsv : y.survey = s.survey) (hph : y.phase = s.phase)
    (hstarts : ∀ sel pos, Task.start sel pos ∈ y.tasks → Task.start sel pos ∈ s.tasks)
    (hchain : ChainFrom f v.firstMediaOffset tags' b')
    (hbooks : ∀ k, y.BalancedOn U' (played f v k tags').1 k)
    (hfresh : y.phase = .stopped → tags' = []) :
    y.Holds f v S U' tags' b' := by
  have hof : ∀ k t, y.track k = some t → ∃ t₀, s.track k = some t₀ ∧ t.kind = t₀.kind ∧
      t.active = t₀.active := by
    intro k t ht
    have hk := hsel k
    rw [ht] at hk
    obtain ⟨t₀, ht₀, he⟩ := Option.map_eq_some_iff.1 hk.symm
    exact ⟨t₀, ht₀, (Prod.mk.inj he).1.symm, (Prod.mk.inj he).2.symm⟩
  have hact : ∀ k, y.isActive k = s.isActive k := by
    intro k
    have hk := hsel k
    cases hy : y.track k <;> cases hs : s.track k <;> simp_all [Source.isActive]
  exact {
    survey := hsv.trans h.survey
    chain := hchain
    books := hbooks
    fresh := hfresh
    isOpen := by rw [Source.isOpen, hph]; exact h.isOpen
    chosen := fun k hk => h.chosen k (by rwa [← hact])
    playing := fun hp k t ht hS => by
      obtain ⟨t₀, ht₀, -, ha⟩ := hof k t ht
      rw [ha]
      exact h.playing (by rwa [← hph]) k t₀ ht₀ hS
    kinds := fun k t ht => by
      obtain ⟨t₀, ht₀, hk, -⟩ := hof k t ht
      rw [hk]
      exact h.kinds k t₀ ht₀
    starts := fun sel pos hm => h.starts sel pos (hstarts sel pos hm) }

end Books

end FlvDemux.Engine
