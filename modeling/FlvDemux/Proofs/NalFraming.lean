import FlvDemux.Proofs.Words
import FlvDemux.Avc.NalUnits
import FlvDemux.Avc.Config

/-!
# Reframing length-prefixed NAL units

Splitting a run of length-prefixed NAL units is exact: it returns units exactly when the payload
is a framing of them, and every failure is a length field or a unit cut off at the end
(`splitUpTo_error_kind`). The main statement is `split_reframes_exactly`.
-/

namespace FlvDemux.Avc

/-- Units written one after the other, each behind its length in `L` big-endian bytes. -/
def frame (L : Nat) (us : List (List UInt8)) : List UInt8 :=
  us.flatMap fun u => Bytes.ofNat L u.length ++ u

@[simp] theorem frame_nil (L : Nat) : frame L [] = [] := rfl

@[simp] theorem frame_cons (L : Nat) (u : List UInt8) (us : List (List UInt8)) :
    frame L (u :: us) = Bytes.ofNat L u.length ++ (u ++ frame L us) := by
  simp [frame]

theorem length_frame (L : Nat) (us : List (List UInt8)) :
    (frame L us).length = (us.map (L + ·.length)).sum := by
  induction us with
  | nil => rfl
  | cons u us ih =>
    simp only [frame_cons, List.length_append, Bytes.length_ofNat, ih, List.map_cons, List.sum_cons]
    omega

@[simp] theorem splitUpTo_nil (size bound : Nat) : splitUpTo size bound [] = .ok [] := by
  cases bound <;> rfl

theorem splitUpTo_succ (size bound : Nat) {p : List UInt8} (hp : p ≠ []) :
    splitUpTo size (bound + 1) p =
      if p.length < size then .error (.nalLengthCut p.length size)
      else if (p.drop size).length < Bytes.toNat (p.take size) then
        .error (.nalOverrun (Bytes.toNat (p.take size)))
      else (splitUpTo size bound ((p.drop size).drop (Bytes.toNat (p.take size)))).map
        fun units => if ((p.drop size).take (Bytes.toNat (p.take size))).isEmpty then units
          else (p.drop size).take (Bytes.toNat (p.take size)) :: units := by
  cases p with
  | nil => exact absurd rfl hp
  | cons a t =>
    rw [splitUpTo]
    dsimp only
    by_cases hcut : (a :: t).length < size
    · rw [if_pos hcut, if_pos hcut]
    · rw [if_neg hcut, if_neg hcut]
      by_cases hover : ((a :: t).drop size).length < Bytes.toNat ((a :: t).take size)
      · rw [if_pos hover, if_pos hover]
      · rw [if_neg hover, if_neg hover]
        cases splitUpTo size bound _ <;> rfl

theorem splitUpTo_error_kind {size bound : Nat} {p : List UInt8} {e : Fault}
    (h : splitUpTo size bound p = .error e) : e.kind = .invalidData := by
  induction bound generalizing p with
  | zero => simp [splitUpTo] at h
  | succ bound ih =>
    by_cases hp : p = []
    · subst hp
      simp at h
    · rw [splitUpTo_succ _ _ hp] at h
      split at h
      · cases h
        rfl
      · split at h
        · cases h
          rfl
        · cases hr : splitUpTo size bound _ with
          | ok us =>
            rw [hr] at h
            cases h
          | error e' =>
            rw [hr] at h
            cases h
            exact ih hr

theorem splitUpTo_framed {size : Nat} (hs : 0 < size) {bound : Nat} {p : List UInt8}
    {us : List (List UInt8)} (hb : p.length ≤ bound) (h : splitUpTo size bound p = .ok us) :
    ∃ rs, (∀ u ∈ rs, u.length < 256 ^ size) ∧ frame size rs = p ∧ us = rs.filter (· ≠ []) := by
  induction bound generalizing p us with
  | zero =>
    rw [List.eq_nil_of_length_eq_zero (Nat.le_zero.1 hb)] at h ⊢
    simp at h
    exact ⟨[], by simp, rfl, by simp [h]⟩
  | succ bound ih =>
    by_cases hp : p = []
    · subst hp
      simp at h
      exact ⟨[], by simp, rfl, by simp [h]⟩
    rw [splitUpTo_succ _ _ hp] at h
    split at h
    · cases h
    rename_i hcut
    split at h
    · cases h
    rename_i hover
    cases hr : splitUpTo size bound ((p.drop size).drop (Bytes.toNat (p.take size))) with
    | error e =>
      rw [hr] at h
      cases h
    | ok units =>
      rw [hr] at h
      simp only [Except.map, Except.ok.injEq] at h
      -- the length field, the unit behind it, and the rest of the payload, which is shorter
      set len := Bytes.toNat (p.take size) with hlen
      set unit := (p.drop size).take len
      have hfield : (p.take size).length = size := List.length_take_of_le (by omega)
      have hunit : unit.length = len := List.length_take_of_le (by omega)
      have hrest : ((p.drop size).drop len).length ≤ bound := by
        simp only [List.length_drop]
        omega
      obtain ⟨rs, hsmall, hframe, hus⟩ := ih hrest hr
      refine ⟨unit :: rs, ?_, ?_, ?_⟩
      · intro u hu
        rcases List.mem_cons.1 hu with rfl | hu
        · rw [hunit, hlen]
          exact Bytes.toNat_lt_of_length _ hfield
        · exact hsmall u hu
      · rw [frame_cons, hframe, hunit, hlen, Bytes.ofNat_toNat_of_length hfield,
          List.take_append_drop, List.take_append_drop]
      · rw [← h, hus]
        simp [List.filter_cons]

theorem splitUpTo_frame {size : Nat} (hs : 0 < size) {rs : List (List UInt8)}
    (hsmall : ∀ u ∈ rs, u.length < 256 ^ size) {bound : Nat} (hb : (frame size rs).length ≤ bound) :
    splitUpTo size bound (frame size rs) = .ok (rs.filter (· ≠ [])) := by
  induction rs generalizing bound with
  | nil => simp
  | cons u rs ih =>
    have hlength : (frame size (u :: rs)).length = size + (u.length + (frame size rs).length) := by
      simp
    have hp : frame size (u :: rs) ≠ [] := by
      intro he
      have := congrArg List.length he
      rw [hlength] at this
      simp at this
      omega
    obtain ⟨b, rfl⟩ : ∃ b, bound = b + 1 := ⟨bound - 1, by omega⟩
    have hu : u.length < Nat.pow 256 size := by
      simpa [Nat.pow_eq] using hsmall u List.mem_cons_self
    have htake : (frame size (u :: rs)).take size = Bytes.ofNat size u.length := by
      rw [frame_cons, Bytes.take_ofNat_append]
    have hdrop : (frame size (u :: rs)).drop size = u ++ frame size rs := by
      rw [frame_cons, Bytes.drop_ofNat_append]
    rw [splitUpTo_succ _ _ hp, htake, hdrop, Bytes.toNat_ofNat_of_lt hu, if_neg (by omega),
      if_neg (by simp), List.take_left' rfl, List.drop_left' rfl,
      ih (fun v hv => hsmall v (List.mem_cons_of_mem _ hv)) (by omega)]
    simp [Except.map, List.filter_cons]

theorem clampLengthSize_pos (s : UInt8) : 0 < clampLengthSize s := by
  unfold clampLengthSize
  omega

/-- Splitting a payload with the length size of a byte `s` (moved into 1 to 4) returns units
exactly when the payload is the framing of some units covering it to its last byte, and then
returns the nonempty ones in order; it fails only on invalid data; rewriting with start codes
fails exactly when the split does; and any list of nonempty units short enough for their length
fields is split back from its framing. -/
theorem split_reframes_exactly (s : UInt8) (p : List UInt8) :
    (∀ us, splitUnits (clampLengthSize s) p = .ok us ↔
      ∃ rs, (∀ u ∈ rs, u.length < 2 ^ (8 * clampLengthSize s)) ∧
        frame (clampLengthSize s) rs = p ∧ us = rs.filter (· ≠ [])) ∧
    (∀ e, splitUnits (clampLengthSize s) p = .error e → e.kind = .invalidData) ∧
    toStartCodes (clampLengthSize s) p =
      (splitUnits (clampLengthSize s) p).map (List.flatMap (startCode ++ ·)) ∧
    ∀ us : List (List UInt8), (∀ u ∈ us, u ≠ [] ∧ u.length < 2 ^ (8 * clampLengthSize s)) →
      splitUnits (clampLengthSize s) (frame (clampLengthSize s) us) = .ok us := by
  have hs := clampLengthSize_pos s
  have hpow : (2 : Nat) ^ (8 * clampLengthSize s) = 256 ^ clampLengthSize s := by
    rw [pow_mul]
    rfl
  simp only [hpow]
  refine ⟨fun us => ⟨splitUpTo_framed hs le_rfl, ?_⟩, fun e => splitUpTo_error_kind, ?_,
    fun us hus => ?_⟩
  · rintro ⟨rs, hsmall, rfl, rfl⟩
    exact splitUpTo_frame hs hsmall le_rfl
  · unfold toStartCodes
    cases splitUnits (clampLengthSize s) p <;> rfl
  · rw [splitUnits, splitUpTo_frame hs (fun u hu => (hus u hu).2) le_rfl, List.filter_eq_self.2]
    intro u hu
    simpa using (hus u hu).1

/-- Two AVC units behind four-byte lengths are split back from their framing. -/
theorem split_two_units :
    splitUnits (clampLengthSize 4) (frame (clampLengthSize 4) [[0x65, 0x88], [0x06]]) =
      .ok [[0x65, 0x88], [0x06]] :=
  (split_reframes_exactly 4 []).2.2.2 [[0x65, 0x88], [0x06]] (by decide)

end FlvDemux.Avc
