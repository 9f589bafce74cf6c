import FlvDemux.Engine.Session
import Mathlib

/-!
# Session tickets

A session word's top bit says the demuxer was shut down and its low 63 bits count restarts; a word
is known from the two (`word_eq_iff`). The main result, `ticket_current_iff`: a ticket stays
current through restarts and shutdowns exactly when no shutdown came and the restarts went round
the count a whole number of times.
-/

namespace FlvDemux.Engine

namespace Session

/-- A call that changes the session word. -/
inductive Call where
  | restart
  | shutdown
  deriving DecidableEq, Repr

def apply (s : Session) : Call → Session
  | .restart => s.restart
  | .shutdown => s.shutdown

def applyAll (s : Session) (cs : List Call) : Session := cs.foldl apply s

/-- The restart count of a session: the low 63 bits of its word. -/
def count (s : Session) : Nat := (s.word &&& (shutdownBit - 1)).toNat

@[simp] theorem applyAll_nil (s : Session) : s.applyAll [] = s := rfl

@[simp] theorem applyAll_cons (s : Session) (c : Call) (cs : List Call) :
    s.applyAll (c :: cs) = (s.apply c).applyAll cs := rfl

@[simp] theorem apply_restart (s : Session) : s.apply .restart = s.restart := rfl

@[simp] theorem apply_shutdown (s : Session) : s.apply .shutdown = s.shutdown := rfl

private theorem bit_getElem {i : Nat} (hi : i < 64) : (shutdownBit.toBitVec)[i] = decide (i = 63) := by
  change (BitVec.ofNat 64 (2 ^ 63))[i] = _
  rw [← BitVec.getLsbD_eq_getElem, BitVec.getLsbD_ofNat, Nat.testBit_two_pow]
  simp [hi, eq_comm]

private theorem mask_getElem {i : Nat} (hi : i < 64) :
    ((shutdownBit - 1).toBitVec)[i] = decide (i < 63) := by
  change (BitVec.ofNat 64 (2 ^ 63 - 1))[i] = _
  rw [← BitVec.getLsbD_eq_getElem, BitVec.getLsbD_ofNat, Nat.testBit_two_pow_sub_one]
  simp [hi]

private theorem mask_toNat (w : UInt64) : (w &&& (shutdownBit - 1)).toNat = w.toNat % 2 ^ 63 := by
  rw [UInt64.toNat_and]
  exact Nat.and_two_pow_sub_one_eq_mod _ 63

theorem count_eq (s : Session) : s.count = s.word.toNat % 2 ^ 63 := mask_toNat s.word

theorem count_lt (s : Session) : s.count < 2 ^ 63 := by
  rw [count_eq]
  exact Nat.mod_lt _ (by decide)

theorem word_eq_iff {s t : Session} :
    s.word = t.word ↔ s.word &&& shutdownBit = t.word &&& shutdownBit ∧ s.count = t.count := by
  refine ⟨fun h => ⟨h ▸ rfl, by rw [count, count, h]⟩, fun ⟨hb, hc⟩ => ?_⟩
  have hm : s.word &&& (shutdownBit - 1) = t.word &&& (shutdownBit - 1) := UInt64.toNat_inj.1 hc
  apply UInt64.toBitVec_inj.1
  ext i hi
  have hb' := congrArg (fun x : UInt64 => x.toBitVec[i]) hb
  have hm' := congrArg (fun x : UInt64 => x.toBitVec[i]) hm
  simp only [UInt64.toBitVec_and, BitVec.getElem_and, bit_getElem hi, mask_getElem hi] at hb' hm'
  -- bit 63 is the top bit, the others belong to the count
  by_cases h : i = 63
  · simpa [h] using hb'
  · simpa [show i < 63 by omega] using hm'

theorem restart_bit (s : Session) : s.restart.word &&& shutdownBit = s.word &&& shutdownBit := by
  apply UInt64.toBitVec_inj.1
  ext i hi
  simp only [restart, UInt64.toBitVec_and, UInt64.toBitVec_or, BitVec.getElem_and,
    BitVec.getElem_or, bit_getElem hi, mask_getElem hi]
  by_cases h : i = 63 <;> simp [h]

private theorem restart_mask (s : Session) :
    s.restart.word &&& (shutdownBit - 1) = (s.word &&& (shutdownBit - 1)) + 1 &&& (shutdownBit - 1) := by
  apply UInt64.toBitVec_inj.1
  ext i hi
  simp only [restart, UInt64.toBitVec_and, UInt64.toBitVec_or, BitVec.getElem_and,
    BitVec.getElem_or, bit_getElem hi, mask_getElem hi]
  by_cases h : i < 63
  · simp [h, show i ≠ 63 by omega]
  · simp [h]

theorem count_restart (s : Session) : s.restart.count = (s.count + 1) % 2 ^ 63 := by
  have hc := s.count_lt
  rw [count, restart_mask, mask_toNat, UInt64.toNat_add, UInt64.toNat_one, ← count]
  change (s.count + 1) % 2 ^ 64 % 2 ^ 63 = _
  omega

/-- The largest count goes round to zero, and the top bit stays clear. -/
example : (⟨shutdownBit - 1⟩ : Session).restart = ⟨0⟩ := by decide

theorem restart_ne (s : Session) : s.restart.word ≠ s.word := by
  intro h
  have h2 := congrArg (fun w => (w &&& (shutdownBit - 1)).toNat) h
  simp only [restart_mask] at h2
  rw [mask_toNat, UInt64.toNat_add, mask_toNat] at h2
  have : s.word.toNat % 2 ^ 63 < 2 ^ 63 := Nat.mod_lt _ (by decide)
  simp only [UInt64.toNat_one] at h2
  omega

theorem shutdown_flag (s : Session) : s.shutdown.word &&& shutdownBit = shutdownBit := by
  apply UInt64.toBitVec_inj.1
  ext i hi
  simp only [shutdown, UInt64.toBitVec_and, UInt64.toBitVec_or, BitVec.getElem_and,
    BitVec.getElem_or, bit_getElem hi]
  by_cases h : i = 63 <;> simp [h]

theorem shutdown_bit (s : Session) : s.shutdown.word &&& shutdownBit ≠ 0 := by
  rw [shutdown_flag]
  decide

theorem count_shutdown (s : Session) : s.shutdown.count = s.count := by
  have hm : s.shutdown.word &&& (shutdownBit - 1) = s.word &&& (shutdownBit - 1) := by
    apply UInt64.toBitVec_inj.1
    ext i hi
    simp only [shutdown, UInt64.toBitVec_and, UInt64.toBitVec_or, BitVec.getElem_and,
      BitVec.getElem_or, bit_getElem hi, mask_getElem hi]
    by_cases h : i < 63
    · simp [h, show i ≠ 63 by omega]
    · simp [h]
  rw [count, hm, ← count]

theorem isCurrent_iff (s : Session) (t : UInt64) :
    s.isCurrent t = true ↔ t &&& shutdownBit = 0 ∧ s.word = t := by
  simp [isCurrent]

theorem isCurrent_of_ne {s : Session} {t : UInt64} (h : t ≠ s.word) : s.isCurrent t = false := by
  cases hc : s.isCurrent t
  · rfl
  · exact absurd ((isCurrent_iff _ _).1 hc).2.symm h

theorem isCurrent_of_shutdown {s : Session} (h : s.word &&& shutdownBit ≠ 0) (t : UInt64) :
    s.isCurrent t = false := by
  cases hc : s.isCurrent t
  · rfl
  · obtain ⟨ht, rfl⟩ := (isCurrent_iff _ _).1 hc
    exact absurd ht h

theorem count_applyAll (s : Session) (cs : List Call) :
    (s.applyAll cs).count = (s.count + cs.count .restart) % 2 ^ 63 := by
  induction cs generalizing s with
  | nil => rw [applyAll_nil, List.count_nil, Nat.add_zero, Nat.mod_eq_of_lt s.count_lt]
  | cons c cs ih =>
    cases c with
    | restart =>
      rw [applyAll_cons, ih, apply_restart, count_restart, List.count_cons_self]
      omega
    | shutdown =>
      rw [applyAll_cons, ih, apply_shutdown, count_shutdown, List.count_cons_of_ne (by decide)]

theorem flag_applyAll (s : Session) (cs : List Call) :
    (s.applyAll cs).word &&& shutdownBit =
      if .shutdown ∈ cs then shutdownBit else s.word &&& shutdownBit := by
  induction cs generalizing s with
  | nil => simp
  | cons c cs ih =>
    rw [applyAll_cons, ih]
    cases c with
    | restart => simp [restart_bit]
    | shutdown => simp [shutdown_flag]

theorem shutdown_applyAll_isCurrent (s : Session) (cs : List Call) (t : UInt64) :
    (s.shutdown.applyAll cs).isCurrent t = false := by
  apply isCurrent_of_shutdown
  rw [flag_applyAll]
  split
  · decide
  · exact s.shutdown_bit

/-- Which tickets survive restarts and shutdowns. A ticket `w` taken from the word `w` is current
after the calls `cs` exactly when its top bit is clear, no call is a shutdown, and the number of
restarts is a multiple of `2 ^ 63`. Restarts never change the top bit, and after a shutdown no
ticket is current whatever follows. -/
theorem ticket_current_iff :
    (∀ (w : UInt64) (cs : List Call), ((⟨w⟩ : Session).applyAll cs).isCurrent w = true ↔
        w &&& shutdownBit = 0 ∧ Call.shutdown ∉ cs ∧ 2 ^ 63 ∣ cs.count .restart) ∧
      (∀ s : Session, s.restart.word &&& shutdownBit = s.word &&& shutdownBit) ∧
      ∀ (s : Session) (cs : List Call) (t : UInt64), (s.shutdown.applyAll cs).isCurrent t = false := by
  refine ⟨fun w cs => ?_, restart_bit, shutdown_applyAll_isCurrent⟩
  have hcount := count_applyAll ⟨w⟩ cs
  have hlt := count_lt ⟨w⟩
  have hword : ((⟨w⟩ : Session).applyAll cs).word = w ↔
      ((⟨w⟩ : Session).applyAll cs).word &&& shutdownBit = w &&& shutdownBit ∧
        ((⟨w⟩ : Session).applyAll cs).count = Session.count ⟨w⟩ := word_eq_iff (t := ⟨w⟩)
  rw [isCurrent_iff, hword, flag_applyAll, hcount, Nat.dvd_iff_mod_eq_zero]
  by_cases hs : Call.shutdown ∈ cs
  · -- the top bit is set, so the ticket would need it set and is refused
    rw [if_pos hs]
    constructor
    · rintro ⟨h0, hb, -⟩
      rw [← hb] at h0
      exact absurd h0 (by decide)
    · rintro ⟨-, hn, -⟩
      exact absurd hs hn
  · rw [if_neg hs]
    constructor
    · rintro ⟨h0, -, hc⟩
      exact ⟨h0, hs, by omega⟩
    · rintro ⟨h0, -, hc⟩
      exact ⟨h0, rfl, by omega⟩

end Session

end FlvDemux.Engine
