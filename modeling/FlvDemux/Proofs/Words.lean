import FlvDemux.Proofs.AmfReading

/-!
# Big-endian words read back

What each word reader does with the bytes in front of it (`Reader.u16_run_append` and its
neighbours), the facts the header round trips rest on (`Bytes.ofNat_toNat`, `Bytes.ofNat_mod`),
and inversions of a byte, a counted run and a 16-bit field, so that a reader built from them can
be inverted one field at a time.
-/

namespace FlvDemux

namespace Bytes

theorem ofNat_mod (n x : Nat) : ofNat n (x % 256 ^ n) = ofNat n x := by
  induction n generalizing x with
  | zero => rfl
  | succ n ih =>
    have hdiv : x % 256 ^ (n + 1) / 256 = x / 256 % 256 ^ n := by
      rw [pow_succ', Nat.mod_mul_right_div_self]
    have hlow : x % 256 ^ (n + 1) % 256 = x % 256 := by
      rw [pow_succ', Nat.mod_mul_right_mod]
    rw [ofNat, ofNat, hdiv, hlow, ih]

theorem ofNat_toNat (bs : List UInt8) : ofNat bs.length (toNat bs) = bs := by
  induction bs using List.reverseRecOn with
  | nil => rfl
  | append_singleton bs b ih =>
    have hb := b.toNat_lt
    have hdiv : (toNat bs * 256 + b.toNat) / 256 = toNat bs := by omega
    have hlow : ((toNat bs * 256 + b.toNat) % 256).toUInt8 = b := by
      rw [show (toNat bs * 256 + b.toNat) % 256 = b.toNat by omega]
      simp
    rw [List.length_append, List.length_singleton, ofNat, toNat_append_byte, hdiv, hlow, ih]

theorem ofNat_toNat_of_length {n : Nat} {bs : List UInt8} (h : bs.length = n) :
    ofNat n (toNat bs) = bs :=
  h ▸ ofNat_toNat bs

theorem toNat_lt_of_length (bs : List UInt8) {n : Nat} (h : bs.length = n) : toNat bs < 256 ^ n := by
  have hlt := toNat_lt bs
  rw [h, Nat.pow_eq] at hlt
  exact hlt

theorem toUInt32_toNat_of_three (bs : List UInt8) (h : bs.length = 3) :
    (toNat bs).toUInt32.toNat = toNat bs := by
  have hlt := toNat_lt_of_length bs h
  simp only [Nat.toUInt32_eq, UInt32.toNat_ofNat']
  omega

theorem low24_eq_iff (x : UInt32) : (x.toNat % 256 ^ 3).toUInt32 = x ↔ x.toNat < 2 ^ 24 := by
  constructor
  · intro h
    rw [← h]
    simp
    omega
  · intro h
    apply UInt32.toNat_inj.mp
    simp
    omega

end Bytes

namespace Reader

@[simp] theorem byte_run_cons (b : UInt8) (bs : List UInt8) : byte.run (b :: bs) = .ok (b, bs) :=
  rfl

theorem word_run_append {n : Nat} {bs : List UInt8} (h : bs.length = n) (rest : List UInt8) :
    (word n).run (bs ++ rest) = .ok (Bytes.toNat bs, rest) := by
  rw [word_run, if_pos (by simp [h]), List.take_left' h, List.drop_left' h]

theorem u16_run_append {bs : List UInt8} (h : bs.length = 2) (rest : List UInt8) :
    u16.run (bs ++ rest) = .ok ((Bytes.toNat bs).toUInt16, rest) := by
  rw [u16, run_bind_pure, word_run_append h]
  rfl

theorem u24_run_append {bs : List UInt8} (h : bs.length = 3) (rest : List UInt8) :
    u24.run (bs ++ rest) = .ok ((Bytes.toNat bs).toUInt32, rest) := by
  rw [u24, run_bind_pure, word_run_append h]
  rfl

theorem u32_run_append {bs : List UInt8} (h : bs.length = 4) (rest : List UInt8) :
    u32.run (bs ++ rest) = .ok ((Bytes.toNat bs).toUInt32, rest) := by
  rw [u32, run_bind_pure, word_run_append h]
  rfl

theorem i24_run_append {bs : List UInt8} (h : bs.length = 3) (rest : List UInt8) :
    i24.run (bs ++ rest) = .ok (Int32.ofInt (if Bytes.toNat bs < 2 ^ 23 then (Bytes.toNat bs : Int)
      else (Bytes.toNat bs : Int) - 2 ^ 24), rest) := by
  rw [i24, run_bind_of_ok (word_run_append h rest)]
  rfl

theorem run_bind_eq_ok_iff {ε α β : Type} {r : Reader ε α} {f : α → Reader ε β}
    {bs bs' : List UInt8} {b : β} :
    (r >>= f).run bs = .ok (b, bs') ↔ ∃ a bs₀, r.run bs = .ok (a, bs₀) ∧ (f a).run bs₀ = .ok (b, bs') := by
  constructor
  · exact run_bind_ok
  · rintro ⟨a, bs₀, h1, h2⟩
    rw [run_bind_of_ok h1, h2]

theorem run_pure_eq_ok_iff {ε α : Type} {x a : α} {bs bs' : List UInt8} :
    (pure x : Reader ε α).run bs = .ok (a, bs') ↔ x = a ∧ bs = bs' := by
  simp

theorem byte_run_eq_ok_iff {b : UInt8} {bs rest : List UInt8} :
    byte.run bs = .ok (b, rest) ↔ bs = b :: rest := by
  cases bs with
  | nil =>
    constructor
    · intro h
      cases h
    · intro h
      cases h
  | cons x t => simp

theorem counted_run (n : Nat) (bs : List UInt8) : (counted n).run bs =
    (if n ≤ bs.length then .ok (bs.take n, bs.drop n)
      else .error (.needBytes n bs.length) : Except Fault (List UInt8 × List UInt8)) := rfl

theorem counted_run_eq_ok_iff {n : Nat} {bs s rest : List UInt8} :
    (counted n).run bs = .ok (s, rest) ↔ s.length = n ∧ bs = s ++ rest := by
  rw [counted_run]
  constructor
  · intro h
    split at h
    · cases h
      exact ⟨List.length_take_of_le ‹_›, (List.take_append_drop n bs).symm⟩
    · cases h
  · rintro ⟨rfl, rfl⟩
    rw [if_pos (by simp), List.take_left' rfl, List.drop_left' rfl]

theorem u16_run_eq_ok_iff {x : UInt16} {bs rest : List UInt8} :
    u16.run bs = .ok (x, rest) ↔ bs = Bytes.ofNat 2 x.toNat ++ rest := by
  constructor
  · intro h
    rw [u16, run_bind_pure, word_run] at h
    split at h
    · cases h
      rename_i h2
      rw [Amf.Decoder.toNat_take_two_toUInt16, Bytes.ofNat_toNat_of_length (List.length_take_of_le h2),
        List.take_append_drop]
    · cases h
  · rintro rfl
    have hx : x.toNat < Nat.pow 256 2 := x.toNat_lt
    rw [u16_run_append (Bytes.length_ofNat 2 _), Bytes.toNat_ofNat_of_lt hx]
    simp

theorem mapError_run_ok {ε ε' α : Type} (g : ε → ε') {r : Reader ε α} {bs rest : List UInt8}
    {a : α} (h : r.run bs = .ok (a, rest)) : (mapError g r).run bs = .ok (a, rest) := by
  rw [run_mapError, h]
  rfl

end Reader

theorem int32_toInt_ofInt {y : Int} (h1 : -2 ^ 31 ≤ y) (h2 : y < 2 ^ 31) : (Int32.ofInt y).toInt = y := by
  rw [Int32.toInt_ofInt]
  unfold Int.bmod
  simp only [Int32.size]
  split <;> omega

theorem int32_toUInt32_toNat (x : Int32) : x.toUInt32.toNat = (x.toInt % 2 ^ 32).toNat := by
  conv_lhs => rw [← Int32.ofInt_toInt x]
  rw [UInt32.toNat, Int32.toBitVec_toUInt32, Int32.toBitVec_ofInt, BitVec.toNat_ofInt]
  rfl

end FlvDemux
