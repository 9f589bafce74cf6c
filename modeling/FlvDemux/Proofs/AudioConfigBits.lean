import FlvDemux.Aac.AudioConfig

/-!
# The start of an AudioSpecificConfig follows its bit grammar

The parser reads its fields through a cursor over the bytes; beside it stands the grammar read off
the bit string itself (`AudioConfig.reference`). The main result, `parse_reads_bit_grammar`: the
parser is that reading, fails with `configTooShort` exactly when a field runs past the end, and
ignores bytes after the configuration.
-/

namespace FlvDemux.Aac

/-- The bits of a byte string, most significant bit of each byte first. -/
def bitsOf (bs : List UInt8) : List Bool :=
  bs.flatMap fun b => (List.range 8).reverse.map fun i => (b >>> i.toUInt8) &&& 1 == 1

/-- The number whose binary digits, most significant first, are those of `acc` and then `bits`. -/
def ofBitsFrom (acc : Nat) (bits : List Bool) : Nat :=
  bits.foldl (fun a b => 2 * a + b.toNat) acc

/-- The field of `w` bits at bit `o` of `bits`; a field that runs past the end is too short. -/
def field (bits : List Bool) (o w : Nat) : Except Fault Nat :=
  if o + w ≤ bits.length then .ok (ofBitsFrom 0 ((bits.drop o).take w)) else .error .configTooShort

namespace AudioConfig

/-- The object type at the start of the bits, and the offset of the next field: bits 0 to 4, or
32 plus bits 5 to 10 when those hold 31. -/
def objectTypeAt (bits : List Bool) : Except Fault (Nat × Nat) := do
  let t ← field bits 0 5
  if t = 31 then (fun x => (32 + x, 11)) <$> field bits 5 6 else pure (t, 5)

/-- The sampling frequency whose index is the four bits at `p`, and the offset of the next field:
an explicit 24-bit frequency after an index of 15, the table's entry for an index below 13; 13 and
14 are refused. -/
def frequencyAt (bits : List Bool) (p : Nat) : Except Fault (Nat × Nat) := do
  let index ← field bits p 4
  if index = 15 then (·, p + 28) <$> field bits (p + 4) 24 else (·, p + 4) <$> tableFrequency index

/-- The start of an AudioSpecificConfig read off its bit string, each field at its offset: the
object type, the sampling frequency after it, then four bits of channel configuration. -/
def reference (bits : List Bool) : Except Fault AudioConfig := do
  let tp ← objectTypeAt bits
  let fq ← frequencyAt bits tp.2
  let channels ← field bits fq.2 4
  return { objectType := .ofCode tp.1.toUInt16, frequency := fq.1, channelConfiguration := channels }

end AudioConfig

section Bits

theorem length_bitsOf (d : List UInt8) : (bitsOf d).length = d.length * 8 := by
  induction d with
  | nil => rfl
  | cons b d ih =>
    simp only [bitsOf, List.flatMap_cons, List.length_append, List.length_map,
      List.length_reverse, List.length_range, List.length_cons] at ih ⊢
    rw [ih]
    omega

theorem bitsOf_append (d e : List UInt8) : bitsOf (d ++ e) = bitsOf d ++ bitsOf e :=
  List.flatMap_append

private theorem getElem?_byteBits (b : UInt8) {i : Nat} (hi : i < 8) :
    ((List.range 8).reverse.map fun j => (b >>> j.toUInt8) &&& 1 == 1)[i]? =
      some ((b >>> (7 - i).toUInt8) &&& 1 == 1) := by
  rw [List.getElem?_map, List.getElem?_reverse (by simpa using hi), List.length_range,
    List.getElem?_range (by omega)]
  rfl

theorem getElem?_bitsOf (d : List UInt8) (i : Nat) (h : i / 8 < d.length) :
    (bitsOf d)[i]? = some ((d[i / 8] >>> (7 - i % 8).toUInt8) &&& 1 == 1) := by
  induction d generalizing i with
  | nil => cases h
  | cons b d ih =>
    simp only [bitsOf, List.flatMap_cons] at ih ⊢
    by_cases hi : i < 8
    · rw [List.getElem?_append_left (by simpa using hi), getElem?_byteBits b hi]
      have h0 : i / 8 = 0 := by omega
      have hm : i % 8 = i := by omega
      simp only [h0, hm, List.getElem_cons_zero]
    · rw [List.getElem?_append_right (by simpa using hi)]
      have hd : (i - 8) / 8 < d.length := by simp only [List.length_cons] at h; omega
      simp only [List.length_map, List.length_reverse, List.length_range]
      rw [ih (i - 8) hd]
      have hq : i / 8 = (i - 8) / 8 + 1 := by omega
      have hr : (i - 8) % 8 = i % 8 := by omega
      simp only [hq, hr, List.getElem_cons_succ]

private theorem and_one_toNat (x : UInt8) : (x &&& 1).toNat = (x &&& 1 == 1).toNat := by
  have hlt : (x &&& 1).toNat < 2 := by
    rw [UInt8.toNat_and, show (1 : UInt8).toNat = 1 from rfl, Nat.and_one_is_mod]
    exact Nat.mod_lt _ (by decide)
  by_cases h : x &&& 1 = 1
  · simp [h]
  · have hne : (x &&& 1).toNat ≠ 1 := fun h' => h (UInt8.toNat_inj.1 h')
    have hb : (x &&& 1 == 1) = false := by simpa using h
    rw [hb, Bool.toNat_false]
    omega

theorem bitAt_eq (d : List UInt8) (i : Nat) (h : i / 8 < d.length) (hb : i < (bitsOf d).length) :
    BitCursor.bitAt d i h = ((bitsOf d)[i]).toNat := by
  have hget := getElem?_bitsOf d i h
  rw [List.getElem?_eq_getElem hb, Option.some.injEq] at hget
  rw [hget, BitCursor.bitAt, and_one_toNat]

end Bits

section Cursor

@[simp] theorem ofBitsFrom_nil (acc : Nat) : ofBitsFrom acc [] = acc := rfl

@[simp] theorem ofBitsFrom_cons (acc : Nat) (b : Bool) (bits : List Bool) :
    ofBitsFrom acc (b :: bits) = ofBitsFrom (2 * acc + b.toNat) bits := rfl

theorem gather_eq (d : List UInt8) (i n acc : Nat) (h : i + n ≤ d.length * 8) :
    BitCursor.gather d i n acc h = ofBitsFrom acc (((bitsOf d).drop i).take n) := by
  induction n generalizing i acc with
  | zero => simp [BitCursor.gather]
  | succ n ih =>
    have hb : i < (bitsOf d).length := by rw [length_bitsOf]; omega
    rw [BitCursor.gather, ih, List.drop_eq_getElem_cons hb, List.take_succ_cons, ofBitsFrom_cons,
      bitAt_eq d i (by omega) hb]

theorem take_run (d : List UInt8) (o n : Nat) :
    (BitCursor.take n).run ⟨d, o⟩ = (fun v => (v, ⟨d, o + n⟩)) <$> field (bitsOf d) o n := by
  simp only [StateT.run, BitCursor.take, field, length_bitsOf]
  by_cases h : o + n ≤ d.length * 8
  · rw [dif_pos h, if_pos h, gather_eq]
    rfl
  · rw [dif_neg h, if_neg h]
    rfl

private theorem map_eq {α β : Type} (g : α → β) (x : Except Fault α) : x.map g = g <$> x := rfl

private theorem run_ite {α : Type} (c : Prop) [Decidable c] (x y : StateT BitCursor (Except Fault) α)
    (s : BitCursor) : (if c then x else y).run s = if c then x.run s else y.run s := by
  split <;> rfl

private theorem map_ite {α β : Type} (g : α → β) (c : Prop) [Decidable c] (x y : Except Fault α) :
    g <$> (if c then x else y) = if c then g <$> x else g <$> y := by
  split <;> rfl

private theorem ite_bind {α β : Type} (c : Prop) [Decidable c] (x y : Except Fault α)
    (f : α → Except Fault β) : (if c then x else y) >>= f = if c then x >>= f else y >>= f := by
  split <;> rfl

theorem parse_eq_reference (d : List UInt8) :
    AudioConfig.parse d = AudioConfig.reference (bitsOf d) := by
  simp only [AudioConfig.parse, AudioConfig.read, AudioConfig.reference, AudioConfig.objectTypeAt,
    AudioConfig.frequencyAt]
  simp [StateT.run_bind, take_run, run_ite, map_ite, ite_bind, StateT.run_map, map_eq]

end Cursor

section Extension

/-- `y` gives what `x` gives whenever `x` succeeds. -/
def Extends {α : Type} (x y : Except Fault α) : Prop := ∀ a, x = .ok a → y = .ok a

namespace Extends

variable {α β : Type}

theorem refl (x : Except Fault α) : Extends x x := fun _ h => h

theorem bind {x y : Except Fault α} {f g : α → Except Fault β} (hx : Extends x y)
    (hf : ∀ a, Extends (f a) (g a)) : Extends (x >>= f) (y >>= g) := by
  intro b h
  cases hxa : x with
  | error e => rw [hxa] at h; cases h
  | ok a =>
    rw [hxa] at h
    rw [hx a hxa]
    exact hf a b h

theorem map {x y : Except Fault α} (hx : Extends x y) (g : α → β) : Extends (g <$> x) (g <$> y) := by
  intro b h
  cases hxa : x with
  | error e => rw [hxa] at h; cases h
  | ok a => rw [hxa] at h; rw [hx a hxa]; exact h

end Extends

theorem field_extends (bits more : List Bool) (o w : Nat) :
    Extends (field bits o w) (field (bits ++ more) o w) := by
  intro v h
  unfold field at h ⊢
  by_cases hw : o + w ≤ bits.length
  · rw [if_pos hw] at h
    rw [if_pos (by rw [List.length_append]; omega), List.drop_append_of_le_length (by omega),
      List.take_append_of_le_length (by rw [List.length_drop]; omega)]
    exact h
  · rw [if_neg hw] at h
    cases h

theorem objectTypeAt_extends (bits more : List Bool) :
    Extends (AudioConfig.objectTypeAt bits) (AudioConfig.objectTypeAt (bits ++ more)) := by
  refine .bind (field_extends bits more 0 5) fun t => ?_
  split
  · exact (field_extends bits more 5 6).map _
  · exact .refl _

theorem frequencyAt_extends (bits more : List Bool) (p : Nat) :
    Extends (AudioConfig.frequencyAt bits p) (AudioConfig.frequencyAt (bits ++ more) p) := by
  refine .bind (field_extends bits more p 4) fun index => ?_
  split
  · exact (field_extends bits more (p + 4) 24).map _
  · exact .refl _

theorem reference_extends (bits more : List Bool) :
    Extends (AudioConfig.reference bits) (AudioConfig.reference (bits ++ more)) :=
  .bind (objectTypeAt_extends bits more) fun tp => .bind (frequencyAt_extends bits more tp.2) fun fq =>
    .bind (field_extends bits more fq.2 4) fun _ => .refl _

theorem parse_append (d e : List UInt8) : Extends (AudioConfig.parse d) (AudioConfig.parse (d ++ e)) := by
  rw [parse_eq_reference, parse_eq_reference, bitsOf_append]
  exact reference_extends (bitsOf d) (bitsOf e)

end Extension

/-- Reading the start of an AudioSpecificConfig is reading its grammar off the bit string of its
bytes, most significant bit first, which has eight bits a byte: each field at its offset, a field
that runs past the end of the bits failing with `configTooShort` (an unexpected end of data), an
index of 13 or 14 with `reservedFrequency` (invalid data). Bytes after a configuration that reads
change nothing. -/
theorem parse_reads_bit_grammar (d : List UInt8) :
    AudioConfig.parse d = AudioConfig.reference (bitsOf d) ∧ (bitsOf d).length = 8 * d.length ∧
      ∀ (e : List UInt8) (c : AudioConfig), AudioConfig.parse d = .ok c →
        AudioConfig.parse (d ++ e) = .ok c := by
  refine ⟨parse_eq_reference d, ?_, fun e => parse_append d e⟩
  rw [length_bitsOf, Nat.mul_comm]

/-- Object type 33 through the escape puts the frequency index across the second and third
bytes. -/
example : AudioConfig.parse [0b1111_1000, 0b0010_0110, 0b0100_0000] =
    .ok ⟨.unknown 33, 48000, 2⟩ := rfl

end FlvDemux.Aac
