import FlvDemux.Proofs.AmfSkip
import FlvDemux.Proofs.AmfRoundTrip

/-!
# AMF0 reading moves forward, and its loops end

Every AMF0 reader takes a prefix of its input: a value at least its marker, a property name at
least its two length bytes (`value_takes`, `nextKey_some_takes`). Hence the bounded loop over
properties is the unbounded one, a strict array has no more items than bytes after its count,
and the nesting limit bounds the depth of a value and nothing else (`value_ok_iff`).
-/

namespace FlvDemux

namespace Reader

/-- A reader takes at least `k` bytes from the front of its input, and leaves the rest. -/
def Takes {ε α : Type} (k : Nat) (d : Reader ε α) : Prop :=
  ∀ bs a r, d.run bs = .ok (a, r) → ∃ p, k ≤ p.length ∧ bs = p ++ r

namespace Takes

variable {ε α β : Type} {j k : Nat} {d : Reader ε α}

theorem mono (h : Takes k d) (hjk : j ≤ k) : Takes j d := by
  intro bs a r hr
  obtain ⟨p, hp, rfl⟩ := h bs a r hr
  exact ⟨p, hjk.trans hp, rfl⟩

theorem bind {f : α → Reader ε β} (hd : Takes j d) (hf : ∀ a, Takes k (f a)) :
    Takes (j + k) (d >>= f) := by
  intro bs b r h
  obtain ⟨a, s, hs, hr⟩ := run_bind_ok h
  obtain ⟨p, hp, rfl⟩ := hd bs a s hs
  obtain ⟨q, hq, rfl⟩ := hf a s b r hr
  exact ⟨p ++ q, by simp only [List.length_append]; omega, (List.append_assoc p q r).symm⟩

theorem pure (a : α) : Takes 0 (Pure.pure a : Reader ε α) := by
  intro bs b r h
  cases h
  exact ⟨[], le_rfl, rfl⟩

theorem throw (e : ε) : Takes k (MonadExcept.throw e : Reader ε α) := by
  intro bs b r h
  cases h

theorem length_le (h : Takes k d) {bs : List UInt8} {a : α} {r : List UInt8}
    (hr : d.run bs = .ok (a, r)) : r.length + k ≤ bs.length := by
  obtain ⟨p, hp, rfl⟩ := h bs a r hr
  simp only [List.length_append]
  omega

end Takes

theorem atEnd_takes {ε : Type} : Takes 0 (atEnd : Reader ε Bool) := by
  intro bs b r h
  cases h
  exact ⟨[], le_rfl, rfl⟩

theorem remaining_takes {ε : Type} : Takes 0 (remaining : Reader ε Nat) := by
  intro bs b r h
  cases h
  exact ⟨[], le_rfl, rfl⟩

/-- `d'` succeeds wherever `d` does, with the same value and at the same place. -/
def Refines {ε α : Type} (d d' : Reader ε α) : Prop :=
  ∀ bs a r, d.run bs = .ok (a, r) → d'.run bs = .ok (a, r)

namespace Refines

variable {ε α β : Type} {d d' : Reader ε α}

theorem refl (d : Reader ε α) : Refines d d := fun _ _ _ h => h

theorem bind {f f' : α → Reader ε β} (hd : Refines d d') (hf : ∀ a, Refines (f a) (f' a)) :
    Refines (d >>= f) (d' >>= f') := by
  intro bs b r h
  obtain ⟨a, s, hs, hr⟩ := run_bind_ok h
  rw [run_bind_of_ok (hd bs a s hs)]
  exact hf a s b r hr

theorem throw (e : ε) (d' : Reader ε α) : Refines (MonadExcept.throw e) d' := by
  intro bs a r h
  cases h

end Refines

end Reader

namespace Amf.Value

theorem propertiesDepth_le_iff {n : Nat} : ∀ {ps : List (String × Value)},
    propertiesDepth ps ≤ n ↔ ∀ p ∈ ps, p.2.depth ≤ n
  | [] => by simp [propertiesDepth]
  | (k, w) :: ps => by simp [propertiesDepth, propertiesDepth_le_iff]

theorem itemsDepth_le_iff {n : Nat} : ∀ {vs : List Value}, itemsDepth vs ≤ n ↔ ∀ v ∈ vs, v.depth ≤ n
  | [] => by simp [itemsDepth]
  | w :: vs => by simp [itemsDepth, itemsDepth_le_iff]

end Amf.Value

namespace Amf.Decoder

open Reader

variable {β : Type}

theorem marker_takes : Takes 1 marker := by
  intro bs m r h
  exact ⟨[m.code], le_rfl, marker_run_ok h⟩

theorem lift_word_takes {α : Type} (n : Nat) (g : Nat → α) :
    Takes n (lift (do return g (← Reader.word n))) := by
  intro bs a r h
  rw [lift_word_run] at h
  split at h
  · cases h
    exact ⟨bs.take n, by simp; omega, (List.take_append_drop n bs).symm⟩
  · cases h

theorem lift_byte_takes : Takes 1 (lift Reader.byte) := by
  intro bs b r h
  rcases bs with _ | ⟨c, t⟩
  · cases h
  · rw [lift_byte_cons] at h
    cases h
    exact ⟨[_], le_rfl, rfl⟩

theorem lift_u16_takes : Takes 2 (lift Reader.u16) := lift_word_takes 2 Nat.toUInt16

theorem lift_u32_takes : Takes 4 (lift Reader.u32) := lift_word_takes 4 Nat.toUInt32

theorem lift_bits64_takes : Takes 8 (lift Reader.bits64) := lift_word_takes 8 Nat.toUInt64

theorem lift_i16_takes : Takes 2 (lift Reader.i16) :=
  lift_word_takes 2 fun x => x.toUInt16.toInt16

theorem lift_counted_takes (n : Nat) : Takes n (lift (Reader.counted n)) := by
  intro bs b r h
  rw [lift_counted_run] at h
  split at h
  · cases h
    exact ⟨bs.take n, by simp; omega, (List.take_append_drop n bs).symm⟩
  · cases h

theorem drop_takes (n : Nat) : Takes n (drop n) :=
  ((lift_counted_takes n).bind fun _ => Takes.pure _).mono (by omega)

theorem text_takes (n : Nat) : Takes n (text n) := by
  refine ((lift_counted_takes n).bind fun bs => ?_).mono (Nat.le_add_right n 0)
  cases Utf8.decode bs with
  | ok s => exact Takes.pure s
  | error e => exact Takes.throw _

theorem shortText_takes : Takes 2 shortText :=
  (lift_u16_takes.bind fun n => (text_takes n.toNat).mono (Nat.zero_le _)).mono (by omega)

theorem longText_takes : Takes 4 longText :=
  (lift_u32_takes.bind fun n => (text_takes n.toNat).mono (Nat.zero_le _)).mono (by omega)

theorem nextKey_takes : Takes 0 nextKey := by
  refine Takes.bind (k := 0) atEnd_takes fun atEnd => ?_
  cases atEnd with
  | true => exact Takes.pure _
  | false =>
    refine (Takes.bind (k := 0) shortText_takes fun name => ?_).mono (Nat.zero_le _)
    cases name.isEmpty with
    | false => exact Takes.pure _
    | true =>
      refine (Takes.bind (k := 0) lift_byte_takes fun code => ?_).mono (Nat.zero_le _)
      by_cases hc : code ≠ Marker.objectEnd.code
      · rw [if_pos hc]
        exact (Takes.throw _).bind fun _ => Takes.pure _
      · rw [if_neg hc]
        exact Takes.pure _

theorem nextKey_some_takes {bs r : List UInt8} {key : String}
    (h : nextKey.run bs = .ok (some key, r)) : ∃ p, 2 ≤ p.length ∧ bs = p ++ r :=
  shortText_takes bs key r ((nextKey_ok h).2 key rfl).1

section Loops

variable {elem : Decoder β}

theorem propertiesUpTo_takes (h : Takes 0 elem) : ∀ b, Takes 0 (propertiesUpTo elem b)
  | 0 => Takes.pure _
  | b + 1 => by
    refine Takes.bind (k := 0) nextKey_takes fun key => ?_
    cases key with
    | none => exact Takes.pure _
    | some key => exact h.bind fun _ => (propertiesUpTo_takes h b).bind fun _ => Takes.pure _

theorem properties_takes (h : Takes 0 elem) : Takes 0 (properties elem) :=
  remaining_takes.bind fun b => propertiesUpTo_takes h b

theorem items_takes (h : Takes 1 elem) : ∀ n, Takes n (items elem n)
  | 0 => Takes.pure _
  | n + 1 => (h.bind fun _ => (items_takes h n).bind fun _ => Takes.pure _).mono (by omega)

theorem length_of_items_ok : ∀ {n : Nat} {bs r : List UInt8} {vs : List β},
    (items elem n).run bs = .ok (vs, r) → vs.length = n
  | 0, bs, r, vs, h => by
    cases h
    rfl
  | n + 1, bs, r, vs, h => by
    obtain ⟨v, r₁, vs', -, hi, rfl⟩ := items_succ_ok h
    rw [List.length_cons, length_of_items_ok hi]

/-- Given at least as many steps as there are bytes, the loop over properties ends before its
last step: each property takes the two bytes of its name, and the loop stops at the end of the
input. -/
theorem propertiesUpTo_succ_of_length_le (h : Takes 0 elem) : ∀ b (bs : List UInt8),
    bs.length ≤ b → (propertiesUpTo elem (b + 1)).run bs = (propertiesUpTo elem b).run bs
  | 0, bs, hb => by
    rw [List.length_eq_zero_iff.1 (Nat.le_zero.1 hb)]
    exact propertiesUpTo_run_none nextKey_run_nil
  | b + 1, bs, hb => by
    rcases hk : nextKey.run bs with e | ⟨_ | key, r₀⟩
    · rw [propertiesUpTo_run_key_error hk, propertiesUpTo_run_key_error hk]
    · rw [propertiesUpTo_run_none hk, propertiesUpTo_run_none hk]
    · rcases hv : elem.run r₀ with e | ⟨v, r₁⟩
      · rw [propertiesUpTo_run_elem_error hk hv, propertiesUpTo_run_elem_error hk hv]
      · have hkey := shortText_takes.length_le ((nextKey_ok hk).2 key rfl).1
        have hval := h.length_le hv
        rw [propertiesUpTo_run_some hk hv, propertiesUpTo_run_some hk hv,
          propertiesUpTo_succ_of_length_le h b r₁ (by omega)]

theorem propertiesUpTo_eq_properties (h : Takes 0 elem) {b : Nat} {bs : List UInt8}
    (hb : bs.length ≤ b) : (propertiesUpTo elem b).run bs = (properties elem).run bs := by
  rw [properties_run]
  induction b, hb using Nat.le_induction with
  | base => rfl
  | succ b hb ih => rw [propertiesUpTo_succ_of_length_le h b bs hb, ih]

end Loops

theorem nest_takes {γ : Type} {k : Nat} {deeper : Option β} {f : β → Decoder γ}
    (h : ∀ d, deeper = some d → Takes k (f d)) : Takes k (nest deeper f) := by
  cases deeper with
  | none => exact Takes.throw _
  | some d => exact h d rfl

theorem valueWith_takes {deeper : Option (Decoder Value)} (h : ∀ d, deeper = some d → Takes 1 d) :
    Takes 1 (valueWith deeper) := by
  have hnest : ∀ {γ : Type} (f : Decoder Value → Decoder γ),
      (∀ d, Takes 1 d → Takes 0 (f d)) → Takes 0 (nest deeper f) :=
    fun f hf => nest_takes fun d hd => hf d (h d hd)
  have hprops : ∀ d : Decoder Value, Takes 1 d → Takes 0 (properties d) :=
    fun d hd => properties_takes (hd.mono (Nat.zero_le _))
  refine Takes.bind (k := 0) marker_takes fun m => ?_
  cases m with
  | number => exact (lift_bits64_takes.bind fun _ => Takes.pure _).mono (Nat.zero_le _)
  | boolean => exact (lift_byte_takes.bind fun _ => Takes.pure _).mono (Nat.zero_le _)
  | string => exact (shortText_takes.bind fun _ => Takes.pure _).mono (Nat.zero_le _)
  | longString => exact (longText_takes.bind fun _ => Takes.pure _).mono (Nat.zero_le _)
  | reference => exact (lift_u16_takes.bind fun _ => Takes.pure _).mono (Nat.zero_le _)
  | date =>
    exact (lift_bits64_takes.bind fun _ => lift_i16_takes.bind fun _ => Takes.pure _).mono
      (Nat.zero_le _)
  | object => exact Takes.bind (k := 0) (hnest _ hprops) fun _ => Takes.pure _
  | ecmaArray =>
    exact (lift_u32_takes.bind fun _ => Takes.bind (k := 0) (hnest _ hprops) fun _ =>
      Takes.pure _).mono (Nat.zero_le _)
  | strictArray =>
    refine Takes.bind (k := 0) (hnest _ fun d hd => ?_) fun _ => Takes.pure _
    exact (lift_u32_takes.bind fun n => (items_takes hd n.toNat).mono (Nat.zero_le _)).mono
      (Nat.zero_le _)
  | null | undefined => exact Takes.pure _
  | movieClip | objectEnd | unsupported | recordset | xmlDocument | typedObject
    | avmPlusObject => exact Takes.throw _

theorem value_takes : ∀ n, Takes 1 (value n)
  | 0 => valueWith_takes fun _ h => by cases h
  | n + 1 => valueWith_takes fun _ h => by
    cases h
    exact value_takes n

theorem skipWith_takes {deeper : Option (Decoder Unit)} (h : ∀ s, deeper = some s → Takes 1 s) :
    Takes 1 (skipWith deeper) := by
  have hnest : ∀ (f : Decoder Unit → Decoder Unit), (∀ s, Takes 1 s → Takes 0 (f s)) →
      Takes 0 (nest deeper f) :=
    fun f hf => nest_takes fun s hs => hf s (h s hs)
  have hprops : ∀ s : Decoder Unit, Takes 1 s → Takes 0 (do let _ ← properties s) :=
    fun s hs => (properties_takes (hs.mono (Nat.zero_le _))).bind fun _ => Takes.pure _
  refine Takes.bind (k := 0) marker_takes fun m => ?_
  cases m with
  | number | boolean | reference | date => exact (drop_takes _).mono (Nat.zero_le _)
  | string | movieClip =>
    exact (lift_u16_takes.bind fun n => (drop_takes n.toNat).mono (Nat.zero_le _)).mono
      (Nat.zero_le _)
  | longString | xmlDocument =>
    exact (lift_u32_takes.bind fun n => (drop_takes n.toNat).mono (Nat.zero_le _)).mono
      (Nat.zero_le _)
  | object => exact hnest _ hprops
  | ecmaArray => exact ((drop_takes 4).bind fun _ => hnest _ hprops).mono (Nat.zero_le _)
  | typedObject =>
    exact (lift_u16_takes.bind fun n =>
      Takes.bind (k := 0) ((drop_takes n.toNat).mono (Nat.zero_le _)) fun _ => hnest _ hprops).mono
      (Nat.zero_le _)
  | strictArray =>
    exact (lift_u32_takes.bind fun n => hnest _ fun s hs =>
      Takes.bind (k := 0) ((items_takes hs n.toNat).mono (Nat.zero_le _)) fun _ =>
        Takes.pure _).mono (Nat.zero_le _)
  | null | undefined | objectEnd | unsupported => exact Takes.pure _
  | recordset | avmPlusObject => exact Takes.throw _

theorem skipValue_takes : ∀ n, Takes 1 (skipValue n)
  | 0 => skipWith_takes fun _ h => by cases h
  | n + 1 => skipWith_takes fun _ h => by
    cases h
    exact skipValue_takes n

theorem strictArray_items_le {n : Nat} {c rest r : List UInt8} {v : Value} (hc : c.length = 4)
    (h : (value n).run (Marker.strictArray.code :: (c ++ rest)) = .ok (v, r)) :
    ∃ vs, v = .strictArray vs ∧ vs.length = Bytes.toNat c ∧
      Bytes.toNat c + r.length ≤ rest.length := by
  cases n with
  | zero =>
    rw [value, valueWith_strictArray_none] at h
    cases h
  | succ n =>
    rw [value, valueWith_strictArray, if_pos (by simp [hc]), List.take_left' hc,
      List.drop_left' hc] at h
    rcases hi : (items (value n) (Bytes.toNat c)).run rest with e | ⟨vs, r'⟩ <;>
      rw [hi] at h <;> cases h
    have hfit := (items_takes (value_takes n) _).length_le hi
    exact ⟨vs, rfl, length_of_items_ok hi, by dsimp only; omega⟩

section Transfer

variable {d d' : Decoder β} {P : β → Prop}

theorem propertiesUpTo_forall (h : ∀ bs v r, d.run bs = .ok (v, r) → P v) : ∀ b bs ps r,
    (propertiesUpTo d b).run bs = .ok (ps, r) → ∀ p ∈ ps, P p.2
  | 0, bs, ps, r, hr => by
    cases hr
    simp
  | b + 1, bs, ps, r, hr => by
    rcases propertiesUpTo_succ_ok hr with ⟨-, rfl⟩ | ⟨key, r₀, v, r₁, ps', -, hv, hp, rfl⟩
    · simp
    · intro p hp'
      rcases List.mem_cons.1 hp' with rfl | hp'
      · exact h r₀ v r₁ hv
      · exact propertiesUpTo_forall h b r₁ ps' r hp p hp'

theorem items_forall (h : ∀ bs v r, d.run bs = .ok (v, r) → P v) : ∀ k bs vs r,
    (items d k).run bs = .ok (vs, r) → ∀ v ∈ vs, P v
  | 0, bs, vs, r, hr => by
    cases hr
    simp
  | k + 1, bs, vs, r, hr => by
    obtain ⟨v, r₁, vs', hv, hi, rfl⟩ := items_succ_ok hr
    intro w hw
    rcases List.mem_cons.1 hw with rfl | hw
    · exact h bs w r₁ hv
    · exact items_forall h k r₁ vs' r hi w hw

theorem propertiesUpTo_transfer (h : ∀ bs v r, d.run bs = .ok (v, r) → P v → d'.run bs = .ok (v, r)) :
    ∀ b bs ps r, (propertiesUpTo d b).run bs = .ok (ps, r) → (∀ p ∈ ps, P p.2) →
      (propertiesUpTo d' b).run bs = .ok (ps, r)
  | 0, bs, ps, r, hr, _ => hr
  | b + 1, bs, ps, r, hr, hP => by
    rcases propertiesUpTo_succ_ok hr with ⟨hk, rfl⟩ | ⟨key, r₀, v, r₁, ps', hk, hv, hp, rfl⟩
    · exact propertiesUpTo_run_none hk
    · have hrest := propertiesUpTo_transfer h b r₁ ps' r hp fun p hp' =>
        hP p (List.mem_cons_of_mem _ hp')
      rw [propertiesUpTo_run_some hk (h r₀ v r₁ hv (hP _ List.mem_cons_self)), hrest]
      rfl

theorem items_transfer (h : ∀ bs v r, d.run bs = .ok (v, r) → P v → d'.run bs = .ok (v, r)) :
    ∀ k bs vs r, (items d k).run bs = .ok (vs, r) → (∀ v ∈ vs, P v) →
      (items d' k).run bs = .ok (vs, r)
  | 0, bs, vs, r, hr, _ => hr
  | k + 1, bs, vs, r, hr, hP => by
    obtain ⟨v, r₁, vs', hv, hi, rfl⟩ := items_succ_ok hr
    have hrest := items_transfer h k r₁ vs' r hi fun w hw => hP w (List.mem_cons_of_mem _ hw)
    rw [items_run_succ (h bs v r₁ hv (hP _ List.mem_cons_self)), hrest]
    rfl

end Transfer

section Levels

variable {bs r : List UInt8} {v : Value}

theorem valueWith_leaf (d d' : Option (Decoder Value)) {m : Marker} (hm : ¬IsContainer m)
    (bs : List UInt8) : (valueWith d).run (m.code :: bs) = (valueWith d').run (m.code :: bs) := by
  rw [valueWith, valueWith, Reader.run_bind_of_ok (marker_run_code m bs),
    Reader.run_bind_of_ok (marker_run_code m bs)]
  cases m with
  | object | ecmaArray | strictArray => exact absurd (by simp [IsContainer]) hm
  | _ => rfl

theorem valueWith_none_container {m : Marker} (hc : IsContainer m) :
    (valueWith none).run (m.code :: bs) ≠ .ok (v, r) := by
  intro h
  rcases hc with rfl | rfl | rfl
  · rw [valueWith_object_none] at h
    cases h
  · rw [valueWith_ecmaArray_none] at h
    split at h <;> cases h
  · rw [valueWith_strictArray_none] at h
    cases h

private theorem depth_of_map_ok {γ : Type} {x : Except ReadError (γ × List UInt8)} {g : γ → Value}
    (hg : ∀ c, (g c).depth = 0) (h : x.map (fun p => (g p.1, p.2)) = .ok (v, r)) : v.depth = 0 := by
  rcases x with e | ⟨c, t⟩
  · cases h
  · cases h
    exact hg c

theorem depth_of_valueWith_leaf {d : Option (Decoder Value)} {m : Marker} (hm : ¬IsContainer m)
    (h : (valueWith d).run (m.code :: bs) = .ok (v, r)) : v.depth = 0 := by
  cases m with
  | number => exact depth_of_map_ok (g := .number) (fun _ => rfl) ((valueWith_number d bs).symm.trans h)
  | boolean =>
    exact depth_of_map_ok (g := fun b : UInt8 => .boolean (b > 0)) (fun _ => rfl)
      ((valueWith_boolean d bs).symm.trans h)
  | string => exact depth_of_map_ok (g := .string) (fun _ => rfl) ((valueWith_string d bs).symm.trans h)
  | longString =>
    exact depth_of_map_ok (g := .longString) (fun _ => rfl) ((valueWith_longString d bs).symm.trans h)
  | reference =>
    exact depth_of_map_ok (g := .reference) (fun _ => rfl) ((valueWith_reference d bs).symm.trans h)
  | date =>
    rw [valueWith_date] at h
    split at h
    · cases h
      rfl
    · cases h
  | null =>
    rw [valueWith_null] at h
    cases h
    rfl
  | undefined =>
    rw [valueWith_undefined] at h
    cases h
    rfl
  | object | ecmaArray | strictArray => exact absurd (by simp [IsContainer]) hm
  | movieClip | objectEnd | unsupported | recordset | xmlDocument | typedObject | avmPlusObject =>
    rw [valueWith_refused d bs (by simp [valueRefused])] at h
    cases h

theorem value_object_ok {n : Nat} (h : (value (n + 1)).run (Marker.object.code :: bs) = .ok (v, r)) :
    ∃ ps, (properties (value n)).run bs = .ok (ps, r) ∧ v = .object ps := by
  rw [value, valueWith_object] at h
  rcases hp : (properties (value n)).run bs with e | ⟨ps, r'⟩ <;> rw [hp] at h <;> cases h
  exact ⟨ps, rfl, rfl⟩

theorem value_ecmaArray_ok {n : Nat}
    (h : (value (n + 1)).run (Marker.ecmaArray.code :: bs) = .ok (v, r)) :
    4 ≤ bs.length ∧ ∃ ps, (properties (value n)).run (bs.drop 4) = .ok (ps, r) ∧ v = .object ps := by
  rw [value, valueWith_ecmaArray] at h
  split at h
  · rcases hp : (properties (value n)).run (bs.drop 4) with e | ⟨ps, r'⟩ <;> rw [hp] at h <;>
      cases h
    exact ⟨‹_›, ps, rfl, rfl⟩
  · cases h

theorem value_strictArray_ok {n : Nat}
    (h : (value (n + 1)).run (Marker.strictArray.code :: bs) = .ok (v, r)) :
    4 ≤ bs.length ∧ ∃ vs, (items (value n) (Bytes.toNat (bs.take 4))).run (bs.drop 4) = .ok (vs, r) ∧
      v = .strictArray vs := by
  rw [value, valueWith_strictArray] at h
  split at h
  · rcases hi : (items (value n) (Bytes.toNat (bs.take 4))).run (bs.drop 4) with e | ⟨vs, r'⟩ <;>
      rw [hi] at h <;> cases h
    exact ⟨‹_›, vs, rfl, rfl⟩
  · cases h

theorem value_ok_marker {n : Nat} (h : (value n).run bs = .ok (v, r)) :
    ∃ (m : Marker) (t : List UInt8), bs = m.code :: t := by
  obtain ⟨d, hd⟩ := value_eq_valueWith n
  rw [hd, valueWith] at h
  obtain ⟨m, t, hm, -⟩ := Reader.run_bind_ok h
  exact ⟨m, t, marker_run_ok hm⟩

theorem depth_pos_of_container {n : Nat} {m : Marker} (hc : IsContainer m)
    (h : (value n).run (m.code :: bs) = .ok (v, r)) : 0 < v.depth := by
  cases n with
  | zero => exact absurd h (valueWith_none_container hc)
  | succ n =>
    rcases hc with rfl | rfl | rfl
    · obtain ⟨ps, -, rfl⟩ := value_object_ok h
      simp [Value.depth]
    · obtain ⟨-, ps, -, rfl⟩ := value_ecmaArray_ok h
      simp [Value.depth]
    · obtain ⟨-, vs, -, rfl⟩ := value_strictArray_ok h
      simp [Value.depth]

open Value in
theorem depth_le_of_value_ok : ∀ (n : Nat) {bs r : List UInt8} {v : Value},
    (value n).run bs = .ok (v, r) → v.depth ≤ n := by
  intro n
  induction n with
  | zero =>
    intro bs r v h
    obtain ⟨m, t, rfl⟩ := value_ok_marker h
    by_cases hc : IsContainer m
    · exact absurd h (valueWith_none_container hc)
    · exact (depth_of_valueWith_leaf hc h).le
  | succ n ih =>
    intro bs r v h
    obtain ⟨m, t, rfl⟩ := value_ok_marker h
    by_cases hc : IsContainer m
    · have hprops : ∀ {bs' r' : List UInt8} {ps : List (String × Value)},
          (properties (value n)).run bs' = .ok (ps, r') → propertiesDepth ps ≤ n := by
        intro bs' r' ps hp
        rw [properties_run] at hp
        exact propertiesDepth_le_iff.2 (propertiesUpTo_forall (fun _ _ _ => ih) _ _ _ _ hp)
      rcases hc with rfl | rfl | rfl
      · obtain ⟨ps, hp, rfl⟩ := value_object_ok h
        simpa [Value.depth] using hprops hp
      · obtain ⟨-, ps, hp, rfl⟩ := value_ecmaArray_ok h
        simpa [Value.depth] using hprops hp
      · obtain ⟨-, vs, hi, rfl⟩ := value_strictArray_ok h
        simpa [Value.depth] using itemsDepth_le_iff.2 (items_forall (fun _ _ _ => ih) _ _ _ _ hi)
    · exact (depth_of_valueWith_leaf hc h).le.trans (Nat.zero_le _)

open Value in
theorem value_ok_of_depth_le : ∀ (n : Nat) {N : Nat} {bs r : List UInt8} {v : Value},
    (value N).run bs = .ok (v, r) → v.depth ≤ n → (value n).run bs = .ok (v, r) := by
  intro n
  induction n with
  | zero =>
    intro N bs r v h hv
    obtain ⟨m, t, rfl⟩ := value_ok_marker h
    by_cases hc : IsContainer m
    · have := depth_pos_of_container hc h
      omega
    · obtain ⟨d, hd⟩ := value_eq_valueWith N
      rw [hd, valueWith_leaf d none hc] at h
      exact h
  | succ n ih =>
    intro N bs r v h hv
    obtain ⟨m, t, rfl⟩ := value_ok_marker h
    by_cases hc : IsContainer m
    · cases N with
      | zero => exact absurd h (valueWith_none_container hc)
      | succ N =>
        have hprops : ∀ {bs' r' : List UInt8} {ps : List (String × Value)},
            (properties (value N)).run bs' = .ok (ps, r') → propertiesDepth ps ≤ n →
              (properties (value n)).run bs' = .ok (ps, r') := by
          intro bs' r' ps hp hle
          rw [properties_run] at hp ⊢
          exact propertiesUpTo_transfer (fun _ _ _ => ih) _ _ _ _ hp (propertiesDepth_le_iff.1 hle)
        rcases hc with rfl | rfl | rfl
        · obtain ⟨ps, hp, rfl⟩ := value_object_ok h
          rw [value, valueWith_object, hprops hp (by simp only [Value.depth] at hv; omega)]
          rfl
        · obtain ⟨h4, ps, hp, rfl⟩ := value_ecmaArray_ok h
          rw [value, valueWith_ecmaArray, if_pos h4,
            hprops hp (by simp only [Value.depth] at hv; omega)]
          rfl
        · obtain ⟨h4, vs, hi, rfl⟩ := value_strictArray_ok h
          have hvs : ∀ w ∈ vs, w.depth ≤ n :=
            itemsDepth_le_iff.1 (by simp only [Value.depth] at hv; omega)
          rw [value, valueWith_strictArray, if_pos h4,
            items_transfer (fun _ _ _ => ih) _ _ _ _ hi hvs]
          rfl
    · obtain ⟨d, hd⟩ := value_eq_valueWith N
      rw [hd, valueWith_leaf d (some (value n)) hc] at h
      exact h

theorem value_ok_iff {n N : Nat} (hn : n ≤ N) :
    (value n).run bs = .ok (v, r) ↔ (value N).run bs = .ok (v, r) ∧ v.depth ≤ n :=
  ⟨fun h => ⟨value_ok_of_depth_le N h ((depth_le_of_value_ok n h).trans hn),
      depth_le_of_value_ok n h⟩,
    fun h => value_ok_of_depth_le n h.1 h.2⟩

end Levels

section Skipping

variable {bs r : List UInt8} {v : Value}

theorem propertiesUpTo_refines {s s' : Decoder β} (h : Refines s s') (b : Nat) :
    Refines (propertiesUpTo s b) (propertiesUpTo s' b) := fun bs ps r hr =>
  propertiesUpTo_transfer (P := fun _ => True) (fun bs v r hv _ => h bs v r hv) b bs ps r hr
    fun _ _ => trivial

theorem items_refines {s s' : Decoder β} (h : Refines s s') (k : Nat) :
    Refines (items s k) (items s' k) := fun bs vs r hr =>
  items_transfer (P := fun _ => True) (fun bs v r hv _ => h bs v r hv) k bs vs r hr
    fun _ _ => trivial

theorem skipWith_refines {o o' : Option (Decoder Unit)}
    (h : ∀ s, o = some s → ∃ s', o' = some s' ∧ Refines s s') :
    Refines (skipWith o) (skipWith o') := by
  -- only the containers look at the skipper, and refusing to nest succeeds nowhere
  have hnest : ∀ (f f' : Decoder Unit → Decoder Unit),
      (∀ s s', Refines s s' → Refines (f s) (f' s')) → Refines (nest o f) (nest o' f') := by
    intro f f' hf
    cases o with
    | none => exact Refines.throw _ _
    | some s =>
      obtain ⟨s', rfl, hs⟩ := h s rfl
      exact hf s s' hs
  have hprops : ∀ s s' : Decoder Unit, Refines s s' →
      Refines (do let _ ← properties s) (do let _ ← properties s') := fun s s' hs =>
    ((Refines.refl _).bind fun b => propertiesUpTo_refines hs b).bind fun _ => Refines.refl _
  refine (Refines.refl marker).bind fun m => ?_
  cases m with
  | object => exact hnest _ _ hprops
  | ecmaArray => exact (Refines.refl _).bind fun _ => hnest _ _ hprops
  | typedObject =>
    exact (Refines.refl _).bind fun _ => (Refines.refl _).bind fun _ => hnest _ _ hprops
  | strictArray =>
    exact (Refines.refl _).bind fun n => hnest _ _ fun s s' hs =>
      (items_refines hs n.toNat).bind fun _ => Refines.refl _
  | _ => exact Refines.refl _

theorem skipValue_refines : ∀ {n N : Nat}, n ≤ N → Refines (skipValue n) (skipValue N)
  | 0, 0, _ => Refines.refl _
  | 0, N + 1, _ => skipWith_refines fun _ h => by cases h
  | n + 1, N + 1, h => skipWith_refines fun s hs => by
    cases hs
    exact ⟨_, rfl, skipValue_refines (by omega)⟩
  | n + 1, 0, h => absurd h (by omega)

end Skipping

end Amf.Decoder

namespace Amf

open Decoder Reader

section Skipping

variable {bs r : List UInt8} {v : Value}

theorem Foreign.mono {n N : Nat} (hf : Foreign n bs) (hn : n ≤ N) : Foreign N bs := by
  induction hf generalizing N with
  | marker hm => exact .marker hm
  | string hlen hbody hbad => exact .string hlen hbody hbad
  | longString hlen hbody hbad => exact .longString hlen hbody hbad
  | @object n j bs s r skipped key hskip hj hkey _ ih =>
    obtain ⟨N, rfl⟩ : ∃ N', N = N' + 1 := ⟨N - 1, by omega⟩
    exact .object (propertiesUpTo_refines (skipValue_refines (by omega)) j bs skipped s hskip) hj
      hkey (ih (by omega))
  | @ecmaArray n j count bs s r skipped key hc hskip hj hkey _ ih =>
    obtain ⟨N, rfl⟩ : ∃ N', N = N' + 1 := ⟨N - 1, by omega⟩
    exact .ecmaArray hc (propertiesUpTo_refines (skipValue_refines (by omega)) j bs skipped s hskip)
      hj hkey (ih (by omega))
  | @strictArray n j count bs s skipped hc hj hskip _ ih =>
    obtain ⟨N, rfl⟩ : ∃ N', N = N' + 1 := ⟨N - 1, by omega⟩
    exact .strictArray hc hj (items_refines (skipValue_refines (by omega)) j bs skipped s hskip)
      (ih (by omega))

theorem skipValue_fails_of_lt_depth {n N : Nat} (h : (value N).run bs = .ok (v, r))
    (hlt : n < v.depth) : ∀ r', (skipValue n).run bs ≠ .ok ((), r') := by
  intro r' hs
  have hnN : n ≤ N := by
    have := depth_le_of_value_ok N h
    omega
  rcases value_or_foreign n bs r' hs with ⟨v', hv'⟩ | hf
  · have hle := depth_le_of_value_ok n hv'
    have hN := value_ok_of_depth_le N hv' (hle.trans hnN)
    rw [h] at hN
    cases hN
    omega
  · exact value_fails_of_foreign (hf.mono hnN) v r h

theorem skipValue_ok_iff {n N : Nat} (h : (value N).run bs = .ok (v, r)) :
    (skipValue n).run bs = .ok ((), r) ↔ v.depth ≤ n := by
  constructor
  · intro hs
    by_contra hlt
    exact skipValue_fails_of_lt_depth h (by omega) r hs
  · intro hle
    exact skipValue_passes n bs v r (value_ok_of_depth_le n h hle)

end Skipping

end Amf

end FlvDemux
