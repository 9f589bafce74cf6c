import FlvDemux.Proofs.AmfReading

/-!
# Passing over a value stops where reading it does

Where `decode` reads a value, `skip` passes over it and stops at the same place
(`skipValue_passes`); where `skip` passes over one, `decode` reads it alike unless it holds a part
only `skip` reads (`Foreign`), which makes `decode` fail. The main statement is
`skip_agrees_with_decode`.
-/

namespace FlvDemux.Amf

open Decoder

/-- The markers `skip` passes over and `decode` refuses. -/
def skipOnly : List Marker := [.movieClip, .objectEnd, .unsupported, .xmlDocument, .typedObject]

/-- The value at the front of `bs`, read with `n` more levels of nesting allowed, holds in value
position a part that only `skip` reads: a marker of `skipOnly`, or a string or long string
whose bytes are not UTF-8, either at the front or as the value of a property or an item of a
container. A property's value is reached by passing over the properties before it, an item by
passing over the items before it. -/
inductive Foreign : Nat → List UInt8 → Prop
  | marker {n : Nat} {m : Marker} {bs : List UInt8} (hm : m ∈ skipOnly) : Foreign n (m.code :: bs)
  | string {n : Nat} {len body rest : List UInt8} {e : Utf8Error} (hlen : len.length = 2)
      (hbody : body.length = Bytes.toNat len) (hbad : Utf8.decode body = .error e) :
      Foreign n (Marker.string.code :: (len ++ (body ++ rest)))
  | longString {n : Nat} {len body rest : List UInt8} {e : Utf8Error} (hlen : len.length = 4)
      (hbody : body.length = Bytes.toNat len) (hbad : Utf8.decode body = .error e) :
      Foreign n (Marker.longString.code :: (len ++ (body ++ rest)))
  | object {n j : Nat} {bs s r : List UInt8} {skipped : List (String × Unit)} {key : String}
      (hskip : (propertiesUpTo (skipValue n) j).run bs = .ok (skipped, s))
      (hj : skipped.length = j) (hkey : nextKey.run s = .ok (some key, r)) (hv : Foreign n r) :
      Foreign (n + 1) (Marker.object.code :: bs)
  | ecmaArray {n j : Nat} {count bs s r : List UInt8} {skipped : List (String × Unit)}
      {key : String} (hc : count.length = 4)
      (hskip : (propertiesUpTo (skipValue n) j).run bs = .ok (skipped, s))
      (hj : skipped.length = j) (hkey : nextKey.run s = .ok (some key, r)) (hv : Foreign n r) :
      Foreign (n + 1) (Marker.ecmaArray.code :: (count ++ bs))
  | strictArray {n j : Nat} {count bs s : List UInt8} {skipped : List Unit} (hc : count.length = 4)
      (hj : j < Bytes.toNat count) (hskip : (items (skipValue n) j).run bs = .ok (skipped, s))
      (hv : Foreign n s) : Foreign (n + 1) (Marker.strictArray.code :: (count ++ bs))

/-- `s` passes over what `d` reads and stops where `d` stops. -/
def Passes {α : Type} (d : Decoder α) (s : Decoder Unit) : Prop :=
  ∀ bs a r, d.run bs = .ok (a, r) → s.run bs = .ok ((), r)

section Passing

variable {α : Type} {d : Decoder α} {s : Decoder Unit}

theorem propertiesUpTo_passes (h : Passes d s) : ∀ (b : Nat) (bs : List UInt8) ps r,
    (propertiesUpTo d b).run bs = .ok (ps, r) → ∃ xs, (propertiesUpTo s b).run bs = .ok (xs, r)
  | 0, bs, ps, r, hr => by
    cases hr
    exact ⟨[], rfl⟩
  | b + 1, bs, ps, r, hr => by
    rcases propertiesUpTo_succ_ok hr with ⟨hk, -⟩ | ⟨key, r₀, v, r₁, ps', hk, hv, hp, -⟩
    · exact ⟨[], propertiesUpTo_run_none hk⟩
    · obtain ⟨xs, hxs⟩ := propertiesUpTo_passes h b r₁ ps' r hp
      rw [propertiesUpTo_run_some hk (h r₀ v r₁ hv), hxs]
      exact ⟨_, rfl⟩

theorem items_passes (h : Passes d s) : ∀ (k : Nat) (bs : List UInt8) vs r,
    (items d k).run bs = .ok (vs, r) → ∃ xs, (items s k).run bs = .ok (xs, r)
  | 0, bs, vs, r, hr => by
    cases hr
    exact ⟨[], rfl⟩
  | k + 1, bs, vs, r, hr => by
    obtain ⟨v, r₁, vs', hv, hi, -⟩ := items_succ_ok hr
    obtain ⟨xs, hxs⟩ := items_passes h k r₁ vs' r hi
    rw [items_run_succ (h bs v r₁ hv), hxs]
    exact ⟨_, rfl⟩

end Passing

/-- The markers of containers, which read their contents one level down. -/
def IsContainer (m : Marker) : Prop := m = .object ∨ m = .ecmaArray ∨ m = .strictArray

theorem drop_of_text {k : Nat} {bs r : List UInt8} {s : String} (h : (text k).run bs = .ok (s, r)) :
    (drop k).run bs = .ok ((), r) := by
  rw [text_run] at h
  rw [drop_run]
  by_cases hk : k ≤ bs.length
  · rw [if_pos hk] at h ⊢
    split at h <;> cases h
    rfl
  · rw [if_neg hk] at h
    cases h

section Leaves

variable (d : Option (Decoder Value)) (sk : Option (Decoder Unit)) {bs r : List UInt8}
  {v : Value}

theorem skipWith_of_valueWith_leaf {m : Marker} (hm : ¬IsContainer m)
    (h : (valueWith d).run (m.code :: bs) = .ok (v, r)) :
    (skipWith sk).run (m.code :: bs) = .ok ((), r) := by
  cases m with
  | number =>
    rw [valueWith_number, lift_bits64_run] at h
    rw [skipWith_number, drop_run]
    by_cases hle : 8 ≤ bs.length
    · rw [if_pos hle] at h ⊢
      cases h
      rfl
    · rw [if_neg hle] at h
      cases h
  | boolean =>
    rw [valueWith_boolean] at h
    rcases bs with _ | ⟨b, t⟩
    · cases h
    · rw [lift_byte_cons] at h
      cases h
      rw [skipWith_boolean, drop_run, if_pos (by simp)]
      rfl
  | string =>
    rw [valueWith_string, shortText_run] at h
    rw [skipWith_short _ _ (Or.inl rfl)]
    by_cases h2 : 2 ≤ bs.length
    · rw [if_pos h2] at h ⊢
      rcases ht : (text (Bytes.toNat (bs.take 2))).run (bs.drop 2) with e | ⟨s, r'⟩ <;>
        rw [ht] at h <;> cases h
      exact drop_of_text ht
    · rw [if_neg h2] at h
      cases h
  | longString =>
    rw [valueWith_longString, longText_run] at h
    rw [skipWith_long _ _ (Or.inl rfl)]
    by_cases h4 : 4 ≤ bs.length
    · rw [if_pos h4] at h ⊢
      rcases ht : (text (Bytes.toNat (bs.take 4))).run (bs.drop 4) with e | ⟨s, r'⟩ <;>
        rw [ht] at h <;> cases h
      exact drop_of_text ht
    · rw [if_neg h4] at h
      cases h
  | reference =>
    rw [valueWith_reference, lift_u16_run] at h
    rw [skipWith_reference, drop_run]
    by_cases hle : 2 ≤ bs.length
    · rw [if_pos hle] at h ⊢
      cases h
      rfl
    · rw [if_neg hle] at h
      cases h
  | date =>
    rw [valueWith_date] at h
    rw [skipWith_date, drop_run]
    by_cases hle : 10 ≤ bs.length
    · rw [if_pos hle] at h ⊢
      cases h
      rfl
    · rw [if_neg hle] at h
      cases h
  | null =>
    rw [valueWith_null] at h
    cases h
    exact skipWith_bare _ sk (Or.inl rfl)
  | undefined =>
    rw [valueWith_undefined] at h
    cases h
    exact skipWith_bare _ sk (Or.inr (Or.inl rfl))
  | object | ecmaArray | strictArray => exact absurd (by simp [IsContainer]) hm
  | movieClip | objectEnd | unsupported | recordset | xmlDocument | typedObject | avmPlusObject =>
    rw [valueWith_refused d bs (by simp [valueRefused])] at h
    cases h

end Leaves

section Containers

variable {d : Decoder Value} {s : Decoder Unit} {bs r : List UInt8} {v : Value}

theorem skipWith_of_valueWith_object (hds : Passes d s)
    (h : (valueWith (some d)).run (Marker.object.code :: bs) = .ok (v, r)) :
    (skipWith (some s)).run (Marker.object.code :: bs) = .ok ((), r) := by
  rw [valueWith_object, properties_run] at h
  rcases hp : (propertiesUpTo d bs.length).run bs with e | ⟨ps, r'⟩ <;> rw [hp] at h <;> cases h
  obtain ⟨xs, hxs⟩ := propertiesUpTo_passes hds _ _ _ _ hp
  rw [skipWith_object, properties_run, hxs]
  rfl

theorem skipWith_of_valueWith_ecmaArray (hds : Passes d s)
    (h : (valueWith (some d)).run (Marker.ecmaArray.code :: bs) = .ok (v, r)) :
    (skipWith (some s)).run (Marker.ecmaArray.code :: bs) = .ok ((), r) := by
  rw [valueWith_ecmaArray] at h
  by_cases h4 : 4 ≤ bs.length
  · rw [if_pos h4, properties_run] at h
    rcases hp : (propertiesUpTo d (bs.drop 4).length).run (bs.drop 4) with e | ⟨ps, r'⟩ <;>
      rw [hp] at h <;> cases h
    obtain ⟨xs, hxs⟩ := propertiesUpTo_passes hds _ _ _ _ hp
    rw [skipWith_ecmaArray, if_pos h4, properties_run, hxs]
    rfl
  · rw [if_neg h4] at h
    cases h

theorem skipWith_of_valueWith_strictArray (hds : Passes d s)
    (h : (valueWith (some d)).run (Marker.strictArray.code :: bs) = .ok (v, r)) :
    (skipWith (some s)).run (Marker.strictArray.code :: bs) = .ok ((), r) := by
  rw [valueWith_strictArray] at h
  by_cases h4 : 4 ≤ bs.length
  · rw [if_pos h4] at h
    rcases hi : (items d (Bytes.toNat (bs.take 4))).run (bs.drop 4) with e | ⟨vs, r'⟩ <;>
      rw [hi] at h <;> cases h
    obtain ⟨xs, hxs⟩ := items_passes hds _ _ _ _ hi
    rw [skipWith_strictArray, if_pos h4, hxs]
    rfl
  · rw [if_neg h4] at h
    cases h

end Containers

theorem skipValue_passes : ∀ n, Passes (value n) (skipValue n) := by
  intro n
  induction n with
  | zero =>
    intro bs v r h
    rcases hm : marker.run bs with e | ⟨m, t⟩
    · rw [value, valueWith, Reader.run_bind_of_error hm] at h
      cases h
    · obtain rfl := marker_run_ok hm
      by_cases hc : IsContainer m
      · rcases hc with rfl | rfl | rfl
        · rw [value, valueWith_object_none] at h
          cases h
        · rw [value, valueWith_ecmaArray_none] at h
          split at h <;> cases h
        · rw [value, valueWith_strictArray_none] at h
          cases h
      · exact skipWith_of_valueWith_leaf none none hc h
  | succ n ih =>
    intro bs v r h
    rcases hm : marker.run bs with e | ⟨m, t⟩
    · rw [value, valueWith, Reader.run_bind_of_error hm] at h
      cases h
    · obtain rfl := marker_run_ok hm
      by_cases hc : IsContainer m
      · rcases hc with rfl | rfl | rfl
        · exact skipWith_of_valueWith_object ih h
        · exact skipWith_of_valueWith_ecmaArray ih h
        · exact skipWith_of_valueWith_strictArray ih h
      · exact skipWith_of_valueWith_leaf _ _ hc h

/-- A reader never moves back: what it leaves is no longer than what it started on. -/
def Shrinks {ε α : Type} (d : Reader ε α) : Prop :=
  ∀ bs a r, d.run bs = .ok (a, r) → r.length ≤ bs.length

namespace Shrinks

variable {ε α β : Type}

theorem bind {d : Reader ε α} {f : α → Reader ε β} (hd : Shrinks d) (hf : ∀ a, Shrinks (f a)) :
    Shrinks (d >>= f) := by
  intro bs b r h
  obtain ⟨a, s, hs, hr⟩ := Reader.run_bind_ok h
  exact (hf a s b r hr).trans (hd bs a s hs)

theorem pure (a : α) : Shrinks (Pure.pure a : Reader ε α) := by
  intro bs b r h
  cases h
  exact le_rfl

theorem throw (e : ε) : Shrinks (MonadExcept.throw e : Reader ε α) := by
  intro bs b r h
  cases h

end Shrinks

theorem marker_shrinks : Shrinks marker := by
  intro bs m r h
  rw [marker_run_ok h, List.length_cons]
  exact Nat.le_succ _

theorem drop_shrinks (k : Nat) : Shrinks (drop k) := by
  intro bs u r h
  rw [drop_run] at h
  split at h
  · cases h
    simp
  · cases h

theorem lift_u16_shrinks : Shrinks (lift Reader.u16) := by
  intro bs x r h
  rw [lift_u16_run] at h
  split at h
  · cases h
    simp
  · cases h

theorem lift_u32_shrinks : Shrinks (lift Reader.u32) := by
  intro bs x r h
  rw [lift_u32_run] at h
  split at h
  · cases h
    simp
  · cases h

section Loops

variable {α : Type} {d : Decoder α}

theorem propertiesUpTo_length (hd : Shrinks d) : ∀ (b : Nat) (bs : List UInt8) ps r,
    (propertiesUpTo d b).run bs = .ok (ps, r) → r.length + ps.length ≤ bs.length
  | 0, bs, ps, r, h => by
    cases h
    simp
  | b + 1, bs, ps, r, h => by
    rcases propertiesUpTo_succ_ok h with ⟨hk, rfl⟩ | ⟨key, r₀, v, r₁, ps', hk, hv, hp, rfl⟩
    · simpa using (nextKey_ok hk).1
    · have hkey := shortText_ok_length ((nextKey_ok hk).2 key rfl).1
      have hval := hd r₀ v r₁ hv
      have hrest := propertiesUpTo_length hd b r₁ ps' r hp
      simp only [List.length_cons]
      omega

theorem properties_shrinks (hd : Shrinks d) : Shrinks (properties d) := by
  intro bs ps r h
  rw [properties_run] at h
  have := propertiesUpTo_length hd _ bs ps r h
  omega

theorem items_shrinks (hd : Shrinks d) : ∀ k, Shrinks (items d k)
  | 0 => Shrinks.pure _
  | k + 1 => hd.bind fun _ => (items_shrinks hd k).bind fun _ => Shrinks.pure _

end Loops

theorem skipWith_shrinks {sk : Option (Decoder Unit)} (h : ∀ s, sk = some s → Shrinks s) :
    Shrinks (skipWith sk) := by
  -- the nested readers shrink, and refusing to nest reads nothing
  have hnest : ∀ (f : Decoder Unit → Decoder Unit), (∀ s, Shrinks s → Shrinks (f s)) →
      Shrinks (nest sk f) := by
    intro f hf
    cases sk with
    | none => exact Shrinks.throw _
    | some s => exact hf s (h s rfl)
  have hprops : ∀ s : Decoder Unit, Shrinks s → Shrinks (do let _ ← properties s) :=
    fun s hs => (properties_shrinks hs).bind fun _ => Shrinks.pure _
  refine marker_shrinks.bind fun m => ?_
  cases m with
  | number | boolean | reference | date => exact drop_shrinks _
  | string | movieClip => exact lift_u16_shrinks.bind fun _ => drop_shrinks _
  | longString | xmlDocument => exact lift_u32_shrinks.bind fun _ => drop_shrinks _
  | object => exact hnest _ hprops
  | ecmaArray => exact (drop_shrinks 4).bind fun _ => hnest _ hprops
  | typedObject => exact lift_u16_shrinks.bind fun _ => (drop_shrinks _).bind fun _ => hnest _ hprops
  | strictArray =>
    exact lift_u32_shrinks.bind fun _ =>
      hnest _ fun s hs => (items_shrinks hs _).bind fun _ => Shrinks.pure _
  | null | undefined | objectEnd | unsupported => exact Shrinks.pure _
  | recordset | avmPlusObject => exact Shrinks.throw _

theorem skipValue_shrinks : ∀ n, Shrinks (skipValue n)
  | 0 => skipWith_shrinks fun _ h => by cases h
  | n + 1 => skipWith_shrinks fun _ h => by
    cases h
    exact skipValue_shrinks n

theorem skipOnly_refused {m : Marker} (hm : m ∈ skipOnly) : m ∈ valueRefused := by
  simp only [skipOnly, valueRefused, List.mem_cons, List.not_mem_nil, or_false] at hm ⊢
  rcases hm with rfl | rfl | rfl | rfl | rfl <;> simp

theorem text_of_drop {k : Nat} {bs r : List UInt8} (h : (drop k).run bs = .ok ((), r)) :
    (∃ s, (text k).run bs = .ok (s, r)) ∨
      ∃ body e, bs = body ++ r ∧ body.length = k ∧ Utf8.decode body = .error e := by
  rw [drop_run] at h
  by_cases hk : k ≤ bs.length
  · rw [if_pos hk] at h
    cases h
    rw [text_run, if_pos hk]
    rcases hd : Utf8.decode (bs.take k) with e | s
    · exact Or.inr ⟨bs.take k, e, (List.take_append_drop k bs).symm, by simp [hk], hd⟩
    · exact Or.inl ⟨s, rfl⟩
  · rw [if_neg hk] at h
    cases h

section Leaves

variable (d : Option (Decoder Value)) (sk : Option (Decoder Unit)) {n : Nat} {bs r : List UInt8}

theorem valueWith_of_skipWith_leaf {m : Marker} (hm : ¬IsContainer m)
    (h : (skipWith sk).run (m.code :: bs) = .ok ((), r)) :
    (∃ v, (valueWith d).run (m.code :: bs) = .ok (v, r)) ∨ Foreign n (m.code :: bs) := by
  cases m with
  | number =>
    rw [skipWith_number, drop_run] at h
    by_cases hle : 8 ≤ bs.length
    · rw [if_pos hle] at h
      cases h
      rw [valueWith_number, lift_bits64_run, if_pos hle]
      exact Or.inl ⟨_, rfl⟩
    · rw [if_neg hle] at h
      cases h
  | boolean =>
    rw [skipWith_boolean, drop_run] at h
    rcases bs with _ | ⟨b, t⟩
    · cases h
    · cases h
      rw [valueWith_boolean, lift_byte_cons]
      exact Or.inl ⟨_, rfl⟩
  | string =>
    rw [skipWith_short _ _ (Or.inl rfl)] at h
    by_cases h2 : 2 ≤ bs.length
    · rw [if_pos h2] at h
      rcases text_of_drop h with ⟨s, hs⟩ | ⟨body, e, hbs, hlen, hbad⟩
      · rw [valueWith_string, shortText_run, if_pos h2, hs]
        exact Or.inl ⟨_, rfl⟩
      · have hsplit : bs = bs.take 2 ++ (body ++ r) := by rw [← hbs, List.take_append_drop]
        rw [hsplit]
        exact Or.inr (Foreign.string (by simp [h2]) hlen hbad)
    · rw [if_neg h2] at h
      cases h
  | longString =>
    rw [skipWith_long _ _ (Or.inl rfl)] at h
    by_cases h4 : 4 ≤ bs.length
    · rw [if_pos h4] at h
      rcases text_of_drop h with ⟨s, hs⟩ | ⟨body, e, hbs, hlen, hbad⟩
      · rw [valueWith_longString, longText_run, if_pos h4, hs]
        exact Or.inl ⟨_, rfl⟩
      · have hsplit : bs = bs.take 4 ++ (body ++ r) := by rw [← hbs, List.take_append_drop]
        rw [hsplit]
        exact Or.inr (Foreign.longString (by simp [h4]) hlen hbad)
    · rw [if_neg h4] at h
      cases h
  | reference =>
    rw [skipWith_reference, drop_run] at h
    by_cases hle : 2 ≤ bs.length
    · rw [if_pos hle] at h
      cases h
      rw [valueWith_reference, lift_u16_run, if_pos hle]
      exact Or.inl ⟨_, rfl⟩
    · rw [if_neg hle] at h
      cases h
  | date =>
    rw [skipWith_date, drop_run] at h
    by_cases hle : 10 ≤ bs.length
    · rw [if_pos hle] at h
      cases h
      rw [valueWith_date, if_pos hle]
      exact Or.inl ⟨_, rfl⟩
    · rw [if_neg hle] at h
      cases h
  | null =>
    rw [skipWith_bare _ sk (Or.inl rfl)] at h
    cases h
    exact Or.inl ⟨_, valueWith_null d _⟩
  | undefined =>
    rw [skipWith_bare _ sk (Or.inr (Or.inl rfl))] at h
    cases h
    exact Or.inl ⟨_, valueWith_undefined d _⟩
  | object | ecmaArray | strictArray => exact absurd (by simp [IsContainer]) hm
  | movieClip | objectEnd | unsupported | xmlDocument | typedObject =>
    exact Or.inr (Foreign.marker (by simp [skipOnly]))
  | recordset | avmPlusObject =>
    rw [skipWith_refused _ sk (by simp)] at h
    cases h

end Leaves

section Containers

variable {n : Nat}
  (ih : ∀ bs r, (skipValue n).run bs = .ok ((), r) →
    (∃ v, (value n).run bs = .ok (v, r)) ∨ Foreign n bs)
include ih

theorem propertiesUpTo_of_skip : ∀ (b : Nat) (bs : List UInt8) xs r,
    (propertiesUpTo (skipValue n) b).run bs = .ok (xs, r) →
    (∃ ps, (propertiesUpTo (value n) b).run bs = .ok (ps, r)) ∨
      ∃ j skipped s key r', (propertiesUpTo (skipValue n) j).run bs = .ok (skipped, s) ∧
        skipped.length = j ∧ nextKey.run s = .ok (some key, r') ∧ Foreign n r'
  | 0, bs, xs, r, h => by
    cases h
    exact Or.inl ⟨[], rfl⟩
  | b + 1, bs, xs, r, h => by
    rcases propertiesUpTo_succ_ok h with ⟨hk, -⟩ | ⟨key, r₀, ⟨⟩, r₁, xs', hk, hu, hp, -⟩
    · exact Or.inl ⟨[], propertiesUpTo_run_none hk⟩
    rcases ih r₀ r₁ hu with ⟨v, hv⟩ | hf
    · rcases propertiesUpTo_of_skip b r₁ xs' r hp with
        ⟨ps, hps⟩ | ⟨j, skipped, s, key', r', hj, hlen, hk', hf⟩
      · rw [propertiesUpTo_run_some hk hv, hps]
        exact Or.inl ⟨_, rfl⟩
      · refine Or.inr ⟨j + 1, (key, ()) :: skipped, s, key', r', ?_, by simp [hlen], hk', hf⟩
        rw [propertiesUpTo_run_some hk hu, hj]
        rfl
    · exact Or.inr ⟨0, [], bs, key, r₀, rfl, rfl, hk, hf⟩

theorem items_of_skip : ∀ (k : Nat) (bs : List UInt8) xs r,
    (items (skipValue n) k).run bs = .ok (xs, r) →
    (∃ vs, (items (value n) k).run bs = .ok (vs, r)) ∨
      ∃ j < k, ∃ skipped s, (items (skipValue n) j).run bs = .ok (skipped, s) ∧ Foreign n s
  | 0, bs, xs, r, h => by
    cases h
    exact Or.inl ⟨[], rfl⟩
  | k + 1, bs, xs, r, h => by
    obtain ⟨⟨⟩, r₁, xs', hu, hi, -⟩ := items_succ_ok h
    rcases ih bs r₁ hu with ⟨v, hv⟩ | hf
    · rcases items_of_skip k r₁ xs' r hi with ⟨vs, hvs⟩ | ⟨j, hj, skipped, s, hs, hf⟩
      · rw [items_run_succ hv, hvs]
        exact Or.inl ⟨_, rfl⟩
      · refine Or.inr ⟨j + 1, by omega, () :: skipped, s, ?_, hf⟩
        rw [items_run_succ hu, hs]
        rfl
    · exact Or.inr ⟨0, by omega, [], bs, rfl, hf⟩

variable {bs r : List UInt8}

theorem valueWith_of_skipWith_object
    (h : (skipWith (some (skipValue n))).run (Marker.object.code :: bs) = .ok ((), r)) :
    (∃ v, (valueWith (some (value n))).run (Marker.object.code :: bs) = .ok (v, r)) ∨
      Foreign (n + 1) (Marker.object.code :: bs) := by
  rw [skipWith_object, properties_run] at h
  rcases hp : (propertiesUpTo (skipValue n) bs.length).run bs with e | ⟨xs, r'⟩ <;>
    rw [hp] at h <;> cases h
  rcases propertiesUpTo_of_skip ih _ _ _ _ hp with
    ⟨ps, hps⟩ | ⟨j, skipped, s, key, r', hj, hlen, hk, hf⟩
  · rw [valueWith_object, properties_run, hps]
    exact Or.inl ⟨_, rfl⟩
  · exact Or.inr (Foreign.object hj hlen hk hf)

theorem valueWith_of_skipWith_ecmaArray
    (h : (skipWith (some (skipValue n))).run (Marker.ecmaArray.code :: bs) = .ok ((), r)) :
    (∃ v, (valueWith (some (value n))).run (Marker.ecmaArray.code :: bs) = .ok (v, r)) ∨
      Foreign (n + 1) (Marker.ecmaArray.code :: bs) := by
  rw [skipWith_ecmaArray] at h
  by_cases h4 : 4 ≤ bs.length
  · rw [if_pos h4, properties_run] at h
    rcases hp : (propertiesUpTo (skipValue n) (bs.drop 4).length).run (bs.drop 4) with
      e | ⟨xs, r'⟩ <;> rw [hp] at h <;> cases h
    rcases propertiesUpTo_of_skip ih _ _ _ _ hp with
      ⟨ps, hps⟩ | ⟨j, skipped, s, key, r', hj, hlen, hk, hf⟩
    · rw [valueWith_ecmaArray, if_pos h4, properties_run, hps]
      exact Or.inl ⟨_, rfl⟩
    · rw [← List.take_append_drop 4 bs]
      exact Or.inr (Foreign.ecmaArray (by simp [h4]) hj hlen hk hf)
  · rw [if_neg h4] at h
    cases h

theorem valueWith_of_skipWith_strictArray
    (h : (skipWith (some (skipValue n))).run (Marker.strictArray.code :: bs) = .ok ((), r)) :
    (∃ v, (valueWith (some (value n))).run (Marker.strictArray.code :: bs) = .ok (v, r)) ∨
      Foreign (n + 1) (Marker.strictArray.code :: bs) := by
  rw [skipWith_strictArray] at h
  by_cases h4 : 4 ≤ bs.length
  · rw [if_pos h4] at h
    rcases hi : (items (skipValue n) (Bytes.toNat (bs.take 4))).run (bs.drop 4) with
      e | ⟨xs, r'⟩ <;> rw [hi] at h <;> cases h
    rcases items_of_skip ih _ _ _ _ hi with ⟨vs, hvs⟩ | ⟨j, hj, skipped, s, hs, hf⟩
    · rw [valueWith_strictArray, if_pos h4, hvs]
      exact Or.inl ⟨_, rfl⟩
    · rw [← List.take_append_drop 4 bs]
      exact Or.inr (Foreign.strictArray (by simp [h4]) (by simpa [h4] using hj) hs hf)
  · rw [if_neg h4] at h
    cases h

end Containers

theorem value_or_foreign : ∀ n bs r, (skipValue n).run bs = .ok ((), r) →
    (∃ v, (value n).run bs = .ok (v, r)) ∨ Foreign n bs := by
  intro n
  induction n with
  | zero =>
    intro bs r h
    rcases hm : marker.run bs with e | ⟨m, t⟩
    · rw [skipValue, skipWith, Reader.run_bind_of_error hm] at h
      cases h
    obtain rfl := marker_run_ok hm
    by_cases hc : IsContainer m
    · rcases hc with rfl | rfl | rfl
      · rw [skipValue, skipWith_object_none] at h
        cases h
      · rw [skipValue, skipWith_ecmaArray_none] at h
        split at h <;> cases h
      · rw [skipValue, skipWith_strictArray_none] at h
        split at h <;> cases h
    · exact valueWith_of_skipWith_leaf none none hc h
  | succ n ih =>
    intro bs r h
    rcases hm : marker.run bs with e | ⟨m, t⟩
    · rw [skipValue, skipWith, Reader.run_bind_of_error hm] at h
      cases h
    obtain rfl := marker_run_ok hm
    by_cases hc : IsContainer m
    · rcases hc with rfl | rfl | rfl
      · exact valueWith_of_skipWith_object ih h
      · exact valueWith_of_skipWith_ecmaArray ih h
      · exact valueWith_of_skipWith_strictArray ih h
    · exact valueWith_of_skipWith_leaf _ _ hc h

section Reach

variable {α : Type} {d : Decoder α} {s : Decoder Unit}

theorem propertiesUpTo_reach (h : Passes d s) : ∀ (j b : Nat) (bs t : List UInt8) skipped ps r,
    (propertiesUpTo s j).run bs = .ok (skipped, t) → skipped.length = j → j ≤ b →
    (propertiesUpTo d b).run bs = .ok (ps, r) → ∃ ps', (propertiesUpTo d (b - j)).run t = .ok (ps', r)
  | 0, b, bs, t, skipped, ps, r, hs, _, _, hd => by
    cases hs
    exact ⟨ps, hd⟩
  | j + 1, b, bs, t, skipped, ps, r, hs, hlen, hjb, hd => by
    rcases propertiesUpTo_succ_ok hs with ⟨-, rfl⟩ | ⟨key, r₀, ⟨⟩, r₁, xs, hk, hu, hxs, rfl⟩
    · cases hlen
    obtain ⟨b, rfl⟩ : ∃ b', b = b' + 1 := ⟨b - 1, by omega⟩
    rcases propertiesUpTo_succ_ok hd with ⟨hk', -⟩ | ⟨key', r₀', v, r₁', ps', hk', hv, hps, -⟩
    · rw [hk] at hk'
      cases hk'
    rw [hk] at hk'
    cases hk'
    have hsame : (Except.ok ((), r₁') : Except ReadError (Unit × List UInt8)) = .ok ((), r₁) := by
      rw [← h r₀ v r₁' hv, hu]
    cases hsame
    simpa using propertiesUpTo_reach h j b r₁ t xs ps' r hxs (by simpa using hlen) (by omega) hps

theorem items_reach (h : Passes d s) : ∀ (j k : Nat) (bs t : List UInt8) skipped vs r,
    (items s j).run bs = .ok (skipped, t) → j ≤ k →
    (items d k).run bs = .ok (vs, r) → ∃ vs', (items d (k - j)).run t = .ok (vs', r)
  | 0, k, bs, t, skipped, vs, r, hs, _, hd => by
    cases hs
    exact ⟨vs, hd⟩
  | j + 1, k, bs, t, skipped, vs, r, hs, hjk, hd => by
    obtain ⟨⟨⟩, r₁, xs, hu, hxs, -⟩ := items_succ_ok hs
    obtain ⟨k, rfl⟩ : ∃ k', k = k' + 1 := ⟨k - 1, by omega⟩
    obtain ⟨v, r₁', vs', hv, hvs, -⟩ := items_succ_ok hd
    have hsame : (Except.ok ((), r₁') : Except ReadError (Unit × List UInt8)) = .ok ((), r₁) := by
      rw [← h bs v r₁' hv, hu]
    cases hsame
    simpa using items_reach h j k r₁ t xs vs' r hxs (by omega) hvs

end Reach

theorem text_fails {body rest : List UInt8} {e : Utf8Error} (hbad : Utf8.decode body = .error e) :
    (text body.length).run (body ++ rest) = .error (.badText e) := by
  rw [text_run, if_pos (by simp), List.take_left' rfl, hbad]

theorem properties_fails {n j : Nat} {bs s r' : List UInt8} {skipped : List (String × Unit)}
    {key : String} (hskip : (propertiesUpTo (skipValue n) j).run bs = .ok (skipped, s))
    (hj : skipped.length = j) (hkey : nextKey.run s = .ok (some key, r'))
    (hv : ∀ v r, (value n).run r' ≠ .ok (v, r)) :
    ∀ ps r, (properties (value n)).run bs ≠ .ok (ps, r) := by
  intro ps r hps
  rw [properties_run] at hps
  -- each property passed over took a byte and a name is left, so the loop of `decode`, bounded
  -- by the bytes, still has a step to go when it reaches that name
  have hlen := propertiesUpTo_length (skipValue_shrinks n) j bs skipped s hskip
  have hs : s ≠ [] := by
    rintro rfl
    rw [nextKey_run_nil] at hkey
    cases hkey
  have hlt : j < bs.length := by
    have := List.length_pos_of_ne_nil hs
    omega
  obtain ⟨ps', hps'⟩ :=
    propertiesUpTo_reach (skipValue_passes n) j bs.length bs s skipped ps r hskip hj hlt.le hps
  obtain ⟨c, hc⟩ : ∃ c, bs.length - j = c + 1 := ⟨bs.length - j - 1, by omega⟩
  rw [hc] at hps'
  rcases propertiesUpTo_succ_ok hps' with ⟨hk, -⟩ | ⟨key', r₀, v, r₁, ps'', hk, hv', -, -⟩
  · rw [hkey] at hk
    cases hk
  · rw [hkey] at hk
    cases hk
    exact hv v r₁ hv'

theorem value_fails_of_foreign {n : Nat} {bs : List UInt8} (hf : Foreign n bs) :
    ∀ v r, (value n).run bs ≠ .ok (v, r) := by
  induction hf with
  | @marker n m bs hm =>
    intro v r h
    obtain ⟨d, hd⟩ := value_eq_valueWith n
    rw [hd, valueWith_refused d bs (skipOnly_refused hm)] at h
    cases h
  | @string n len body rest e hlen hbody hbad =>
    intro v r h
    obtain ⟨d, hd⟩ := value_eq_valueWith n
    rw [hd, valueWith_string, shortText_run, if_pos (by simp [hlen]), List.take_left' hlen,
      List.drop_left' hlen, ← hbody, text_fails hbad] at h
    cases h
  | @longString n len body rest e hlen hbody hbad =>
    intro v r h
    obtain ⟨d, hd⟩ := value_eq_valueWith n
    rw [hd, valueWith_longString, longText_run, if_pos (by simp [hlen]), List.take_left' hlen,
      List.drop_left' hlen, ← hbody, text_fails hbad] at h
    cases h
  | @object n j bs s r skipped key hskip hj hkey _ ih =>
    intro v r' h
    rw [value, valueWith_object] at h
    rcases hp : (properties (value n)).run bs with e | ⟨ps, r''⟩ <;> rw [hp] at h <;> cases h
    exact properties_fails hskip hj hkey ih ps r'' hp
  | @ecmaArray n j count bs s r skipped key hc hskip hj hkey _ ih =>
    intro v r' h
    rw [value, valueWith_ecmaArray, if_pos (by simp [hc]), List.drop_left' hc] at h
    rcases hp : (properties (value n)).run bs with e | ⟨ps, r''⟩ <;> rw [hp] at h <;> cases h
    exact properties_fails hskip hj hkey ih ps r'' hp
  | @strictArray n j count bs s skipped hc hj hskip _ ih =>
    intro v r h
    rw [value, valueWith_strictArray, if_pos (by simp [hc]), List.take_left' hc,
      List.drop_left' hc] at h
    rcases hi : (items (value n) (Bytes.toNat count)).run bs with e | ⟨vs, r'⟩ <;>
      rw [hi] at h <;> cases h
    -- `decode` reads the items `skip` passed over and then the one it cannot read
    obtain ⟨vs', hvs'⟩ := items_reach (skipValue_passes n) j _ bs s skipped vs r' hskip hj.le hi
    obtain ⟨c, hc'⟩ : ∃ c, Bytes.toNat count - j = c + 1 := ⟨Bytes.toNat count - j - 1, by omega⟩
    rw [hc'] at hvs'
    obtain ⟨v', r₁, -, hv', -, -⟩ := items_succ_ok hvs'
    exact ih v' r₁ hv'

/-- Started on the same bytes at the top level, `skip` and `decode` agree: where `decode` reads a
value, `skip` passes over it and stops at the same place; where `skip` passes over a value,
`decode` reads it and stops at the same place, or the value holds a part only `skip` reads; and
such a part makes `decode` fail. -/
theorem skip_agrees_with_decode (bs : List UInt8) :
    (∀ v rest, decode.run bs = .ok (v, rest) → skip.run bs = .ok ((), rest)) ∧
    (∀ rest, skip.run bs = .ok ((), rest) →
      (∃ v, decode.run bs = .ok (v, rest)) ∨ Foreign maxNesting bs) ∧
    (Foreign maxNesting bs → ∀ v rest, decode.run bs ≠ .ok (v, rest)) :=
  ⟨skipValue_passes maxNesting bs, value_or_foreign maxNesting bs,
    fun hf => value_fails_of_foreign hf⟩

/-- A strict array of a boolean and a movie clip: `skip` passes over all of it, and the movie
clip, an item after one whole item, makes `decode` fail. -/
theorem skip_passes_array_with_movie_clip :
    skip.run [10, 0, 0, 0, 2, 1, 1, 4, 0, 1, 65] = .ok ((), []) ∧
      ∀ v rest, decode.run [10, 0, 0, 0, 2, 1, 1, 4, 0, 1, 65] ≠ .ok (v, rest) := by
  have hf : Foreign maxNesting [10, 0, 0, 0, 2, 1, 1, 4, 0, 1, 65] :=
    @Foreign.strictArray 63 1 [0, 0, 0, 2] [1, 1, 4, 0, 1, 65] [4, 0, 1, 65] [()] rfl
      (by decide) rfl (@Foreign.marker 63 .movieClip [0, 1, 65] (by simp [skipOnly]))
  exact ⟨rfl, (skip_agrees_with_decode _).2.2 hf⟩

end FlvDemux.Amf
