import Mathlib
import FlvDemux.Amf.Decode
import FlvDemux.Amf.Encode

/-!
# What each AMF0 reader does with the bytes in front of it

One equation per reader, from which the results about whole values are proved without unfolding a
`do` block: runs of binds, fixed-width fields and counted runs, UTF-8 text, the branch of
`valueWith` and `skipWith` for each marker, and the loops one property or item at a time.
-/

namespace FlvDemux

namespace Reader

variable {ε ε' α β : Type} {r : Reader ε α} {f : α → Reader ε β} {bs bs' : List UInt8} {a : α}
  {e : ε}

theorem run_bind_of_ok (h : r.run bs = .ok (a, bs')) : (r >>= f).run bs = (f a).run bs' := by
  simp only [run, StateT.run_bind] at h ⊢
  rw [h]
  rfl

theorem run_bind_of_error (h : r.run bs = .error e) : (r >>= f).run bs = .error e := by
  simp only [run, StateT.run_bind] at h ⊢
  rw [h]
  rfl

theorem run_bind_ok {b : β} (h : (r >>= f).run bs = .ok (b, bs')) :
    ∃ a bs₀, r.run bs = .ok (a, bs₀) ∧ (f a).run bs₀ = .ok (b, bs') := by
  rcases hr : r.run bs with e | ⟨a, bs₀⟩
  · rw [run_bind_of_error hr] at h
    cases h
  · rw [run_bind_of_ok hr] at h
    exact ⟨a, bs₀, rfl, h⟩

@[simp] theorem run_pure (x : α) (bs : List UInt8) : (pure x : Reader ε α).run bs = .ok (x, bs) :=
  rfl

@[simp] theorem run_throw (x : ε) (bs : List UInt8) : (throw x : Reader ε α).run bs = .error x :=
  rfl

@[simp] theorem remaining_run (bs : List UInt8) :
    (remaining : Reader ε Nat).run bs = .ok (bs.length, bs) := rfl

@[simp] theorem atEnd_run (bs : List UInt8) : (atEnd : Reader ε Bool).run bs = .ok (bs.isEmpty, bs) :=
  rfl

theorem run_bind_pure (r : Reader ε α) (g : α → β) (bs : List UInt8) :
    (r >>= fun x => pure (g x)).run bs = (r.run bs).map fun p => (g p.1, p.2) := by
  simp only [run, StateT.run_bind]
  cases r.run bs <;> rfl

theorem run_mapError (g : ε → ε') (r : Reader ε α) (bs : List UInt8) :
    (mapError g r).run bs = (r.run bs).mapError g := by
  show mapError g r bs = Except.mapError g (r bs)
  unfold mapError
  cases r bs <;> rfl

theorem word_run (n : Nat) (bs : List UInt8) :
    (word n).run bs = (if n ≤ bs.length then .ok (Bytes.toNat (bs.take n), bs.drop n)
      else .error .truncated : Except Fault (Nat × List UInt8)) := by
  unfold word
  simp only [run, StateT.run_bind]
  show Except.bind (fixed n bs) _ = _
  unfold fixed
  split <;> rfl

end Reader

namespace Bytes

theorem toNat_lt (bs : List UInt8) : toNat bs < Nat.pow 256 bs.length := by
  induction bs using List.reverseRecOn with
  | nil => simp [toNat]
  | append_singleton bs b ih =>
    rw [toNat_append_byte, List.length_append, List.length_singleton]
    have hb := b.toNat_lt
    simp only [Nat.pow_eq, Nat.pow_succ] at ih ⊢
    nlinarith

theorem toNat_ofNat_of_lt {n x : Nat} (h : x < Nat.pow 256 n) : toNat (ofNat n x) = x := by
  rw [toNat_ofNat, Nat.mod_eq_of_lt h]

theorem take_ofNat_append (n x : Nat) (rest : List UInt8) : (ofNat n x ++ rest).take n = ofNat n x :=
  List.take_left' (length_ofNat n x)

theorem drop_ofNat_append (n x : Nat) (rest : List UInt8) : (ofNat n x ++ rest).drop n = rest :=
  List.drop_left' (length_ofNat n x)

end Bytes

namespace Utf8

private theorem toList_loop (b : ByteArray) (i : Nat) (acc : List UInt8) :
    ByteArray.toList.loop b i acc = acc.reverse ++ b.data.toList.drop i := by
  induction i, acc using ByteArray.toList.loop.induct b with
  | case1 i acc hlt ih =>
    rw [ByteArray.toList.loop, if_pos hlt, ih]
    have hi : i < b.data.toList.length := by simpa using hlt
    have hget : b.get! i = b.data.toList[i] := by
      simp only [ByteArray.get!, Array.getElem_toList]
      exact getElem!_pos b.data i (by simpa using hlt)
    rw [List.drop_eq_getElem_cons hi, hget]
    simp
  | case2 i acc hge =>
    rw [ByteArray.toList.loop, if_neg hge]
    have : b.data.toList.length ≤ i := by simpa using hge
    simp [List.drop_eq_nil_of_le this]

theorem encode_eq (s : String) : encode s = s.toByteArray.data.toList := by
  rw [encode, ByteArray.toList, toList_loop, String.toUTF8_eq_toByteArray]
  simp

@[simp] theorem length_encode (s : String) : (encode s).length = s.utf8ByteSize := by
  rw [encode_eq, Array.length_toList]
  rfl

@[simp] theorem decode_encode (s : String) : decode (encode s) = .ok s := by
  have hb : (⟨(encode s).toArray⟩ : ByteArray) = s.toByteArray := by
    rw [encode_eq, Array.toArray_toList]
  have hs : String.fromUTF8? s.toByteArray = some s := by
    simp only [String.fromUTF8?, dif_pos s.isValidUTF8]
    rfl
  rw [decode, hb, hs]

end Utf8

namespace Amf

namespace Marker

theorem code_of_ofCode? {b : UInt8} {m : Marker} (h : ofCode? b = some m) : b = m.code := by
  unfold ofCode? at h
  split at h <;> first
    | (simp only [Option.some.injEq, reduceCtorEq] at h; subst h
       exact UInt8.toNat_inj.mp (by simpa [code]))
    | cases h

end Marker

namespace Decoder

variable {α β : Type} {bs r r' : List UInt8}

theorem lift_run (rd : Reader Fault α) (bs : List UInt8) :
    (lift rd).run bs = (rd.run bs).mapError .io :=
  Reader.run_mapError _ _ _

theorem lift_word_run (n : Nat) (g : Nat → α) (bs : List UInt8) :
    (lift (do return g (← Reader.word n))).run bs =
      (if n ≤ bs.length then .ok (g (Bytes.toNat (bs.take n)), bs.drop n)
        else .error (.io .truncated) : Except ReadError (α × List UInt8)) := by
  rw [lift_run, Reader.run_bind_pure, Reader.word_run]
  split <;> rfl

@[simp] theorem lift_byte_cons (b : UInt8) (bs : List UInt8) :
    (lift Reader.byte).run (b :: bs) = .ok (b, bs) := rfl

@[simp] theorem lift_byte_nil : (lift Reader.byte).run [] = .error (.io .truncated) := rfl

theorem lift_u16_run (bs : List UInt8) : (lift Reader.u16).run bs =
    (if 2 ≤ bs.length then .ok ((Bytes.toNat (bs.take 2)).toUInt16, bs.drop 2)
      else .error (.io .truncated) : Except ReadError (UInt16 × List UInt8)) :=
  lift_word_run 2 Nat.toUInt16 bs

theorem lift_u32_run (bs : List UInt8) : (lift Reader.u32).run bs =
    (if 4 ≤ bs.length then .ok ((Bytes.toNat (bs.take 4)).toUInt32, bs.drop 4)
      else .error (.io .truncated) : Except ReadError (UInt32 × List UInt8)) :=
  lift_word_run 4 Nat.toUInt32 bs

theorem lift_bits64_run (bs : List UInt8) : (lift Reader.bits64).run bs =
    (if 8 ≤ bs.length then .ok ((Bytes.toNat (bs.take 8)).toUInt64, bs.drop 8)
      else .error (.io .truncated) : Except ReadError (UInt64 × List UInt8)) :=
  lift_word_run 8 Nat.toUInt64 bs

theorem lift_i16_run (bs : List UInt8) : (lift Reader.i16).run bs =
    (if 2 ≤ bs.length then .ok ((Bytes.toNat (bs.take 2)).toUInt16.toInt16, bs.drop 2)
      else .error (.io .truncated) : Except ReadError (Int16 × List UInt8)) :=
  lift_word_run 2 (fun x => x.toUInt16.toInt16) bs

theorem toNat_take_two_toUInt16 (bs : List UInt8) :
    (Bytes.toNat (bs.take 2)).toUInt16.toNat = Bytes.toNat (bs.take 2) := by
  have h := Bytes.toNat_lt (bs.take 2)
  have hl : (bs.take 2).length ≤ 2 := by simp
  have hp : Nat.pow 256 (bs.take 2).length ≤ Nat.pow 256 2 := Nat.pow_le_pow_right (by omega) hl
  simp only [Nat.toUInt16]
  exact Nat.mod_eq_of_lt (by simp only [Nat.pow_eq] at h hp; simp only [Nat.reducePow]; omega)

theorem toNat_take_four_toUInt32 (bs : List UInt8) :
    (Bytes.toNat (bs.take 4)).toUInt32.toNat = Bytes.toNat (bs.take 4) := by
  have h := Bytes.toNat_lt (bs.take 4)
  have hl : (bs.take 4).length ≤ 4 := by simp
  have hp : Nat.pow 256 (bs.take 4).length ≤ Nat.pow 256 4 := Nat.pow_le_pow_right (by omega) hl
  simp only [Nat.toUInt32]
  exact Nat.mod_eq_of_lt (by simp only [Nat.pow_eq] at h hp; simp only [Nat.reducePow]; omega)

theorem marker_run_code (m : Marker) (bs : List UInt8) : marker.run (m.code :: bs) = .ok (m, bs) := by
  cases m <;> rfl

theorem peekMarker_run_code (m : Marker) (bs : List UInt8) :
    peekMarker.run (m.code :: bs) = .ok (m, m.code :: bs) := by
  cases m <;> rfl

theorem marker_run_cons (b : UInt8) (bs : List UInt8) : marker.run (b :: bs) =
    match Marker.ofCode? b with
    | some m => .ok (m, bs)
    | none => .error (.unknownMarker b) := by
  unfold marker
  rw [Reader.run_bind_of_ok (lift_byte_cons b bs)]
  cases Marker.ofCode? b <;> rfl

@[simp] theorem marker_run_nil : marker.run [] = .error (.io .truncated) := rfl

theorem marker_run_ok {m : Marker} (h : marker.run bs = .ok (m, r)) : bs = m.code :: r := by
  rcases bs with _ | ⟨b, t⟩
  · cases h
  · rw [marker_run_cons] at h
    rcases hb : Marker.ofCode? b with _ | m' <;> rw [hb] at h <;> cases h
    rw [Marker.code_of_ofCode? hb]

theorem lift_counted_run (n : Nat) (bs : List UInt8) : (lift (Reader.counted n)).run bs =
    (if n ≤ bs.length then .ok (bs.take n, bs.drop n)
      else .error (.io (.needBytes n bs.length)) : Except ReadError (List UInt8 × List UInt8)) := by
  rw [lift_run]
  show Except.mapError _ (if n ≤ bs.length then Except.ok (bs.take n, bs.drop n)
    else Except.error (Fault.needBytes n bs.length)) = _
  split <;> rfl

theorem drop_run (n : Nat) (bs : List UInt8) : (drop n).run bs =
    (if n ≤ bs.length then .ok ((), bs.drop n)
      else .error (.io (.needBytes n bs.length)) : Except ReadError (Unit × List UInt8)) := by
  unfold drop
  by_cases h : n ≤ bs.length
  · rw [Reader.run_bind_of_ok (by rw [lift_counted_run, if_pos h]), if_pos h]
    rfl
  · rw [Reader.run_bind_of_error (by rw [lift_counted_run, if_neg h]), if_neg h]

theorem text_run (n : Nat) (bs : List UInt8) : (text n).run bs =
    (if n ≤ bs.length then
      (match Utf8.decode (bs.take n) with
      | .ok s => .ok (s, bs.drop n)
      | .error e => .error (.badText e))
    else .error (.io (.needBytes n bs.length)) : Except ReadError (String × List UInt8)) := by
  unfold text
  by_cases h : n ≤ bs.length
  · rw [Reader.run_bind_of_ok (by rw [lift_counted_run, if_pos h]), if_pos h]
    cases Utf8.decode (bs.take n) <;> rfl
  · rw [Reader.run_bind_of_error (by rw [lift_counted_run, if_neg h]), if_neg h]

theorem shortText_run (bs : List UInt8) : shortText.run bs =
    (if 2 ≤ bs.length then (text (Bytes.toNat (bs.take 2))).run (bs.drop 2)
      else .error (.io .truncated) : Except ReadError (String × List UInt8)) := by
  unfold shortText
  by_cases h : 2 ≤ bs.length
  · rw [Reader.run_bind_of_ok (by rw [lift_u16_run, if_pos h]), if_pos h,
      toNat_take_two_toUInt16]
  · rw [Reader.run_bind_of_error (by rw [lift_u16_run, if_neg h]), if_neg h]

theorem longText_run (bs : List UInt8) : longText.run bs =
    (if 4 ≤ bs.length then (text (Bytes.toNat (bs.take 4))).run (bs.drop 4)
      else .error (.io .truncated) : Except ReadError (String × List UInt8)) := by
  unfold longText
  by_cases h : 4 ≤ bs.length
  · rw [Reader.run_bind_of_ok (by rw [lift_u32_run, if_pos h]), if_pos h,
      toNat_take_four_toUInt32]
  · rw [Reader.run_bind_of_error (by rw [lift_u32_run, if_neg h]), if_neg h]

theorem encodeKey_eq {s : String} {kb : List UInt8} (h : encodeKey s = .ok kb) :
    kb = Bytes.ofNat 2 (Utf8.encode s).length ++ Utf8.encode s ∧ (Utf8.encode s).length ≤ 65535 := by
  simp only [encodeKey] at h
  split at h
  · cases h
  · cases h
    exact ⟨rfl, by omega⟩

theorem shortText_run_encodeKey {s : String} {kb : List UInt8} (h : encodeKey s = .ok kb)
    (rest : List UInt8) : shortText.run (kb ++ rest) = .ok (s, rest) := by
  obtain ⟨rfl, hlen⟩ := encodeKey_eq h
  have hl : Bytes.toNat (Bytes.ofNat 2 (Utf8.encode s).length) = (Utf8.encode s).length :=
    Bytes.toNat_ofNat_of_lt (by simp only [Nat.pow_eq, Nat.reducePow]; omega)
  rw [shortText_run, if_pos (by simp), List.append_assoc, Bytes.take_ofNat_append,
    Bytes.drop_ofNat_append, hl, text_run, if_pos (by simp), List.take_left' rfl,
    List.drop_left' rfl, Utf8.decode_encode]

theorem nextKey_run_nil : nextKey.run [] = .ok (none, []) := rfl

theorem nextKey_run_objectEnd (rest : List UInt8) : nextKey.run (objectEnd ++ rest) = .ok (none, rest) :=
  rfl

theorem nextKey_run_key {s : String} {kb : List UInt8} (hs : s ≠ "") (h : encodeKey s = .ok kb)
    (rest : List UInt8) : nextKey.run (kb ++ rest) = .ok (some s, rest) := by
  have hne : (kb ++ rest).isEmpty = false := by
    have hl : 2 ≤ (kb ++ rest).length := by
      obtain ⟨rfl, -⟩ := encodeKey_eq h
      simp
    cases hc : kb ++ rest with
    | nil => rw [hc] at hl; simp at hl
    | cons _ _ => rfl
  have hempty : s.isEmpty = false := by simpa [String.isEmpty_iff] using hs
  unfold nextKey
  rw [Reader.run_bind_of_ok (Reader.atEnd_run _), hne]
  show (shortText >>= _).run _ = _
  rw [Reader.run_bind_of_ok (shortText_run_encodeKey h rest), hempty]
  rfl

theorem shortText_ok_length {s : String} (h : shortText.run bs = .ok (s, r)) :
    r.length + 2 ≤ bs.length := by
  rw [shortText_run] at h
  split at h
  · rw [text_run] at h
    split at h
    · split at h
      · cases h
        simp only [List.length_drop]
        omega
      · cases h
    · cases h
  · cases h

theorem nextKey_ok {o : Option String} (h : nextKey.run bs = .ok (o, r)) :
    r.length ≤ bs.length ∧ ∀ k, o = some k → shortText.run bs = .ok (k, r) ∧ k ≠ "" := by
  unfold nextKey at h
  rw [Reader.run_bind_of_ok (Reader.atEnd_run bs)] at h
  cases he : bs.isEmpty
  · rw [he] at h
    change (shortText >>= _).run bs = _ at h
    rcases hs : shortText.run bs with e | ⟨name, r₀⟩
    · rw [Reader.run_bind_of_error hs] at h
      cases h
    · rw [Reader.run_bind_of_ok hs] at h
      have hl := shortText_ok_length hs
      cases hn : name.isEmpty
      · rw [hn] at h
        cases h
        refine ⟨by omega, fun k hk => ?_⟩
        cases hk
        exact ⟨rfl, by simpa [String.isEmpty_iff] using hn⟩
      · rw [hn] at h
        change (lift Reader.byte >>= _).run r₀ = _ at h
        rcases r₀ with _ | ⟨c, t⟩
        · rw [Reader.run_bind_of_error lift_byte_nil] at h
          cases h
        · rw [Reader.run_bind_of_ok (lift_byte_cons c t)] at h
          by_cases hc : c ≠ Marker.objectEnd.code
          · rw [if_pos hc] at h
            cases h
          · rw [if_neg hc] at h
            cases h
            refine ⟨by simp at hl ⊢; omega, fun k hk => ?_⟩
            cases hk
  · rw [he] at h
    cases h
    exact ⟨le_refl _, fun k hk => by cases hk⟩

variable {elem : Decoder β} {key : String} {v : β} {e : ReadError}

theorem properties_run (elem : Decoder β) (bs : List UInt8) :
    (properties elem).run bs = (propertiesUpTo elem bs.length).run bs :=
  Reader.run_bind_of_ok (Reader.remaining_run bs)

@[simp] theorem propertiesUpTo_zero (elem : Decoder β) (bs : List UInt8) :
    (propertiesUpTo elem 0).run bs = .ok ([], bs) := rfl

theorem propertiesUpTo_run_none {b : Nat} (h : nextKey.run bs = .ok (none, r)) :
    (propertiesUpTo elem (b + 1)).run bs = .ok ([], r) := by
  simp only [propertiesUpTo]
  rw [Reader.run_bind_of_ok h]
  rfl

theorem propertiesUpTo_run_some {b : Nat} (hk : nextKey.run bs = .ok (some key, r))
    (hv : elem.run r = .ok (v, r')) : (propertiesUpTo elem (b + 1)).run bs =
      ((propertiesUpTo elem b).run r').map fun p => ((key, v) :: p.1, p.2) := by
  simp only [propertiesUpTo]
  rw [Reader.run_bind_of_ok hk]
  show (elem >>= _).run r = _
  rw [Reader.run_bind_of_ok hv, Reader.run_bind_pure]

theorem propertiesUpTo_run_elem_error {b : Nat} (hk : nextKey.run bs = .ok (some key, r))
    (hv : elem.run r = .error e) : (propertiesUpTo elem (b + 1)).run bs = .error e := by
  simp only [propertiesUpTo]
  rw [Reader.run_bind_of_ok hk]
  show (elem >>= _).run r = _
  rw [Reader.run_bind_of_error hv]

theorem propertiesUpTo_run_key_error {b : Nat} (hk : nextKey.run bs = .error e) :
    (propertiesUpTo elem (b + 1)).run bs = .error e := by
  simp only [propertiesUpTo]
  rw [Reader.run_bind_of_error hk]

theorem items_run_succ {n : Nat} (hv : elem.run bs = .ok (v, r)) :
    (items elem (n + 1)).run bs = ((items elem n).run r).map fun p => (v :: p.1, p.2) := by
  simp only [items]
  rw [Reader.run_bind_of_ok hv, Reader.run_bind_pure]

theorem items_run_succ_error {n : Nat} (hv : elem.run bs = .error e) :
    (items elem (n + 1)).run bs = .error e := by
  simp only [items]
  rw [Reader.run_bind_of_error hv]

@[simp] theorem items_zero (elem : Decoder β) (bs : List UInt8) : (items elem 0).run bs = .ok ([], bs) :=
  rfl

theorem propertiesUpTo_succ_ok {b : Nat} {ps : List (String × β)}
    (h : (propertiesUpTo elem (b + 1)).run bs = .ok (ps, r)) :
    (nextKey.run bs = .ok (none, r) ∧ ps = []) ∨
      ∃ key r₀ v r₁ ps', nextKey.run bs = .ok (some key, r₀) ∧ elem.run r₀ = .ok (v, r₁) ∧
        (propertiesUpTo elem b).run r₁ = .ok (ps', r) ∧ ps = (key, v) :: ps' := by
  rcases hk : nextKey.run bs with e | ⟨_ | key, r₀⟩
  · rw [propertiesUpTo_run_key_error hk] at h
    cases h
  · rw [propertiesUpTo_run_none hk] at h
    cases h
    exact .inl ⟨rfl, rfl⟩
  · rcases hv : elem.run r₀ with e | ⟨v, r₁⟩
    · rw [propertiesUpTo_run_elem_error hk hv] at h
      cases h
    · rw [propertiesUpTo_run_some hk hv] at h
      rcases hp : (propertiesUpTo elem b).run r₁ with e | ⟨ps', r'⟩ <;> rw [hp] at h <;> cases h
      exact .inr ⟨key, r₀, v, r₁, ps', rfl, hv, hp, rfl⟩

theorem items_succ_ok {n : Nat} {vs : List β} (h : (items elem (n + 1)).run bs = .ok (vs, r)) :
    ∃ v r₁ vs', elem.run bs = .ok (v, r₁) ∧ (items elem n).run r₁ = .ok (vs', r) ∧ vs = v :: vs' := by
  rcases hv : elem.run bs with e | ⟨v, r₁⟩
  · rw [items_run_succ_error hv] at h
    cases h
  · rw [items_run_succ hv] at h
    rcases hi : (items elem n).run r₁ with e | ⟨vs', r'⟩ <;> rw [hi] at h <;> cases h
    exact ⟨v, r₁, vs', rfl, hi, rfl⟩

section Branches

variable (d : Option (Decoder Value)) (bs : List UInt8)

theorem valueWith_number : (valueWith d).run (Marker.number.code :: bs) =
    ((lift Reader.bits64).run bs).map fun p => (.number p.1, p.2) := by
  rw [valueWith, Reader.run_bind_of_ok (marker_run_code _ bs)]
  exact Reader.run_bind_pure _ _ _

theorem valueWith_boolean : (valueWith d).run (Marker.boolean.code :: bs) =
    ((lift Reader.byte).run bs).map fun p => (.boolean (p.1 > 0), p.2) := by
  rw [valueWith, Reader.run_bind_of_ok (marker_run_code _ bs)]
  exact Reader.run_bind_pure _ _ _

theorem valueWith_string : (valueWith d).run (Marker.string.code :: bs) =
    (shortText.run bs).map fun p => (.string p.1, p.2) := by
  rw [valueWith, Reader.run_bind_of_ok (marker_run_code _ bs)]
  exact Reader.run_bind_pure _ _ _

theorem valueWith_longString : (valueWith d).run (Marker.longString.code :: bs) =
    (longText.run bs).map fun p => (.longString p.1, p.2) := by
  rw [valueWith, Reader.run_bind_of_ok (marker_run_code _ bs)]
  exact Reader.run_bind_pure _ _ _

theorem valueWith_reference : (valueWith d).run (Marker.reference.code :: bs) =
    ((lift Reader.u16).run bs).map fun p => (.reference p.1, p.2) := by
  rw [valueWith, Reader.run_bind_of_ok (marker_run_code _ bs)]
  exact Reader.run_bind_pure _ _ _

theorem valueWith_null : (valueWith d).run (Marker.null.code :: bs) = .ok (.null, bs) := by
  rw [valueWith, Reader.run_bind_of_ok (marker_run_code _ bs)]
  rfl

theorem valueWith_undefined : (valueWith d).run (Marker.undefined.code :: bs) = .ok (.undefined, bs) := by
  rw [valueWith, Reader.run_bind_of_ok (marker_run_code _ bs)]
  rfl

theorem valueWith_date : (valueWith d).run (Marker.date.code :: bs) =
    (if 10 ≤ bs.length then
      .ok (.date (Bytes.toNat (bs.take 8)).toUInt64 (Bytes.toNat ((bs.drop 8).take 2)).toUInt16.toInt16,
        bs.drop 10)
    else .error (.io .truncated) : Except ReadError (Value × List UInt8)) := by
  rw [valueWith, Reader.run_bind_of_ok (marker_run_code _ bs)]
  show (lift Reader.bits64 >>= fun millis => lift Reader.i16 >>= fun tz =>
    pure (Value.date millis tz)).run bs = _
  by_cases h8 : 8 ≤ bs.length
  · rw [Reader.run_bind_of_ok (by rw [lift_bits64_run, if_pos h8]), Reader.run_bind_pure,
      lift_i16_run]
    by_cases h10 : 10 ≤ bs.length
    · rw [if_pos (by simp; omega), if_pos h10, List.drop_drop]
      rfl
    · rw [if_neg (by simp; omega), if_neg h10]
      rfl
  · rw [Reader.run_bind_of_error (by rw [lift_bits64_run, if_neg h8]), if_neg (by omega)]

theorem valueWith_object (d : Decoder Value) : (valueWith (some d)).run (Marker.object.code :: bs) =
    ((properties d).run bs).map fun p => (.object p.1, p.2) := by
  rw [valueWith, Reader.run_bind_of_ok (marker_run_code _ bs)]
  exact Reader.run_bind_pure _ _ _

theorem valueWith_object_none : (valueWith none).run (Marker.object.code :: bs) =
    .error (.nestingTooDeep maxNesting) := by
  rw [valueWith, Reader.run_bind_of_ok (marker_run_code _ bs)]
  rfl

theorem valueWith_ecmaArray (d : Decoder Value) :
    (valueWith (some d)).run (Marker.ecmaArray.code :: bs) =
      (if 4 ≤ bs.length then ((properties d).run (bs.drop 4)).map fun p => (.object p.1, p.2)
      else .error (.io .truncated) : Except ReadError (Value × List UInt8)) := by
  rw [valueWith, Reader.run_bind_of_ok (marker_run_code _ bs)]
  show (lift Reader.u32 >>= fun _ => properties d >>= fun ps => pure (Value.object ps)).run bs = _
  by_cases h : 4 ≤ bs.length
  · rw [Reader.run_bind_of_ok (by rw [lift_u32_run, if_pos h]), if_pos h, Reader.run_bind_pure]
  · rw [Reader.run_bind_of_error (by rw [lift_u32_run, if_neg h]), if_neg h]

theorem valueWith_ecmaArray_none : (valueWith none).run (Marker.ecmaArray.code :: bs) =
    (if 4 ≤ bs.length then .error (.nestingTooDeep maxNesting)
      else .error (.io .truncated) : Except ReadError (Value × List UInt8)) := by
  rw [valueWith, Reader.run_bind_of_ok (marker_run_code _ bs)]
  show (lift Reader.u32 >>= fun _ => (throw (.nestingTooDeep maxNesting) : Decoder (List _)) >>=
    fun ps => pure (Value.object ps)).run bs = _
  by_cases h : 4 ≤ bs.length
  · rw [Reader.run_bind_of_ok (by rw [lift_u32_run, if_pos h]), if_pos h]
    rfl
  · rw [Reader.run_bind_of_error (by rw [lift_u32_run, if_neg h]), if_neg h]

theorem valueWith_strictArray (d : Decoder Value) :
    (valueWith (some d)).run (Marker.strictArray.code :: bs) =
      (if 4 ≤ bs.length then
        ((items d (Bytes.toNat (bs.take 4))).run (bs.drop 4)).map fun p => (.strictArray p.1, p.2)
      else .error (.io .truncated) : Except ReadError (Value × List UInt8)) := by
  rw [valueWith, Reader.run_bind_of_ok (marker_run_code _ bs)]
  show ((lift Reader.u32 >>= fun n => items d n.toNat) >>= fun vs =>
    pure (Value.strictArray vs)).run bs = _
  rw [Reader.run_bind_pure]
  by_cases h : 4 ≤ bs.length
  · rw [Reader.run_bind_of_ok (by rw [lift_u32_run, if_pos h]), if_pos h, toNat_take_four_toUInt32]
  · rw [Reader.run_bind_of_error (by rw [lift_u32_run, if_neg h]), if_neg h]
    rfl

theorem valueWith_strictArray_none : (valueWith none).run (Marker.strictArray.code :: bs) =
    .error (.nestingTooDeep maxNesting) := by
  rw [valueWith, Reader.run_bind_of_ok (marker_run_code _ bs)]
  rfl

/-- The markers `decode` does not read. -/
def valueRefused : List Marker :=
  [.movieClip, .objectEnd, .unsupported, .recordset, .xmlDocument, .typedObject, .avmPlusObject]

theorem valueWith_refused {m : Marker} (hm : m ∈ valueRefused) :
    (valueWith d).run (m.code :: bs) = .error (.unsupportedType m) := by
  rw [valueWith, Reader.run_bind_of_ok (marker_run_code _ bs)]
  simp only [valueRefused, List.mem_cons, List.not_mem_nil, or_false] at hm
  rcases hm with rfl | rfl | rfl | rfl | rfl | rfl | rfl <;> rfl

theorem value_eq_valueWith (n : Nat) : ∃ d, value n = valueWith d := by
  cases n <;> exact ⟨_, rfl⟩

variable (sk : Option (Decoder Unit))

theorem skipWith_number : (skipWith sk).run (Marker.number.code :: bs) = (drop 8).run bs := by
  rw [skipWith, Reader.run_bind_of_ok (marker_run_code _ bs)]

theorem skipWith_boolean : (skipWith sk).run (Marker.boolean.code :: bs) = (drop 1).run bs := by
  rw [skipWith, Reader.run_bind_of_ok (marker_run_code _ bs)]

theorem skipWith_reference : (skipWith sk).run (Marker.reference.code :: bs) = (drop 2).run bs := by
  rw [skipWith, Reader.run_bind_of_ok (marker_run_code _ bs)]

theorem skipWith_date : (skipWith sk).run (Marker.date.code :: bs) = (drop 10).run bs := by
  rw [skipWith, Reader.run_bind_of_ok (marker_run_code _ bs)]

theorem skipWith_bare {m : Marker}
    (hm : m = .null ∨ m = .undefined ∨ m = .objectEnd ∨ m = .unsupported) :
    (skipWith sk).run (m.code :: bs) = .ok ((), bs) := by
  rw [skipWith, Reader.run_bind_of_ok (marker_run_code _ bs)]
  rcases hm with rfl | rfl | rfl | rfl <;> rfl

theorem skipWith_short {m : Marker} (hm : m = .string ∨ m = .movieClip) :
    (skipWith sk).run (m.code :: bs) =
      (if 2 ≤ bs.length then (drop (Bytes.toNat (bs.take 2))).run (bs.drop 2)
        else .error (.io .truncated) : Except ReadError (Unit × List UInt8)) := by
  have hbranch : (skipWith sk).run (m.code :: bs) =
      (lift Reader.u16 >>= fun n => drop n.toNat).run bs := by
    rw [skipWith, Reader.run_bind_of_ok (marker_run_code _ bs)]
    rcases hm with rfl | rfl <;> rfl
  rw [hbranch]
  by_cases h : 2 ≤ bs.length
  · rw [Reader.run_bind_of_ok (by rw [lift_u16_run, if_pos h]), if_pos h, toNat_take_two_toUInt16]
  · rw [Reader.run_bind_of_error (by rw [lift_u16_run, if_neg h]), if_neg h]

theorem skipWith_long {m : Marker} (hm : m = .longString ∨ m = .xmlDocument) :
    (skipWith sk).run (m.code :: bs) =
      (if 4 ≤ bs.length then (drop (Bytes.toNat (bs.take 4))).run (bs.drop 4)
        else .error (.io .truncated) : Except ReadError (Unit × List UInt8)) := by
  have hbranch : (skipWith sk).run (m.code :: bs) =
      (lift Reader.u32 >>= fun n => drop n.toNat).run bs := by
    rw [skipWith, Reader.run_bind_of_ok (marker_run_code _ bs)]
    rcases hm with rfl | rfl <;> rfl
  rw [hbranch]
  by_cases h : 4 ≤ bs.length
  · rw [Reader.run_bind_of_ok (by rw [lift_u32_run, if_pos h]), if_pos h, toNat_take_four_toUInt32]
  · rw [Reader.run_bind_of_error (by rw [lift_u32_run, if_neg h]), if_neg h]

theorem skipWith_object (s : Decoder Unit) : (skipWith (some s)).run (Marker.object.code :: bs) =
    ((properties s).run bs).map fun p => ((), p.2) := by
  rw [skipWith, Reader.run_bind_of_ok (marker_run_code _ bs)]
  exact Reader.run_bind_pure _ _ _

theorem skipWith_object_none : (skipWith none).run (Marker.object.code :: bs) =
    .error (.nestingTooDeep maxNesting) := by
  rw [skipWith, Reader.run_bind_of_ok (marker_run_code _ bs)]
  rfl

theorem skipWith_ecmaArray (s : Decoder Unit) :
    (skipWith (some s)).run (Marker.ecmaArray.code :: bs) =
      (if 4 ≤ bs.length then ((properties s).run (bs.drop 4)).map fun p => ((), p.2)
      else .error (.io (.needBytes 4 bs.length)) : Except ReadError (Unit × List UInt8)) := by
  rw [skipWith, Reader.run_bind_of_ok (marker_run_code _ bs)]
  show (drop 4 >>= fun _ => properties s >>= fun _ => pure ()).run bs = _
  by_cases h : 4 ≤ bs.length
  · rw [Reader.run_bind_of_ok (by rw [drop_run, if_pos h]), if_pos h]
    exact Reader.run_bind_pure _ _ _
  · rw [Reader.run_bind_of_error (by rw [drop_run, if_neg h]), if_neg h]

theorem skipWith_ecmaArray_none : (skipWith none).run (Marker.ecmaArray.code :: bs) =
    (if 4 ≤ bs.length then .error (.nestingTooDeep maxNesting)
      else .error (.io (.needBytes 4 bs.length)) : Except ReadError (Unit × List UInt8)) := by
  rw [skipWith, Reader.run_bind_of_ok (marker_run_code _ bs)]
  show (drop 4 >>= fun _ => (throw (.nestingTooDeep maxNesting) : Decoder Unit)).run bs = _
  by_cases h : 4 ≤ bs.length
  · rw [Reader.run_bind_of_ok (by rw [drop_run, if_pos h]), if_pos h]
    rfl
  · rw [Reader.run_bind_of_error (by rw [drop_run, if_neg h]), if_neg h]

theorem skipWith_strictArray (s : Decoder Unit) :
    (skipWith (some s)).run (Marker.strictArray.code :: bs) =
      (if 4 ≤ bs.length then
        ((items s (Bytes.toNat (bs.take 4))).run (bs.drop 4)).map fun p => ((), p.2)
      else .error (.io .truncated) : Except ReadError (Unit × List UInt8)) := by
  rw [skipWith, Reader.run_bind_of_ok (marker_run_code _ bs)]
  show (lift Reader.u32 >>= fun n => items s n.toNat >>= fun _ => pure ()).run bs = _
  by_cases h : 4 ≤ bs.length
  · rw [Reader.run_bind_of_ok (by rw [lift_u32_run, if_pos h]), if_pos h, toNat_take_four_toUInt32]
    exact Reader.run_bind_pure _ _ _
  · rw [Reader.run_bind_of_error (by rw [lift_u32_run, if_neg h]), if_neg h]

theorem skipWith_strictArray_none : (skipWith none).run (Marker.strictArray.code :: bs) =
    (if 4 ≤ bs.length then .error (.nestingTooDeep maxNesting)
      else .error (.io .truncated) : Except ReadError (Unit × List UInt8)) := by
  rw [skipWith, Reader.run_bind_of_ok (marker_run_code _ bs)]
  show (lift Reader.u32 >>= fun _ => (throw (.nestingTooDeep maxNesting) : Decoder Unit)).run bs = _
  by_cases h : 4 ≤ bs.length
  · rw [Reader.run_bind_of_ok (by rw [lift_u32_run, if_pos h]), if_pos h]
    rfl
  · rw [Reader.run_bind_of_error (by rw [lift_u32_run, if_neg h]), if_neg h]

theorem skipWith_refused {m : Marker} (hm : m = .recordset ∨ m = .avmPlusObject) :
    (skipWith sk).run (m.code :: bs) = .error (.unsupportedType m) := by
  rw [skipWith, Reader.run_bind_of_ok (marker_run_code _ bs)]
  rcases hm with rfl | rfl <;> rfl

end Branches

end Decoder

theorem decodeExpecting_run {v : Value} {bs rest : List UInt8}
    (hp : Decoder.peekMarker.run bs = .ok (v.marker, bs)) (hd : decode.run bs = .ok (v, rest)) :
    (decodeExpecting v.marker).run bs = .ok (v, rest) := by
  unfold decodeExpecting
  rw [Reader.run_bind_of_ok hp, if_neg (not_not.2 rfl)]
  exact hd

theorem mapHeader_run_object (bs : List UInt8) :
    mapHeader.run (Marker.object.code :: bs) = .ok (.object, bs) := by
  unfold mapHeader
  rw [Reader.run_bind_of_ok (Decoder.marker_run_code _ bs)]
  rfl

theorem mapHeader_run_ecmaArray {c : List UInt8} (hc : c.length = 4) (bs : List UInt8) :
    mapHeader.run (Marker.ecmaArray.code :: (c ++ bs)) = .ok (.ecmaArray, bs) := by
  unfold mapHeader
  rw [Reader.run_bind_of_ok (Decoder.marker_run_code _ _)]
  show (Decoder.lift Reader.u32 >>= fun _ => pure Marker.ecmaArray).run (c ++ bs) = _
  rw [Reader.run_bind_of_ok (by rw [Decoder.lift_u32_run, if_pos (by simp [hc])]),
    List.drop_left' hc]
  rfl

end Amf

end FlvDemux
