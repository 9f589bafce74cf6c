import FlvDemux.Proofs.AmfReading

/-!
# Reading AMF0 undoes writing

`Amf.decode` reads back what `Amf.encode` wrote, numbers and dates bit for bit, ending where the
writing ended, for values within the nesting limit whose names and counts the format can frame
(`Value.wellFramed`); the closing bytes of maps still open at the end may be left off. The main
statement is `decode_encode`.
-/

namespace FlvDemux.Amf

def closing (k : Nat) : List UInt8 := (List.replicate k objectEnd).flatten

@[simp] theorem closing_zero : closing 0 = [] := rfl

theorem closing_succ (k : Nat) : closing (k + 1) = closing k ++ objectEnd := by
  simp [closing, List.replicate_succ']

namespace Value

mutual

/-- How deep the containers of a value nest: each object and strict array is one level. -/
def depth : Value → Nat
  | .object ps => propertiesDepth ps + 1
  | .strictArray vs => itemsDepth vs + 1
  | _ => 0

/-- The deepest value of a list of properties. -/
def propertiesDepth : List (String × Value) → Nat
  | [] => 0
  | (_, v) :: ps => max v.depth (propertiesDepth ps)

def itemsDepth : List Value → Nat
  | [] => 0
  | v :: vs => max v.depth (itemsDepth vs)

end

theorem depth_le_propertiesDepth {p : String × Value} :
    ∀ {ps : List (String × Value)}, p ∈ ps → p.2.depth ≤ propertiesDepth ps
  | [], h => absurd h List.not_mem_nil
  | (k, w) :: ps, h => by
    simp only [propertiesDepth]
    rcases List.mem_cons.1 h with rfl | h
    · exact le_max_left _ _
    · exact (depth_le_propertiesDepth h).trans (le_max_right _ _)

mutual

/-- Whether a value can be told apart when read back: every long string is shorter than
`2 ^ 32` bytes, every strict array has fewer than `2 ^ 32` items, and no property is named by the
empty string, which closes a map. -/
def wellFramed : Value → Bool
  | .longString s => decide ((Utf8.encode s).length < 2 ^ 32)
  | .strictArray vs => decide (vs.length < 2 ^ 32) && itemsWellFramed vs
  | .object ps => propertiesWellFramed ps
  | _ => true

/-- Whether every property has a nonempty name and a value that can be told apart. -/
def propertiesWellFramed : List (String × Value) → Bool
  | [] => true
  | (k, v) :: ps => k != "" && v.wellFramed && propertiesWellFramed ps

/-- Whether every value of a list can be told apart. -/
def itemsWellFramed : List Value → Bool
  | [] => true
  | v :: vs => v.wellFramed && itemsWellFramed vs

end

mutual

/-- The number of maps still open at the end of a value's encoding: the object itself, and the
maps open at the end of its last value. -/
def openEnds : Value → Nat
  | .object ps => propertiesOpenEnds ps + 1
  | .strictArray vs => itemsOpenEnds vs
  | _ => 0

/-- The maps open at the end of the last value of a list of properties. -/
def propertiesOpenEnds : List (String × Value) → Nat
  | [] => 0
  | [(_, v)] => v.openEnds
  | _ :: ps => propertiesOpenEnds ps

/-- The maps open at the end of the last value of a list. -/
def itemsOpenEnds : List Value → Nat
  | [] => 0
  | [v] => v.openEnds
  | _ :: vs => itemsOpenEnds vs

end

end Value

section Writing

variable {v : Value} {bytes : List UInt8}

private theorem except_bind_ok {ε α β : Type} {x : Except ε α} {f : α → Except ε β} {b : β}
    (h : x >>= f = .ok b) : ∃ a, x = .ok a ∧ f a = .ok b := by
  cases x with
  | error e => cases h
  | ok a => exact ⟨a, rfl, h⟩

theorem encode_object_ok {ps : List (String × Value)} (h : encode (.object ps) = .ok bytes) :
    ∃ pb, encodeProperties ps = .ok pb ∧ bytes = Marker.object.code :: pb := by
  simp only [encode] at h
  obtain ⟨pb, hpb, h⟩ := except_bind_ok h
  cases h
  exact ⟨pb, hpb, rfl⟩

theorem encode_strictArray_ok {vs : List Value} (h : encode (.strictArray vs) = .ok bytes) :
    ∃ ib, encodeItems vs = .ok ib ∧
      bytes = Marker.strictArray.code :: Bytes.ofNat 4 vs.length ++ ib := by
  simp only [encode] at h
  obtain ⟨ib, hib, h⟩ := except_bind_ok h
  cases h
  exact ⟨ib, hib, rfl⟩

theorem encode_string_ok {s : String} (h : encode (.string s) = .ok bytes) :
    ∃ kb, encodeKey s = .ok kb ∧ bytes = Marker.string.code :: kb := by
  simp only [encode] at h
  obtain ⟨kb, hkb, h⟩ := except_bind_ok h
  cases h
  exact ⟨kb, hkb, rfl⟩

theorem encodeProperties_cons_ok {k : String} {w : Value} {ps : List (String × Value)}
    (h : encodeProperties ((k, w) :: ps) = .ok bytes) :
    ∃ kb wb pb, encodeKey k = .ok kb ∧ encode w = .ok wb ∧ encodeProperties ps = .ok pb ∧
      bytes = kb ++ wb ++ pb := by
  simp only [encodeProperties] at h
  obtain ⟨kb, hkb, h⟩ := except_bind_ok h
  obtain ⟨wb, hwb, h⟩ := except_bind_ok h
  obtain ⟨pb, hpb, h⟩ := except_bind_ok h
  cases h
  exact ⟨kb, wb, pb, hkb, hwb, hpb, rfl⟩

theorem encodeItems_cons_ok {w : Value} {vs : List Value} (h : encodeItems (w :: vs) = .ok bytes) :
    ∃ wb ib, encode w = .ok wb ∧ encodeItems vs = .ok ib ∧ bytes = wb ++ ib := by
  simp only [encodeItems] at h
  obtain ⟨wb, hwb, h⟩ := except_bind_ok h
  obtain ⟨ib, hib, h⟩ := except_bind_ok h
  cases h
  exact ⟨wb, ib, hwb, hib, rfl⟩

theorem encodeEcmaArray_ok {ps : List (String × Value)} (h : encodeEcmaArray ps = .ok bytes) :
    ∃ pb, encodeProperties ps = .ok pb ∧
      bytes = Marker.ecmaArray.code :: Bytes.ofNat 4 ps.length ++ pb := by
  obtain ⟨pb, hpb, h⟩ := except_bind_ok h
  cases h
  exact ⟨pb, hpb, rfl⟩

theorem encode_ok_cons (h : encode v = .ok bytes) : ∃ t, bytes = v.marker.code :: t := by
  cases v with
  | string s => obtain ⟨kb, -, rfl⟩ := encode_string_ok h; exact ⟨_, rfl⟩
  | object ps => obtain ⟨pb, -, rfl⟩ := encode_object_ok h; exact ⟨_, rfl⟩
  | strictArray vs => obtain ⟨ib, -, rfl⟩ := encode_strictArray_ok h; exact ⟨_, rfl⟩
  | reference => cases h
  | _ => cases h; exact ⟨_, rfl⟩

theorem encodeKey_length {k : String} {kb : List UInt8} (h : encodeKey k = .ok kb) : 2 ≤ kb.length := by
  obtain ⟨rfl, -⟩ := Decoder.encodeKey_eq h
  simp

theorem length_lt_encodeProperties :
    ∀ {ps : List (String × Value)} {pb : List UInt8}, encodeProperties ps = .ok pb →
      ps.length < pb.length
  | [], _, h => by cases h; simp [objectEnd]
  | (_, _) :: _, _, h => by
    obtain ⟨kb, wb, pb, -, hwb, hpb, rfl⟩ := encodeProperties_cons_ok h
    obtain ⟨t, rfl⟩ := encode_ok_cons hwb
    have := length_lt_encodeProperties hpb
    simp only [List.length_cons, List.length_append]
    omega

end Writing

namespace Decoder

section Containers

variable {rest : List UInt8}

theorem value_run_object {ps : List (String × Value)} {X : List UInt8}
    (hX : ∀ n, (properties (value n)).run X =
      if Value.propertiesDepth ps ≤ n then .ok (ps, rest) else .error (.nestingTooDeep maxNesting))
    (n : Nat) : (value n).run (Marker.object.code :: X) =
      if (Value.object ps).depth ≤ n then .ok (.object ps, rest)
      else .error (.nestingTooDeep maxNesting) := by
  cases n with
  | zero => simp [value, valueWith_object_none, Value.depth]
  | succ n =>
    rw [value, valueWith_object, hX n]
    by_cases h : Value.propertiesDepth ps ≤ n
    · rw [if_pos h, if_pos (by simp [Value.depth, h])]
      rfl
    · rw [if_neg h, if_neg (by simp [Value.depth, h])]
      rfl

theorem value_run_ecmaArray {ps : List (String × Value)} {c X : List UInt8} (hc : c.length = 4)
    (hX : ∀ n, (properties (value n)).run X =
      if Value.propertiesDepth ps ≤ n then .ok (ps, rest) else .error (.nestingTooDeep maxNesting))
    (n : Nat) : (value n).run (Marker.ecmaArray.code :: (c ++ X)) =
      if (Value.object ps).depth ≤ n then .ok (.object ps, rest)
      else .error (.nestingTooDeep maxNesting) := by
  have h4 : 4 ≤ (c ++ X).length := by simp [hc]
  cases n with
  | zero => rw [value, valueWith_ecmaArray_none, if_pos h4, if_neg (by simp [Value.depth])]
  | succ n =>
    rw [value, valueWith_ecmaArray, if_pos h4, List.drop_left' hc, hX n]
    by_cases h : Value.propertiesDepth ps ≤ n
    · rw [if_pos h, if_pos (by simp [Value.depth, h])]
      rfl
    · rw [if_neg h, if_neg (by simp [Value.depth, h])]
      rfl

theorem value_run_strictArray {vs : List Value} {X : List UInt8} (hlen : vs.length < 2 ^ 32)
    (hX : ∀ n, (items (value n) vs.length).run X =
      if Value.itemsDepth vs ≤ n then .ok (vs, rest) else .error (.nestingTooDeep maxNesting))
    (n : Nat) : (value n).run (Marker.strictArray.code :: (Bytes.ofNat 4 vs.length ++ X)) =
      if (Value.strictArray vs).depth ≤ n then .ok (.strictArray vs, rest)
      else .error (.nestingTooDeep maxNesting) := by
  cases n with
  | zero => simp [value, valueWith_strictArray_none, Value.depth]
  | succ n =>
    have hcount : Bytes.toNat (Bytes.ofNat 4 vs.length) = vs.length :=
      Bytes.toNat_ofNat_of_lt (by simpa using hlen)
    rw [value, valueWith_strictArray, if_pos (by simp), Bytes.take_ofNat_append,
      Bytes.drop_ofNat_append, hcount, hX n]
    by_cases h : Value.itemsDepth vs ≤ n
    · rw [if_pos h, if_pos (by simp [Value.depth, h])]
      rfl
    · rw [if_neg h, if_neg (by simp [Value.depth, h])]
      rfl

end Containers

section Fields

variable (rest : List UInt8)

theorem lift_bits64_ofNat (x : UInt64) :
    (lift Reader.bits64).run (Bytes.ofNat 8 x.toNat ++ rest) = .ok (x, rest) := by
  have hx : x.toNat < Nat.pow 256 8 := by simpa using x.toNat_lt
  rw [lift_bits64_run, if_pos (by simp), Bytes.take_ofNat_append, Bytes.drop_ofNat_append,
    Bytes.toNat_ofNat_of_lt hx]
  simp [Nat.toUInt64, UInt64.ofNat_toNat]

theorem longText_run_encode {s : String} (h : (Utf8.encode s).length < 2 ^ 32) :
    longText.run (Bytes.ofNat 4 (Utf8.encode s).length ++ (Utf8.encode s ++ rest)) =
      .ok (s, rest) := by
  have hl : Bytes.toNat (Bytes.ofNat 4 (Utf8.encode s).length) = (Utf8.encode s).length :=
    Bytes.toNat_ofNat_of_lt (by simpa using h)
  rw [longText_run, if_pos (by simp), Bytes.take_ofNat_append, Bytes.drop_ofNat_append, hl,
    text_run, if_pos (by simp), List.take_left' rfl, List.drop_left' rfl, Utf8.decode_encode]

end Fields

section Encodings

open Value

mutual

theorem value_run_encode : ∀ (v : Value) {bytes : List UInt8}, encode v = .ok bytes →
    v.wellFramed → ∀ (rest : List UInt8) (n : Nat), (value n).run (bytes ++ rest) =
      if v.depth ≤ n then .ok (v, rest) else .error (.nestingTooDeep maxNesting)
  | .number x, _, h, _, rest, n => by
    cases h
    obtain ⟨d, hd⟩ := value_eq_valueWith n
    rw [if_pos (show (Value.number x).depth ≤ n by simp [depth]), hd, List.cons_append,
      valueWith_number, lift_bits64_ofNat]
    rfl
  | .boolean x, _, h, _, rest, n => by
    cases h
    obtain ⟨d, hd⟩ := value_eq_valueWith n
    rw [if_pos (show (Value.boolean x).depth ≤ n by simp [depth]), hd, List.cons_append,
      valueWith_boolean, List.singleton_append, lift_byte_cons]
    cases x <;> rfl
  | .string s, _, h, _, rest, n => by
    obtain ⟨kb, hkb, rfl⟩ := encode_string_ok h
    obtain ⟨d, hd⟩ := value_eq_valueWith n
    rw [if_pos (show (Value.string s).depth ≤ n by simp [depth]), hd, List.cons_append,
      valueWith_string, shortText_run_encodeKey hkb]
    rfl
  | .object ps, _, h, hw, rest, n => by
    obtain ⟨pb, hpb, rfl⟩ := encode_object_ok h
    have hw' : propertiesWellFramed ps := by simpa [wellFramed] using hw
    rw [List.cons_append]
    refine value_run_object (fun n => ?_) n
    rw [properties_run]
    exact propertiesUpTo_run_encode ps hpb hw' rest n _
      (by have := length_lt_encodeProperties hpb; simp only [List.length_append]; omega)
  | .null, _, h, _, rest, n => by
    cases h
    obtain ⟨d, hd⟩ := value_eq_valueWith n
    rw [if_pos (show Value.null.depth ≤ n from Nat.zero_le n), hd, List.singleton_append,
      valueWith_null]
  | .undefined, _, h, _, rest, n => by
    cases h
    obtain ⟨d, hd⟩ := value_eq_valueWith n
    rw [if_pos (show Value.undefined.depth ≤ n from Nat.zero_le n), hd, List.singleton_append,
      valueWith_undefined]
  | .reference _, _, h, _, _, _ => by cases h
  | .strictArray vs, _, h, hw, rest, n => by
    obtain ⟨ib, hib, rfl⟩ := encode_strictArray_ok h
    have hw' : vs.length < 2 ^ 32 ∧ itemsWellFramed vs := by simpa [wellFramed] using hw
    simp only [List.cons_append, List.append_assoc]
    exact value_run_strictArray hw'.1 (fun n => items_run_encode vs hib hw'.2 rest n) n
  | .date millis tz, _, h, _, rest, n => by
    cases h
    obtain ⟨d, hd⟩ := value_eq_valueWith n
    have hm : Bytes.toNat (Bytes.ofNat 8 millis.toNat) = millis.toNat :=
      Bytes.toNat_ofNat_of_lt (by simpa using millis.toNat_lt)
    have ht : Bytes.toNat (Bytes.ofNat 2 tz.toUInt16.toNat) = tz.toUInt16.toNat :=
      Bytes.toNat_ofNat_of_lt (by simpa using tz.toUInt16.toNat_lt)
    have h10 : (Bytes.ofNat 8 millis.toNat ++ (Bytes.ofNat 2 tz.toUInt16.toNat ++ rest)).drop 10 =
        rest := by
      rw [show 10 = 8 + 2 from rfl, ← List.drop_drop, Bytes.drop_ofNat_append,
        Bytes.drop_ofNat_append]
    rw [if_pos (show (Value.date millis tz).depth ≤ n by simp [depth]), hd]
    simp only [List.cons_append, List.append_assoc]
    rw [valueWith_date, if_pos (by simp; omega), h10, Bytes.take_ofNat_append,
      Bytes.drop_ofNat_append, Bytes.take_ofNat_append, hm, ht]
    simp [Nat.toUInt64, Nat.toUInt16, UInt64.ofNat_toNat, UInt16.ofNat_toNat,
      Int16.toInt16_toUInt16]
  | .longString s, _, h, hw, rest, n => by
    cases h
    have hw' : (Utf8.encode s).length < 2 ^ 32 := by simpa [wellFramed] using hw
    obtain ⟨d, hd⟩ := value_eq_valueWith n
    rw [if_pos (show (Value.longString s).depth ≤ n by simp [depth]), hd]
    simp only [List.cons_append, List.append_assoc]
    rw [valueWith_longString, longText_run_encode rest hw']
    rfl

theorem propertiesUpTo_run_encode : ∀ (ps : List (String × Value)) {bytes : List UInt8},
    encodeProperties ps = .ok bytes → propertiesWellFramed ps →
    ∀ (rest : List UInt8) (n b : Nat), ps.length < b →
      (propertiesUpTo (value n) b).run (bytes ++ rest) =
        if propertiesDepth ps ≤ n then .ok (ps, rest) else .error (.nestingTooDeep maxNesting)
  | _, _, _, _, _, _, 0, hb => absurd hb (Nat.not_lt_zero _)
  | [], _, h, _, rest, n, b + 1, _ => by
    cases h
    rw [propertiesUpTo_run_none (nextKey_run_objectEnd rest), if_pos (by simp [propertiesDepth])]
  | (k, w) :: ps, _, h, hw, rest, n, b + 1, hb => by
    obtain ⟨kb, wb, pb, hkb, hwb, hpb, rfl⟩ := encodeProperties_cons_ok h
    have hw' : k ≠ "" ∧ w.wellFramed ∧ propertiesWellFramed ps := by
      simpa [propertiesWellFramed, and_assoc] using hw
    have hv := value_run_encode w hwb hw'.2.1 (pb ++ rest) n
    have hk := nextKey_run_key hw'.1 hkb (wb ++ (pb ++ rest))
    rw [List.append_assoc, List.append_assoc]
    by_cases hd : w.depth ≤ n
    · rw [if_pos hd] at hv
      rw [propertiesUpTo_run_some hk hv,
        propertiesUpTo_run_encode ps hpb hw'.2.2 rest n b (by simp at hb; omega)]
      by_cases hps : propertiesDepth ps ≤ n
      · rw [if_pos hps, if_pos (by simp [propertiesDepth, hd, hps])]
        rfl
      · rw [if_neg hps, if_neg (by simp [propertiesDepth, hps])]
        rfl
    · rw [if_neg hd] at hv
      rw [propertiesUpTo_run_elem_error hk hv, if_neg (by simp [propertiesDepth, hd])]

theorem items_run_encode : ∀ (vs : List Value) {bytes : List UInt8}, encodeItems vs = .ok bytes →
    itemsWellFramed vs → ∀ (rest : List UInt8) (n : Nat),
      (items (value n) vs.length).run (bytes ++ rest) =
        if itemsDepth vs ≤ n then .ok (vs, rest) else .error (.nestingTooDeep maxNesting)
  | [], _, h, _, rest, n => by
    cases h
    rw [List.length_nil, items_zero, if_pos (by simp [itemsDepth])]
    rfl
  | w :: vs, _, h, hw, rest, n => by
    obtain ⟨wb, ib, hwb, hib, rfl⟩ := encodeItems_cons_ok h
    have hw' : w.wellFramed ∧ itemsWellFramed vs := by simpa [itemsWellFramed] using hw
    have hv := value_run_encode w hwb hw'.1 (ib ++ rest) n
    rw [List.append_assoc, List.length_cons]
    by_cases hd : w.depth ≤ n
    · rw [if_pos hd] at hv
      rw [items_run_succ hv, items_run_encode vs hib hw'.2 rest n]
      by_cases hvs : itemsDepth vs ≤ n
      · rw [if_pos hvs, if_pos (by simp [itemsDepth, hd, hvs])]
        rfl
      · rw [if_neg hvs, if_neg (by simp [itemsDepth, hvs])]
        rfl
    · rw [if_neg hd] at hv
      rw [items_run_succ_error hv, if_neg (by simp [itemsDepth, hd])]

end

theorem propertiesUpTo_run_nil (n b : Nat) :
    (propertiesUpTo (value n) b).run [] = .ok ([], []) := by
  cases b with
  | zero => rfl
  | succ b => exact propertiesUpTo_run_none nextKey_run_nil

mutual

theorem value_run_cut : ∀ (v : Value) {bytes : List UInt8}, encode v = .ok bytes →
    v.wellFramed → ∀ k ≤ v.openEnds, ∃ body, bytes = body ++ closing k ∧
      ∀ n, (value n).run body =
        if v.depth ≤ n then .ok (v, []) else .error (.nestingTooDeep maxNesting)
  | v, bytes, h, hw, 0, _ =>
    ⟨bytes, by simp, fun n => by simpa using value_run_encode v h hw [] n⟩
  | .object ps, _, h, hw, k + 1, hk => by
    obtain ⟨pb, hpb, rfl⟩ := encode_object_ok h
    have hw' : propertiesWellFramed ps := by simpa [wellFramed] using hw
    obtain ⟨body, rfl, hlen, hrun⟩ :=
      propertiesUpTo_run_cut ps hpb hw' k (by simpa [openEnds] using hk)
    refine ⟨Marker.object.code :: body, rfl, value_run_object (fun n => ?_)⟩
    rw [properties_run]
    exact hrun n _ hlen
  | .strictArray vs, _, h, hw, k + 1, hk => by
    obtain ⟨ib, hib, rfl⟩ := encode_strictArray_ok h
    have hw' : vs.length < 2 ^ 32 ∧ itemsWellFramed vs := by simpa [wellFramed] using hw
    obtain ⟨body, rfl, hrun⟩ := items_run_cut vs hib hw'.2 (k + 1) (by simpa [openEnds] using hk)
    exact ⟨Marker.strictArray.code :: (Bytes.ofNat 4 vs.length ++ body), by simp,
      value_run_strictArray hw'.1 hrun⟩
  | .number _, _, _, _, _ + 1, hk => absurd hk (by simp [openEnds])
  | .boolean _, _, _, _, _ + 1, hk => absurd hk (by simp [openEnds])
  | .string _, _, _, _, _ + 1, hk => absurd hk (by simp [openEnds])
  | .null, _, _, _, _ + 1, hk => absurd hk (by simp [openEnds])
  | .undefined, _, _, _, _ + 1, hk => absurd hk (by simp [openEnds])
  | .reference _, _, _, _, _ + 1, hk => absurd hk (by simp [openEnds])
  | .date .., _, _, _, _ + 1, hk => absurd hk (by simp [openEnds])
  | .longString _, _, _, _, _ + 1, hk => absurd hk (by simp [openEnds])

theorem propertiesUpTo_run_cut : ∀ (ps : List (String × Value)) {bytes : List UInt8},
    encodeProperties ps = .ok bytes → propertiesWellFramed ps →
    ∀ k ≤ propertiesOpenEnds ps, ∃ body, bytes = body ++ closing (k + 1) ∧ ps.length ≤ body.length ∧
      ∀ n b, ps.length ≤ b → (propertiesUpTo (value n) b).run body =
        if propertiesDepth ps ≤ n then .ok (ps, []) else .error (.nestingTooDeep maxNesting)
  | [], _, h, _, k, hk => by
    cases h
    obtain rfl : k = 0 := by simpa [propertiesOpenEnds] using hk
    refine ⟨[], rfl, le_refl _, fun n b _ => ?_⟩
    rw [propertiesUpTo_run_nil, if_pos (by simp [propertiesDepth])]
  | [(key, w)], _, h, hw, k, hk => by
    obtain ⟨kb, wb, pb, hkb, hwb, hpb, rfl⟩ := encodeProperties_cons_ok h
    cases hpb
    have hw' : key ≠ "" ∧ w.wellFramed := by simpa [propertiesWellFramed] using hw
    obtain ⟨body, rfl, hrun⟩ := value_run_cut w hwb hw'.2 k (by simpa [propertiesOpenEnds] using hk)
    refine ⟨kb ++ body, by simp [closing_succ], ?_, fun n b hb => ?_⟩
    · have := encodeKey_length hkb
      simp only [List.length_singleton, List.length_append]
      omega
    obtain ⟨b, rfl⟩ : ∃ b', b = b' + 1 := ⟨b - 1, by simp at hb; omega⟩
    have hk := nextKey_run_key hw'.1 hkb body
    have hv := hrun n
    by_cases hd : w.depth ≤ n
    · rw [if_pos hd] at hv
      rw [propertiesUpTo_run_some hk hv, propertiesUpTo_run_nil,
        if_pos (by simp [propertiesDepth, hd])]
      rfl
    · rw [if_neg hd] at hv
      rw [propertiesUpTo_run_elem_error hk hv, if_neg (by simp [propertiesDepth, hd])]
  | (key, w) :: p :: ps, _, h, hw, k, hk => by
    obtain ⟨kb, wb, pb, hkb, hwb, hpb, rfl⟩ := encodeProperties_cons_ok h
    have hw' : key ≠ "" ∧ w.wellFramed ∧ propertiesWellFramed (p :: ps) := by
      simpa [propertiesWellFramed, and_assoc] using hw
    obtain ⟨body, rfl, hlen, hrun⟩ :=
      propertiesUpTo_run_cut (p :: ps) hpb hw'.2.2 k (by simpa [propertiesOpenEnds] using hk)
    refine ⟨kb ++ wb ++ body, by simp, ?_, fun n b hb => ?_⟩
    · have := encodeKey_length hkb
      simp only [List.length_cons, List.length_append] at hlen ⊢
      omega
    obtain ⟨b, rfl⟩ : ∃ b', b = b' + 1 := ⟨b - 1, by simp at hb; omega⟩
    have hk := nextKey_run_key hw'.1 hkb (wb ++ body)
    have hv := value_run_encode w hwb hw'.2.1 body n
    rw [List.append_assoc]
    by_cases hd : w.depth ≤ n
    · rw [if_pos hd] at hv
      rw [propertiesUpTo_run_some hk hv, hrun n b (by simp at hb ⊢; omega)]
      by_cases hps : propertiesDepth (p :: ps) ≤ n
      · rw [if_pos hps, if_pos (by simp only [propertiesDepth] at hps ⊢; omega)]
        rfl
      · rw [if_neg hps, if_neg (by simp only [propertiesDepth] at hps ⊢; omega)]
        rfl
    · rw [if_neg hd] at hv
      rw [propertiesUpTo_run_elem_error hk hv, if_neg (by simp [propertiesDepth, hd])]

theorem items_run_cut : ∀ (vs : List Value) {bytes : List UInt8}, encodeItems vs = .ok bytes →
    itemsWellFramed vs → ∀ k ≤ itemsOpenEnds vs, ∃ body, bytes = body ++ closing k ∧
      ∀ n, (items (value n) vs.length).run body =
        if itemsDepth vs ≤ n then .ok (vs, []) else .error (.nestingTooDeep maxNesting)
  | [], _, h, _, k, hk => by
    cases h
    obtain rfl : k = 0 := by simpa [itemsOpenEnds] using hk
    exact ⟨[], rfl, fun n => by rw [List.length_nil, items_zero, if_pos (by simp [itemsDepth])]⟩
  | [w], _, h, hw, k, hk => by
    obtain ⟨wb, ib, hwb, hib, rfl⟩ := encodeItems_cons_ok h
    cases hib
    have hw' : w.wellFramed := by simpa [itemsWellFramed] using hw
    obtain ⟨body, rfl, hrun⟩ := value_run_cut w hwb hw' k (by simpa [itemsOpenEnds] using hk)
    refine ⟨body, by simp, fun n => ?_⟩
    have hv := hrun n
    by_cases hd : w.depth ≤ n
    · rw [if_pos hd] at hv
      rw [List.length_singleton, items_run_succ hv, items_zero, if_pos (by simp [itemsDepth, hd])]
      rfl
    · rw [if_neg hd] at hv
      rw [List.length_singleton, items_run_succ_error hv, if_neg (by simp [itemsDepth, hd])]
  | w :: v :: vs, _, h, hw, k, hk => by
    obtain ⟨wb, ib, hwb, hib, rfl⟩ := encodeItems_cons_ok h
    have hw' : w.wellFramed ∧ itemsWellFramed (v :: vs) := by simpa [itemsWellFramed] using hw
    obtain ⟨body, rfl, hrun⟩ := items_run_cut (v :: vs) hib hw'.2 k (by simpa [itemsOpenEnds] using hk)
    refine ⟨wb ++ body, by simp, fun n => ?_⟩
    have hv := value_run_encode w hwb hw'.1 body n
    by_cases hd : w.depth ≤ n
    · rw [if_pos hd] at hv
      rw [List.length_cons, items_run_succ hv, hrun n]
      by_cases hvs : itemsDepth (v :: vs) ≤ n
      · rw [if_pos hvs, if_pos (by simp only [itemsDepth] at hvs ⊢; omega)]
        rfl
      · rw [if_neg hvs, if_neg (by simp only [itemsDepth] at hvs ⊢; omega)]
        rfl
    · rw [if_neg hd] at hv
      rw [List.length_cons, items_run_succ_error hv, if_neg (by simp [itemsDepth, hd])]

end

theorem ecmaArray_run_cut {ps : List (String × Value)} {bytes : List UInt8}
    (h : encodeEcmaArray ps = .ok bytes) (hw : (Value.object ps).wellFramed) :
    ∀ k ≤ (Value.object ps).openEnds, ∃ body, bytes = body ++ closing k ∧
      ∀ n, (value n).run body = if (Value.object ps).depth ≤ n then .ok (.object ps, [])
        else .error (.nestingTooDeep maxNesting) := by
  intro k hk
  obtain ⟨pb, hpb, rfl⟩ := encodeEcmaArray_ok h
  have hw' : propertiesWellFramed ps := by simpa [wellFramed] using hw
  cases k with
  | zero =>
    refine ⟨Marker.ecmaArray.code :: (Bytes.ofNat 4 ps.length ++ pb), by simp, fun n => ?_⟩
    refine value_run_ecmaArray (Bytes.length_ofNat 4 _) (fun n => ?_) n
    have hrun := propertiesUpTo_run_encode ps hpb hw' [] n pb.length (length_lt_encodeProperties hpb)
    rw [List.append_nil] at hrun
    rw [properties_run]
    exact hrun
  | succ k =>
    obtain ⟨body, rfl, hlen, hrun⟩ :=
      propertiesUpTo_run_cut ps hpb hw' k (by simpa [openEnds] using hk)
    refine ⟨Marker.ecmaArray.code :: (Bytes.ofNat 4 ps.length ++ body), by simp,
      value_run_ecmaArray (Bytes.length_ofNat 4 _) (fun n => ?_)⟩
    rw [properties_run]
    exact hrun n _ hlen

end Encodings

end Decoder

open Value in
/-- Reading undoes writing. A value the encoder accepts, whose long strings and strict arrays fit
their counts and whose properties all have names, reads back as itself, ending where its
encoding ends, when it nests at most `maxNesting` levels deep, and fails with `nestingTooDeep`
when it nests deeper. Properties written as an ECMA array read back as an object. Both hold
also when any number of the closing bytes of the maps still open at the end are left off. -/
theorem decode_undoes_encode :
    (∀ (v : Value) (bytes : List UInt8), encode v = .ok bytes → v.wellFramed →
      ∀ k ≤ v.openEnds, ∃ body, bytes = body ++ closing k ∧
        (v.depth ≤ maxNesting → decode.run body = .ok (v, [])) ∧
        (maxNesting < v.depth → decode.run body = .error (.nestingTooDeep maxNesting))) ∧
    (∀ (ps : List (String × Value)) (bytes : List UInt8), encodeEcmaArray ps = .ok bytes →
      (Value.object ps).wellFramed →
      ∀ k ≤ (Value.object ps).openEnds, ∃ body, bytes = body ++ closing k ∧
        ((Value.object ps).depth ≤ maxNesting → decode.run body = .ok (.object ps, [])) ∧
        (maxNesting < (Value.object ps).depth →
          decode.run body = .error (.nestingTooDeep maxNesting))) := by
  constructor
  · intro v bytes h hw k hk
    obtain ⟨body, hbody, hrun⟩ := Decoder.value_run_cut v h hw k hk
    refine ⟨body, hbody, fun hd => ?_, fun hd => ?_⟩
    · rw [decode, hrun, if_pos hd]
    · rw [decode, hrun, if_neg (by omega)]
  · intro ps bytes h hw k hk
    obtain ⟨body, hbody, hrun⟩ := Decoder.ecmaArray_run_cut h hw k hk
    refine ⟨body, hbody, fun hd => ?_, fun hd => ?_⟩
    · rw [decode, hrun, if_pos hd]
    · rw [decode, hrun, if_neg (by omega)]

/-- An object holding an array whose last item is an object, and an ECMA array of a number and
an empty object: each reads back with none, one or both of its last closing bytes. -/
theorem decode_undoes_encode_nested :
    (encode (.object [("ab", .strictArray [.boolean true, .object [("c", .date 0 (-60))]])]) =
        .ok [3, 0, 2, 97, 98, 10, 0, 0, 0, 2, 1, 1, 3, 0, 1, 99, 11, 0, 0, 0, 0, 0, 0, 0, 0, 255,
          196, 0, 0, 9, 0, 0, 9] ∧
      ∀ k ≤ 2, ∃ body, [3, 0, 2, 97, 98, 10, 0, 0, 0, 2, 1, 1, 3, 0, 1, 99, 11, 0, 0, 0, 0, 0, 0,
          0, 0, 255, 196, 0, 0, 9, 0, 0, 9] = body ++ closing k ∧
        decode.run body =
          .ok (.object [("ab", .strictArray [.boolean true, .object [("c", .date 0 (-60))]])], [])) ∧
    (encodeEcmaArray [("ab", .number 0x3FF0000000000000), ("c", .object [])] =
        .ok [8, 0, 0, 0, 2, 0, 2, 97, 98, 0, 63, 240, 0, 0, 0, 0, 0, 0, 0, 1, 99, 3, 0, 0, 9, 0, 0,
          9] ∧
      ∀ k ≤ 2, ∃ body, [8, 0, 0, 0, 2, 0, 2, 97, 98, 0, 63, 240, 0, 0, 0, 0, 0, 0, 0, 1, 99, 3, 0,
          0, 9, 0, 0, 9] = body ++ closing k ∧
        decode.run body = .ok (.object [("ab", .number 0x3FF0000000000000), ("c", .object [])], [])) := by
  have henc : encode (.object [("ab", .strictArray [.boolean true, .object [("c", .date 0 (-60))]])]) =
      .ok [3, 0, 2, 97, 98, 10, 0, 0, 0, 2, 1, 1, 3, 0, 1, 99, 11, 0, 0, 0, 0, 0, 0, 0, 0, 255,
        196, 0, 0, 9, 0, 0, 9] := by decide +kernel
  have hecma : encodeEcmaArray [("ab", .number 0x3FF0000000000000), ("c", .object [])] =
      .ok [8, 0, 0, 0, 2, 0, 2, 97, 98, 0, 63, 240, 0, 0, 0, 0, 0, 0, 0, 1, 99, 3, 0, 0, 9, 0, 0,
        9] := by decide +kernel
  refine ⟨⟨henc, fun k hk => ?_⟩, ⟨hecma, fun k hk => ?_⟩⟩
  · obtain ⟨body, hb, hok, -⟩ :=
      decode_undoes_encode.1 _ _ henc (by decide +kernel) k (hk.trans (by decide +kernel))
    exact ⟨body, hb, hok (by decide +kernel)⟩
  · obtain ⟨body, hb, hok, -⟩ :=
      decode_undoes_encode.2 _ _ hecma (by decide +kernel) k (hk.trans (by decide +kernel))
    exact ⟨body, hb, hok (by decide +kernel)⟩

/-- A property named by the empty string is written, but reads as the end of its map: the
object-end marker is then missing. -/
theorem empty_name_not_read_back :
    encode (.object [("", .null)]) = .ok [3, 0, 0, 5, 0, 0, 9] ∧
      (Value.object [("", .null)]).depth ≤ maxNesting ∧
      decode.run [3, 0, 0, 5, 0, 0, 9] = .error (.missingObjectEnd 5) :=
  ⟨by decide +kernel, by decide +kernel, rfl⟩

end FlvDemux.Amf
