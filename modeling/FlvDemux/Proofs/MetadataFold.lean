import FlvDemux.Proofs.AmfRoundTrip
import FlvDemux.Proofs.AmfSkip
import FlvDemux.Script.Metadata

/-!
# Reading `onMetaData` is a fold over its properties

Read back from what the encoder writes, `Metadata.decode` is the fold `Metadata.absorb` over the
properties in their order from the default record (`decode_onMetaData_folds`): a property sets
its slot's field and is counted when its value has the slot's type. A property with the empty
name inside a value makes the map unreadable (`empty_name_spoils_metadata`).
-/

namespace FlvDemux.Script

open Amf Decoder

namespace Metadata

/-- What a numeric slot takes from a value: a number. -/
def numberOf : Value → Option UInt64
  | .number b => some b
  | _ => none

/-- The numbers of a strict array, booleans as 0 and 1; nothing from any other value. -/
def numbersOf : Value → List UInt64
  | .strictArray vs => vs.filterMap Value.asNumber
  | _ => []

/-- One property of a keyframe map, given the lists of positions and times so far: the last
list of each name wins. -/
def keyframeStep (acc : List UInt64 × List UInt64) (p : String × Value) :
    List UInt64 × List UInt64 :=
  if p.1 = "filepositions" then (numbersOf p.2, acc.2)
  else if p.1 = "times" then (acc.1, numbersOf p.2)
  else acc

/-- What the keyframe slot takes from a value: the index of a map. -/
def keyframesOf : Value → Option KeyframeIndex
  | .object ps => some (Function.uncurry keyframeIndexOf (ps.foldl keyframeStep ([], [])))
  | _ => none

/-- The record after the value `v` of the property `key`, when the slot of `key` takes it. -/
def take (m : Metadata) (key : String) (v : Value) : Option Metadata :=
  match slot? key with
  | some (.number set) => (numberOf v).map (set m)
  | some (.flag set) => v.asBool.map (set m)
  | some .keyframes => (keyframesOf v).map fun i => { m with keyframes := i }
  | none => none

/-- One property of the map: stored and counted when its slot takes its value, passed over
otherwise. -/
def absorb (m : Metadata) (p : String × Value) : Metadata :=
  match m.take p.1 p.2 with
  | some m' => { m' with recognized := m'.recognized + 1 }
  | none => m

end Metadata

section Values

variable {v : Value} {bytes : List UInt8}

theorem decode_run_encode (henc : encode v = .ok bytes) (hw : v.wellFramed)
    (hd : v.depth ≤ maxNesting) (rest : List UInt8) : decode.run (bytes ++ rest) = .ok (v, rest) := by
  rw [decode, value_run_encode v henc hw rest maxNesting, if_pos hd]

theorem skip_run_encode (henc : encode v = .ok bytes) (hw : v.wellFramed)
    (hd : v.depth ≤ maxNesting) (rest : List UInt8) : skip.run (bytes ++ rest) = .ok ((), rest) :=
  skipValue_passes maxNesting _ _ _ (decode_run_encode henc hw hd rest)

theorem peekMarker_run_encode (henc : encode v = .ok bytes) (rest : List UInt8) :
    peekMarker.run (bytes ++ rest) = .ok (v.marker, bytes ++ rest) := by
  obtain ⟨t, rfl⟩ := encode_ok_cons henc
  exact peekMarker_run_code _ _

end Values

section Readers

variable {v : Value} {bytes : List UInt8} (henc : encode v = .ok bytes) (hw : v.wellFramed)
  (hd : v.depth ≤ maxNesting) (rest : List UInt8)
include henc hw hd

theorem readNumber_run_encode : readNumber.run (bytes ++ rest) = .ok (Metadata.numberOf v, rest) := by
  unfold readNumber
  rw [Reader.run_bind_of_ok (peekMarker_run_encode henc rest)]
  by_cases hm : v.marker = .number
  · obtain ⟨b, rfl⟩ : ∃ b, v = .number b := by cases v <;> simp_all [Value.marker]
    rw [if_pos hm, Reader.run_bind_of_ok (decode_run_encode henc hw hd rest)]
    rfl
  · rw [if_neg hm, Reader.run_bind_of_ok (skip_run_encode henc hw hd rest)]
    have hnone : Metadata.numberOf v = none := by
      cases v <;> simp_all [Value.marker, Metadata.numberOf]
    rw [hnone]
    rfl

theorem readFlag_run_encode : readFlag.run (bytes ++ rest) = .ok (v.asBool, rest) := by
  unfold readFlag
  rw [Reader.run_bind_of_ok (peekMarker_run_encode henc rest)]
  by_cases hm : v.marker = .boolean ∨ v.marker = .number
  · rw [if_pos hm, Reader.run_bind_of_ok (decode_run_encode henc hw hd rest)]
    rfl
  · rw [if_neg hm, Reader.run_bind_of_ok (skip_run_encode henc hw hd rest)]
    have hnone : v.asBool = none := by cases v <;> simp_all [Value.marker, Value.asBool]
    rw [hnone]
    rfl

theorem readNumbers_run_encode :
    readNumbers.run (bytes ++ rest) = .ok (Metadata.numbersOf v, rest) := by
  unfold readNumbers
  rw [Reader.run_bind_of_ok (peekMarker_run_encode henc rest)]
  by_cases hm : v.marker = .strictArray
  · obtain ⟨vs, rfl⟩ : ∃ vs, v = .strictArray vs := by cases v <;> simp_all [Value.marker]
    rw [if_neg (not_not.2 hm), Reader.run_bind_of_ok (decode_run_encode henc hw hd rest)]
    rfl
  · rw [if_pos hm, Reader.run_bind_of_ok (skip_run_encode henc hw hd rest)]
    have hnil : Metadata.numbersOf v = [] := by
      cases v <;> simp_all [Value.marker, Metadata.numbersOf]
    rw [hnil]
    rfl

end Readers

theorem keyframeListsUpTo_run_encode : ∀ (ps : List (String × Value)) {pb : List UInt8},
    encodeProperties ps = .ok pb → Value.propertiesWellFramed ps →
    (∀ p ∈ ps, p.2.depth ≤ maxNesting) → ∀ (rest : List UInt8) (b : Nat) (pos ts : List UInt64),
    ps.length < b →
      (keyframeListsUpTo b pos ts).run (pb ++ rest) =
        .ok (ps.foldl Metadata.keyframeStep (pos, ts), rest)
  | _, _, _, _, _, _, 0, _, _, hb => absurd hb (Nat.not_lt_zero _)
  | [], _, h, _, _, rest, b + 1, pos, ts, _ => by
    cases h
    simp only [keyframeListsUpTo]
    rw [Reader.run_bind_of_ok (nextKey_run_objectEnd rest)]
    rfl
  | (k, w) :: ps, _, h, hw, hd, rest, b + 1, pos, ts, hb => by
    obtain ⟨kb, wb, pb, hkb, hwb, hpb, rfl⟩ := encodeProperties_cons_ok h
    have hw' : k ≠ "" ∧ w.wellFramed ∧ Value.propertiesWellFramed ps := by
      simpa [Value.propertiesWellFramed, and_assoc] using hw
    have hdw : w.depth ≤ maxNesting := hd (k, w) List.mem_cons_self
    have hdps : ∀ p ∈ ps, p.2.depth ≤ maxNesting := fun p hp => hd p (List.mem_cons_of_mem _ hp)
    have hbps : ps.length < b := by simpa using hb
    have hk := nextKey_run_key hw'.1 hkb (wb ++ (pb ++ rest))
    have hnext := keyframeListsUpTo_run_encode ps hpb hw'.2.2 hdps rest b
    rw [List.append_assoc, List.append_assoc]
    simp only [keyframeListsUpTo]
    rw [Reader.run_bind_of_ok hk]
    split
    next heq => cases heq
    next heq =>
      cases heq
      rw [Reader.run_bind_of_ok (readNumbers_run_encode hwb hw'.2.1 hdw (pb ++ rest)),
        hnext _ _ hbps]
      simp [Metadata.keyframeStep]
    next heq =>
      cases heq
      rw [Reader.run_bind_of_ok (readNumbers_run_encode hwb hw'.2.1 hdw (pb ++ rest)),
        hnext _ _ hbps]
      simp [Metadata.keyframeStep]
    next name hpos htimes heq =>
      cases heq
      rw [Reader.run_bind_of_ok (skip_run_encode hwb hw'.2.1 hdw (pb ++ rest)), hnext _ _ hbps]
      rw [List.foldl_cons, Metadata.keyframeStep, if_neg hpos, if_neg htimes]

section Slots

variable {v : Value} {bytes : List UInt8} (henc : encode v = .ok bytes) (hw : v.wellFramed)
  (hd : v.depth ≤ maxNesting) (rest : List UInt8)
include henc hw hd

theorem readKeyframes_run_encode :
    readKeyframes.run (bytes ++ rest) = .ok (Metadata.keyframesOf v, rest) := by
  unfold readKeyframes
  rw [Reader.run_bind_of_ok (peekMarker_run_encode henc rest)]
  by_cases hm : v.marker = .object
  · obtain ⟨ps, rfl⟩ : ∃ ps, v = .object ps := by cases v <;> simp_all [Value.marker]
    obtain ⟨pb, hpb, rfl⟩ := encode_object_ok henc
    -- the values of the map nest one level less deep than the map
    have hdps : ∀ p ∈ ps, p.2.depth ≤ maxNesting := fun p hp =>
      (Value.depth_le_propertiesDepth hp).trans (by simp only [Value.depth] at hd; omega)
    have hlen : ps.length < (pb ++ rest).length := by
      have := length_lt_encodeProperties hpb
      simp only [List.length_append]
      omega
    rw [if_neg (by simp [Value.marker]), List.cons_append,
      Reader.run_bind_of_ok (mapHeader_run_object _), Reader.run_bind_of_ok (Reader.remaining_run _),
      Reader.run_bind_of_ok (keyframeListsUpTo_run_encode ps hpb hw hdps rest _ [] [] hlen)]
    rfl
  · have hmap : v.marker ≠ .object ∧ v.marker ≠ .ecmaArray := ⟨hm, by cases v <;> simp [Value.marker]⟩
    rw [if_pos hmap, Reader.run_bind_of_ok (skip_run_encode henc hw hd rest)]
    have hnone : Metadata.keyframesOf v = none := by
      cases v <;> simp_all [Value.marker, Metadata.keyframesOf]
    rw [hnone]
    rfl

theorem readProperty_run_encode (m : Metadata) (key : String) :
    (m.readProperty key).run (bytes ++ rest) = .ok (m.take key v, rest) := by
  unfold Metadata.readProperty Metadata.take
  rcases Metadata.slot? key with _ | (set | set | _)
  · rw [Reader.run_bind_of_ok (skip_run_encode henc hw hd rest)]
    rfl
  · rw [Reader.run_bind_pure, readNumber_run_encode henc hw hd rest]
    rfl
  · rw [Reader.run_bind_pure, readFlag_run_encode henc hw hd rest]
    rfl
  · rw [Reader.run_bind_pure, readKeyframes_run_encode henc hw hd rest]
    rfl

end Slots

theorem encodeProperties_closed : ∀ {ps : List (String × Value)} {pb : List UInt8},
    encodeProperties ps = .ok pb → ∃ body, pb = body ++ objectEnd
  | [], _, h => by
    cases h
    exact ⟨[], rfl⟩
  | (_, _) :: _, _, h => by
    obtain ⟨kb, wb, pb, -, -, hpb, rfl⟩ := encodeProperties_cons_ok h
    obtain ⟨body, rfl⟩ := encodeProperties_closed hpb
    exact ⟨kb ++ wb ++ body, by simp⟩

theorem length_le_of_encodeProperties : ∀ {ps : List (String × Value)} {body : List UInt8},
    encodeProperties ps = .ok (body ++ objectEnd) → ps.length ≤ body.length
  | [], _, _ => Nat.zero_le _
  | (_, w) :: _, body, h => by
    obtain ⟨kb, wb, pb, -, hwb, hpb, hsplit⟩ := encodeProperties_cons_ok h
    obtain ⟨body', rfl⟩ := encodeProperties_closed hpb
    obtain ⟨t, rfl⟩ := encode_ok_cons hwb
    have hbody : body = kb ++ (w.marker.code :: t) ++ body' :=
      List.append_cancel_right (by rw [hsplit]; simp only [List.append_assoc])
    have := length_le_of_encodeProperties hpb
    rw [hbody]
    simp only [List.length_cons, List.length_append]
    omega

namespace Metadata

variable {m : Metadata} {b : Nat} {bs r : List UInt8}

theorem readPropertiesUpTo_run_none (hk : nextKey.run bs = .ok (none, r)) :
    (m.readPropertiesUpTo (b + 1)).run bs = .ok (m, r) := by
  simp only [readPropertiesUpTo]
  rw [Reader.run_bind_of_ok hk]
  rfl

theorem readPropertiesUpTo_run_some {key : String} {v : Value} {r' : List UInt8}
    (hk : nextKey.run bs = .ok (some key, r))
    (hv : (m.readProperty key).run r = .ok (m.take key v, r')) :
    (m.readPropertiesUpTo (b + 1)).run bs = ((m.absorb (key, v)).readPropertiesUpTo b).run r' := by
  simp only [readPropertiesUpTo]
  rw [Reader.run_bind_of_ok hk]
  show (m.readProperty key >>= _).run r = _
  rw [Reader.run_bind_of_ok hv]
  unfold absorb
  cases m.take key v <;> rfl

end Metadata

theorem readPropertiesUpTo_run_encode : ∀ (ps : List (String × Value)) {body : List UInt8},
    encodeProperties ps = .ok (body ++ objectEnd) → Value.propertiesWellFramed ps →
    (∀ p ∈ ps, p.2.depth ≤ maxNesting) →
    ∀ (m : Metadata) (b : Nat) {tail rest : List UInt8}, ps.length ≤ b →
      nextKey.run tail = .ok (none, rest) →
      ∃ r, (m.readPropertiesUpTo b).run (body ++ tail) = .ok (ps.foldl Metadata.absorb m, r)
  | [], body, h, _, _, m, b, tail, rest, _, hk => by
    have hbody : body = [] := by simpa [encodeProperties] using h
    subst hbody
    cases b with
    | zero => exact ⟨tail, rfl⟩
    | succ b => exact ⟨rest, Metadata.readPropertiesUpTo_run_none hk⟩
  | (k, w) :: ps, body, h, hw, hd, m, b, tail, rest, hb, hk => by
    obtain ⟨kb, wb, pb, hkb, hwb, hpb, hsplit⟩ := encodeProperties_cons_ok h
    obtain ⟨body', rfl⟩ := encodeProperties_closed hpb
    have hbody : body = kb ++ wb ++ body' :=
      List.append_cancel_right (by rw [hsplit]; simp only [List.append_assoc])
    subst hbody
    have hw' : k ≠ "" ∧ w.wellFramed ∧ Value.propertiesWellFramed ps := by
      simpa [Value.propertiesWellFramed, and_assoc] using hw
    have hdw : w.depth ≤ maxNesting := hd (k, w) List.mem_cons_self
    have hdps : ∀ p ∈ ps, p.2.depth ≤ maxNesting := fun p hp => hd p (List.mem_cons_of_mem _ hp)
    obtain ⟨b, rfl⟩ : ∃ b', b = b' + 1 := ⟨b - 1, by simp at hb; omega⟩
    have hkey := nextKey_run_key hw'.1 hkb (wb ++ (body' ++ tail))
    have hv := readProperty_run_encode hwb hw'.2.1 hdw (body' ++ tail) m k
    rw [List.append_assoc, List.append_assoc, Metadata.readPropertiesUpTo_run_some hkey hv]
    exact readPropertiesUpTo_run_encode ps hpb hw'.2.2 hdps (m.absorb (k, w)) b
      (by simpa using hb) hk

theorem decode_of_mapHeader {name X Y : List UInt8} {mk : Marker} {M : Metadata}
    (hname : encode (.string "onMetaData") = .ok name) (hm : mapHeader.run X = .ok (mk, Y))
    (hrun : ∃ r, (({} : Metadata).readPropertiesUpTo Y.length).run Y = .ok (M, r)) :
    Metadata.decode (name ++ X) = .ok (some M) := by
  obtain ⟨r, hr⟩ := hrun
  have hdec : (decodeExpecting .string).run (name ++ X) = .ok (.string "onMetaData", X) :=
    decodeExpecting_run (peekMarker_run_encode hname X) (decode_run_encode hname rfl (by decide) X)
  have hread : Metadata.read.run (name ++ X) = .ok (some M, r) := by
    unfold Metadata.read
    rw [Reader.run_bind_of_ok hdec, if_neg (by simp [Value.asText]), Reader.run_bind_of_ok hm,
      Reader.run_bind_of_ok (Reader.remaining_run Y), Reader.run_bind_of_ok hr]
    rfl
  unfold Metadata.decode
  rw [hread]

/-- Reading the metadata of a tag is a fold over the properties of its map. Take properties the
encoder writes, with nonempty names at every level, long strings and strict arrays that fit
their counts, and values that nest no deeper than the reader allows. The body `onMetaData`
followed by these properties as an ECMA array, or as an object, is read as `Metadata.absorb`
folded over them from the default record, also when the bytes that close the map are left off. -/
theorem decode_onMetaData_folds {props : List (String × Value)} {name : List UInt8}
    (hname : encode (.string "onMetaData") = .ok name) (hw : (Value.object props).wellFramed)
    (hd : ∀ p ∈ props, p.2.depth ≤ maxNesting) :
    (∀ bytes, encodeEcmaArray props = .ok bytes → ∃ body, bytes = body ++ objectEnd ∧
      Metadata.decode (name ++ bytes) = .ok (some (props.foldl Metadata.absorb {})) ∧
      Metadata.decode (name ++ body) = .ok (some (props.foldl Metadata.absorb {}))) ∧
    (∀ bytes, encode (.object props) = .ok bytes → ∃ body, bytes = body ++ objectEnd ∧
      Metadata.decode (name ++ bytes) = .ok (some (props.foldl Metadata.absorb {})) ∧
      Metadata.decode (name ++ body) = .ok (some (props.foldl Metadata.absorb {}))) := by
  have hfold : ∀ {X body tail rest : List UInt8} {mk : Marker},
      encodeProperties props = .ok (body ++ objectEnd) →
      mapHeader.run X = .ok (mk, body ++ tail) → nextKey.run tail = .ok (none, rest) →
      Metadata.decode (name ++ X) = .ok (some (props.foldl Metadata.absorb {})) := by
    intro X body tail rest mk hps hm hk
    have hlen : props.length ≤ (body ++ tail).length := by
      have := length_le_of_encodeProperties hps
      simp only [List.length_append]
      omega
    exact decode_of_mapHeader hname hm (readPropertiesUpTo_run_encode props hps hw hd {} _ hlen hk)
  constructor
  · intro bytes h
    obtain ⟨pb, hpb, rfl⟩ := encodeEcmaArray_ok h
    obtain ⟨body, rfl⟩ := encodeProperties_closed hpb
    have hc := Bytes.length_ofNat 4 props.length
    refine ⟨Marker.ecmaArray.code :: Bytes.ofNat 4 props.length ++ body, by simp, ?_, ?_⟩
    · exact hfold hpb (mapHeader_run_ecmaArray hc _) (nextKey_run_objectEnd [])
    · exact hfold hpb (by rw [List.append_nil]; exact mapHeader_run_ecmaArray hc _) nextKey_run_nil
  · intro bytes h
    obtain ⟨pb, hpb, rfl⟩ := encode_object_ok h
    obtain ⟨body, rfl⟩ := encodeProperties_closed hpb
    refine ⟨Marker.object.code :: body, by simp, ?_, ?_⟩
    · exact hfold hpb (mapHeader_run_object _) (nextKey_run_objectEnd [])
    · exact hfold hpb (by rw [List.append_nil]; exact mapHeader_run_object _) nextKey_run_nil

/-- A duration, a flag, a keyframe map and an unknown name, written as an ECMA array: read as the
fold over the four properties. -/
theorem decode_onMetaData_folds_four :
    Metadata.decode ([2, 0, 10, 111, 110, 77, 101, 116, 97, 68, 97, 116, 97] ++
      [8, 0, 0, 0, 4, 0, 8, 100, 117, 114, 97, 116, 105, 111, 110, 0, 64, 41, 0, 0, 0, 0, 0, 0,
        0, 6, 115, 116, 101, 114, 101, 111, 1, 1, 0, 9, 107, 101, 121, 102, 114, 97, 109, 101, 115,
        3, 0, 5, 116, 105, 109, 101, 115, 10, 0, 0, 0, 1, 0, 63, 240, 0, 0, 0, 0, 0, 0, 0, 0, 9,
        0, 1, 120, 2, 0, 1, 121, 0, 0, 9]) =
      .ok (some ([("duration", .number 0x4029000000000000), ("stereo", .boolean true),
        ("keyframes", .object [("times", .strictArray [.number 0x3FF0000000000000])]),
        ("x", .string "y")].foldl Metadata.absorb {})) := by
  refine Exists.elim ((decode_onMetaData_folds ?_ ?_ ?_).1 _ ?_) fun _ h => h.2.1
  all_goals decide +kernel

/-- The empty name closes a map: as the name of a property inside a value, it ends that value's
map early, the object-end marker is missing there, and the whole tag is refused. -/
theorem empty_name_spoils_metadata :
    encode (.string "onMetaData") = .ok [2, 0, 10, 111, 110, 77, 101, 116, 97, 68, 97, 116, 97] ∧
    encodeEcmaArray [("foo", .object [("", .null)])] =
      .ok [8, 0, 0, 0, 1, 0, 3, 102, 111, 111, 3, 0, 0, 5, 0, 0, 9, 0, 0, 9] ∧
    Metadata.decode ([2, 0, 10, 111, 110, 77, 101, 116, 97, 68, 97, 116, 97] ++
      [8, 0, 0, 0, 1, 0, 3, 102, 111, 111, 3, 0, 0, 5, 0, 0, 9, 0, 0, 9]) =
      .error (.script (.missingObjectEnd 5)) :=
  ⟨by decide +kernel, by decide +kernel, rfl⟩

end FlvDemux.Script
