import FlvDemux.Amf.Nesting
import FlvDemux.Proofs.AmfProgress

/-!
# The depth counter comes back to where it was

A counted reader reads as a levelled one at depth `e` when, run with `e` containers open, it
gives the same result and leaves the count at `e`, whether it succeeds or fails (`ReadsAs`).
Since `nested` counts a container closed again after its contents, the counted readers read at
every depth as the levelled readers with the levels left to that depth.
-/

namespace FlvDemux.Amf

namespace Nesting

variable {α β γ : Type}

def ReadsAs (e : Nat) (r : Nesting α) (d : Decoder α) : Prop :=
  ∀ bs, r.run bs e = (d.run bs, e)

/-- What a counted reader of the values one level down must do, for the levelled reader `deeper`
of those values (`none`: no level left). -/
def Below (e : Nat) (self : Nesting α) : Option (Decoder α) → Prop
  | some d => e < maxNesting ∧ self.ReadsAs (e + 1) d
  | none => maxNesting ≤ e

/-- The levelled reader one level down from `n` levels, if there is one. -/
def deeperOf (levelled : Nat → Decoder α) : Nat → Option (Decoder α)
  | 0 => none
  | l + 1 => some (levelled l)

namespace ReadsAs

variable {e : Nat} {r : Nesting α} {d : Decoder α}

theorem read (d : Decoder α) : (Nesting.read d).ReadsAs e d := fun bs => run_read d bs e

theorem pure (a : α) : (Pure.pure a : Nesting α).ReadsAs e (Pure.pure a) := fun _ => rfl

theorem throw (x : ReadError) :
    (MonadExcept.throw x : Nesting α).ReadsAs e (MonadExcept.throw x) := fun _ => rfl

theorem bind {f : α → Nesting β} {g : α → Decoder β} (hr : r.ReadsAs e d)
    (hf : ∀ a, (f a).ReadsAs e (g a)) : (r >>= f).ReadsAs e (d >>= g) := by
  intro bs
  rw [run_bind, hr bs]
  rcases h : d.run bs with x | ⟨a, rest⟩
  · rw [Reader.run_bind_of_error h]
  · rw [Reader.run_bind_of_ok h]
    exact hf a rest

theorem nested {self : Nesting γ} {deeper : Option (Decoder γ)} {k' : Nesting α}
    {k : Decoder γ → Decoder α} (h : Below e self deeper)
    (hk : ∀ d, self.ReadsAs (e + 1) d → k'.ReadsAs (e + 1) (k d)) :
    (Nesting.nested k').ReadsAs e (Decoder.nest deeper k) := by
  intro bs
  cases deeper with
  | none =>
    rw [run_nested, if_pos (show maxNesting ≤ e from h)]
    rfl
  | some d =>
    obtain ⟨hlt, hs⟩ := h
    rw [run_nested, if_neg (Nat.not_le.2 hlt), hk d hs bs]
    rfl

theorem propertiesUpTo {elem : Nesting β} {d : Decoder β} (h : elem.ReadsAs e d) :
    ∀ b, (Nesting.propertiesUpTo elem b).ReadsAs e (Decoder.propertiesUpTo d b)
  | 0 => pure []
  | b + 1 => by
    rw [Nesting.propertiesUpTo, Decoder.propertiesUpTo]
    refine (read _).bind fun o => ?_
    cases o with
    | none => exact pure []
    | some key => exact h.bind fun v => (propertiesUpTo h b).bind fun ps => pure _

theorem properties {elem : Nesting β} {d : Decoder β} (h : elem.ReadsAs e d) :
    (Nesting.properties elem).ReadsAs e (Decoder.properties d) :=
  (read _).bind fun b => propertiesUpTo h b

theorem items {elem : Nesting β} {d : Decoder β} (h : elem.ReadsAs e d) :
    ∀ n, (Nesting.items elem n).ReadsAs e (Decoder.items d n)
  | 0 => pure []
  | n + 1 => by
    rw [Nesting.items, Decoder.items]
    exact h.bind fun v => (items h n).bind fun vs => pure _

theorem valueBody {self : Nesting Value} {deeper : Option (Decoder Value)}
    (h : Below e self deeper) : (Nesting.valueBody self).ReadsAs e (Decoder.valueWith deeper) := by
  unfold Nesting.valueBody Decoder.valueWith
  refine (read _).bind fun m => ?_
  cases m with
  | number | boolean | string | reference | longString => exact (read _).bind fun _ => pure _
  | object => exact (nested h fun _ hd => properties hd).bind fun _ => pure _
  | ecmaArray =>
    exact (read _).bind fun _ => (nested h fun _ hd => properties hd).bind fun _ => pure _
  | strictArray =>
    exact (nested h fun _ hd => (read _).bind fun n => items hd n.toNat).bind fun _ => pure _
  | null | undefined => exact pure _
  | date => exact (read _).bind fun _ => (read _).bind fun _ => pure _
  | movieClip | objectEnd | unsupported | recordset | xmlDocument | typedObject | avmPlusObject =>
    exact throw _

theorem skipBody {self : Nesting Unit} {deeper : Option (Decoder Unit)}
    (h : Below e self deeper) : (Nesting.skipBody self).ReadsAs e (Decoder.skipWith deeper) := by
  unfold Nesting.skipBody Decoder.skipWith
  refine (read _).bind fun m => ?_
  cases m with
  | number | boolean | reference | date => exact read _
  | string | movieClip | longString | xmlDocument => exact (read _).bind fun _ => read _
  | object => exact nested h fun _ hd => (properties hd).bind fun _ => pure ()
  | ecmaArray =>
    exact (read _).bind fun _ => nested h fun _ hd => (properties hd).bind fun _ => pure ()
  | typedObject =>
    exact (read _).bind fun _ => (read _).bind fun _ =>
      nested h fun _ hd => (properties hd).bind fun _ => pure ()
  | strictArray =>
    exact (read _).bind fun n => nested h fun _ hd => (items hd n.toNat).bind fun _ => pure ()
  | null | undefined | objectEnd | unsupported => exact pure ()
  | recordset | avmPlusObject => exact throw _

theorem below_levels {self : Nesting α} {levelled : Nat → Decoder α} {e : Nat}
    (hs : e < maxNesting → self.ReadsAs (e + 1) (levelled (maxNesting - (e + 1)))) :
    Below e self (deeperOf levelled (maxNesting - e)) := by
  by_cases he : e < maxNesting
  · obtain ⟨l, hl⟩ : ∃ l, maxNesting - e = l + 1 := ⟨maxNesting - (e + 1), by omega⟩
    rw [hl]
    refine ⟨he, ?_⟩
    rw [show l = maxNesting - (e + 1) by omega]
    exact hs he
  · rw [show maxNesting - e = 0 by omega]
    exact Nat.le_of_not_lt he

end ReadsAs

theorem value_levels (n : Nat) : Decoder.value n = Decoder.valueWith (deeperOf Decoder.value n) := by
  cases n <;> rfl

theorem skipValue_levels (n : Nat) :
    Decoder.skipValue n = Decoder.skipWith (deeperOf Decoder.skipValue n) := by
  cases n <;> rfl

theorem valueFueled_readsAs : ∀ {n e : Nat}, maxNesting - e < n →
    (valueFueled n).ReadsAs e (Decoder.value (maxNesting - e))
  | n + 1, e, h => by
    rw [valueFueled, value_levels]
    exact ReadsAs.valueBody (ReadsAs.below_levels fun _ => valueFueled_readsAs (by omega))

theorem skipFueled_readsAs : ∀ {n e : Nat}, maxNesting - e < n →
    (skipFueled n).ReadsAs e (Decoder.skipValue (maxNesting - e))
  | n + 1, e, h => by
    rw [skipFueled, skipValue_levels]
    exact ReadsAs.skipBody (ReadsAs.below_levels fun _ => skipFueled_readsAs (by omega))

theorem decode_readsAs (e : Nat) : decode.ReadsAs e (Decoder.value (maxNesting - e)) :=
  valueFueled_readsAs (by omega)

theorem skip_readsAs (e : Nat) : skip.ReadsAs e (Decoder.skipValue (maxNesting - e)) :=
  skipFueled_readsAs (by omega)

theorem nested_count (k : Nesting α) (bs : List UInt8) (e : Nat)
    (h : (k.run bs (e + 1)).2 = e + 1) : ((nested k).run bs e).2 = e := by
  rw [run_nested]
  split
  · rfl
  · simp [h]

end Nesting

open Decoder Nesting

/-- Reading AMF0 moves forward through its input, ends, and gives the depth back. With any number
of levels left, a value read or passed over takes at least its marker byte from the front of the
bytes, and the name of a property at least its two length bytes, so no read goes past the end. The
nesting limit bounds the depth of a value and not how many containers came before it. A strict
array holds no more items than there are bytes after its count, and the loops over properties end
within the bytes they start on. Kept as a count of open containers, the depth is where it was after
every read of a value, passed over or not, and after every container, whether the read succeeds or
fails; the counted reads are the reads with the levels left. -/
theorem reading_moves_forward_and_ends :
    (∀ n bs v r, (value n).run bs = .ok (v, r) → ∃ p, 1 ≤ p.length ∧ bs = p ++ r) ∧
    (∀ n bs r, (skipValue n).run bs = .ok ((), r) → ∃ p, 1 ≤ p.length ∧ bs = p ++ r) ∧
    (∀ bs o r, nextKey.run bs = .ok (o, r) → ∃ p, bs = p ++ r) ∧
    (∀ bs key r, nextKey.run bs = .ok (some key, r) → ∃ p, 2 ≤ p.length ∧ bs = p ++ r) ∧
    (∀ n N bs v r, n ≤ N →
      ((value n).run bs = .ok (v, r) ↔ (value N).run bs = .ok (v, r) ∧ v.depth ≤ n)) ∧
    (∀ n N bs v r, (value N).run bs = .ok (v, r) →
      ((skipValue n).run bs = .ok ((), r) ↔ v.depth ≤ n)) ∧
    (∀ n c rest v r, c.length = 4 →
      (value n).run (Marker.strictArray.code :: (c ++ rest)) = .ok (v, r) →
      ∃ vs, v = .strictArray vs ∧ vs.length = Bytes.toNat c ∧
        Bytes.toNat c + r.length ≤ rest.length) ∧
    (∀ n b bs, bs.length ≤ b →
      (propertiesUpTo (value n) b).run bs = (properties (value n)).run bs ∧
      (propertiesUpTo (skipValue n) b).run bs = (properties (skipValue n)).run bs) ∧
    (∀ bs depth, Nesting.decode.run bs depth = ((value (maxNesting - depth)).run bs, depth)) ∧
    (∀ bs depth, Nesting.skip.run bs depth = ((skipValue (maxNesting - depth)).run bs, depth)) ∧
    (∀ (α : Type) (k : Nesting α) bs depth,
      (k.run bs (depth + 1)).2 = depth + 1 → ((nested k).run bs depth).2 = depth) := by
  refine ⟨fun n => value_takes n, fun n bs r => skipValue_takes n bs () r, fun bs o r h => ?_,
    fun _ _ _ h => nextKey_some_takes h, fun _ _ _ _ _ hn => value_ok_iff hn,
    fun _ _ _ _ _ h => skipValue_ok_iff h, fun _ _ _ _ _ hc h => strictArray_items_le hc h,
    fun n _ _ hb => ⟨propertiesUpTo_eq_properties ((value_takes n).mono (Nat.zero_le _)) hb,
      propertiesUpTo_eq_properties ((skipValue_takes n).mono (Nat.zero_le _)) hb⟩,
    fun bs depth => decode_readsAs depth bs, fun bs depth => skip_readsAs depth bs,
    fun _ k bs depth h => nested_count k bs depth h⟩
  obtain ⟨p, -, hp⟩ := nextKey_takes bs o r h
  exact ⟨p, hp⟩

/-- A strict array of a boolean and a null: its count of two fits in the three bytes after it,
and it is read alike with one level, the depth it nests to. An object met with every level but
one taken is refused one level down, and the count goes back. -/
theorem two_items_fit_their_bytes :
    (∃ vs, Value.strictArray [.boolean true, .null] = .strictArray vs ∧ vs.length = 2 ∧
      2 + 0 ≤ 3) ∧
    ((value 1).run [10, 0, 0, 0, 2, 1, 1, 5] = .ok (.strictArray [.boolean true, .null], []) ↔
      Amf.decode.run [10, 0, 0, 0, 2, 1, 1, 5] = .ok (.strictArray [.boolean true, .null], []) ∧
        (Value.strictArray [.boolean true, .null]).depth ≤ 1) ∧
    ((Nesting.decode.run [3, 0, 0, 9] 64).2 = 64 ∧
      ((nested Nesting.decode).run [3, 0, 0, 9] 63).2 = 63) :=
  ⟨reading_moves_forward_and_ends.2.2.2.2.2.2.1 maxNesting [0, 0, 0, 2] [1, 1, 5] _ [] rfl rfl,
    reading_moves_forward_and_ends.2.2.2.2.1 1 maxNesting _ _ _ (by decide),
    ⟨rfl, reading_moves_forward_and_ends.2.2.2.2.2.2.2.2.2.2 Value Nesting.decode [3, 0, 0, 9] 63 rfl⟩⟩

end FlvDemux.Amf
