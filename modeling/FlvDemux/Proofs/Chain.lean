import FlvDemux.Flv.Framing

/-!
# The chain of tags of an FLV file

After the file header the tags form a chain: the first header is at offset 13, and the tag at `o`
is followed by the tag at `o + 11 + dataSize + 4` (`tagAt`, `chainAt`). `Walks` says what it is
for the tag headers a demuxer parses, with its rewinds, to walk that chain.
-/

namespace FlvDemux.Flv

/-- The header of the tag at offset `o` of `f`, read from the eleven bytes there as a demuxer
reads it, with its data starting right after them; `none` when fewer than eleven bytes are left. -/
def tagAt (f : List UInt8) (o : Nat) : Option TagHeader :=
  if o + tagHeaderLength ≤ f.length then
    (readTagHeader ((f.drop o).take tagHeaderLength) (o + tagHeaderLength).toUInt64).toOption
  else none

/-- The offset of the tag after a tag at `o` with header `h`: past the header, the data and the
size field that follows. -/
def nextTagOffset (o : Nat) (h : TagHeader) : Nat :=
  o + tagHeaderLength + h.dataSize.toNat + previousTagSizeLength

/-- The offset of the `i`-th tag of `f`, as long as every tag before it has a header. -/
def chainAt (f : List UInt8) : Nat → Option Nat
  | 0 => some (fileHeaderLength + previousTagSizeLength)
  | i + 1 => (chainAt f i).bind fun o => (tagAt f o).map (nextTagOffset o)

/-- A tag of the chain of `f` starts at `o`. -/
def OnChain (f : List UInt8) (o : Nat) : Prop := ∃ i, chainAt f i = some o

theorem onChain_first (f : List UInt8) : OnChain f (fileHeaderLength + previousTagSizeLength) :=
  ⟨0, rfl⟩

theorem OnChain.next {f : List UInt8} {o : Nat} {h : TagHeader} (ho : OnChain f o)
    (hh : tagAt f o = some h) : OnChain f (nextTagOffset o h) := by
  obtain ⟨i, hi⟩ := ho
  exact ⟨i + 1, by simp [chainAt, hi, hh]⟩

section Headers

variable {f : List UInt8} {o : Nat} {h : TagHeader}

theorem readTagHeader_of_length {data : List UInt8} (hlen : data.length = tagHeaderLength)
    (po : UInt64) : ∃ h, readTagHeader data po = .ok h ∧ h.payloadOffset = po ∧
      h.dataSize = (Bytes.toNat ((data.drop 1).take 3)).toUInt32 ∧
      h.kind = TagKind.ofCode (data.headD 0 &&& 0x1F) h.dataSize := by
  match data, hlen with
  | [b0, b1, b2, b3, b4, b5, b6, b7, b8, b9, b10], _ => exact ⟨_, rfl, rfl, rfl, rfl⟩

theorem readTagHeader_nil (po : UInt64) : readTagHeader [] po = .ok (TagHeader.endOfFile po) := rfl

@[simp] theorem TagHeader.isEndOfFile_endOfFile (po : UInt64) :
    (TagHeader.endOfFile po).isEndOfFile = true := rfl

theorem tagAt_le (hh : tagAt f o = some h) : o + tagHeaderLength ≤ f.length := by
  unfold tagAt at hh
  split at hh
  · assumption
  · cases hh

theorem tagAt_read (hh : tagAt f o = some h) :
    readTagHeader ((f.drop o).take tagHeaderLength) (o + tagHeaderLength).toUInt64 = .ok h := by
  unfold tagAt at hh
  split at hh
  · revert hh
    cases readTagHeader ((f.drop o).take tagHeaderLength) (o + tagHeaderLength).toUInt64 <;>
      simp [Except.toOption]
  · cases hh

theorem tagAt_of_read (hle : o + tagHeaderLength ≤ f.length)
    (hr : readTagHeader ((f.drop o).take tagHeaderLength) (o + tagHeaderLength).toUInt64 = .ok h) :
    tagAt f o = some h := by
  unfold tagAt
  rw [if_pos hle, hr]
  rfl

theorem tagAt_payloadOffset (hh : tagAt f o = some h) :
    h.payloadOffset = (o + tagHeaderLength).toUInt64 := by
  have hlen : ((f.drop o).take tagHeaderLength).length = tagHeaderLength := by
    have := tagAt_le hh
    simp only [List.length_take, List.length_drop]
    omega
  obtain ⟨h', hr, hpo, -⟩ := readTagHeader_of_length hlen (o + tagHeaderLength).toUInt64
  rw [tagAt_read hh] at hr
  cases hr
  exact hpo

theorem tagAt_tagOffset (hh : tagAt f o = some h) (hf : f.length < Nat.pow 2 64) :
    h.tagOffset.toNat = o := by
  have hle := tagAt_le hh
  have hp : h.payloadOffset.toNat = o + tagHeaderLength := by
    rw [tagAt_payloadOffset hh, Nat.toUInt64_eq, UInt64.toNat_ofNat']
    exact Nat.mod_eq_of_lt (by simp only [Nat.pow_eq] at hf; omega)
  have h11 : (11 : UInt64).toNat = 11 := rfl
  unfold TagHeader.tagOffset
  rw [if_neg (by simp only [tagHeaderLength] at hp ⊢; omega), UInt64.toNat_sub_of_le _ _
    (by rw [UInt64.le_iff_toNat_le, h11, hp]; simp only [tagHeaderLength]; omega), h11, hp]
  rfl

theorem readTagHeader_ok_length {data : List UInt8} {po : UInt64}
    (hr : readTagHeader data po = .ok h) : data = [] ∨ data.length = tagHeaderLength := by
  cases data with
  | nil => exact .inl rfl
  | cons b bs =>
    by_cases hlen : (b :: bs).length = tagHeaderLength
    · exact .inr hlen
    · have hne : tagHeaderLength ≠ bs.length + 1 := fun e => hlen (by simp [e])
      simp [readTagHeader, expectLength, hne, bind, Except.bind] at hr

theorem dataSize_of_endOfFile (hk : h.kind = .endOfFile) {data : List UInt8} {po : UInt64}
    (hr : readTagHeader data po = .ok h) : h.dataSize = 0 := by
  rcases readTagHeader_ok_length hr with rfl | hlen
  · cases hr
    rfl
  · obtain ⟨h', hr', -, -, hkind⟩ := readTagHeader_of_length hlen po
    rw [hr] at hr'
    cases hr'
    rw [hkind] at hk
    unfold TagKind.ofCode at hk
    split at hk <;> first | cases hk | (split at hk; assumption; cases hk)

end Headers

section Pieces

variable {tag : TagHeader} {data : List UInt8}

theorem expectLength_ok {m n : Nat} {u : Unit} (h : expectLength m n = .ok u) : m = n := by
  unfold expectLength at h
  split at h
  · assumption
  · cases h

theorem readFileHeader_ok {fh : FileHeader} (h : readFileHeader data = .ok fh) :
    data.length = fileHeaderLength := by
  simp only [readFileHeader, bind, Except.bind] at h
  split at h
  · cases h
  · rename_i u hu
    exact (expectLength_ok hu).symm

theorem readPayload_ok {n : Nat} {x : List UInt8} (h : readPayload data n = .ok x) :
    data.length = n ∧ x = data := by
  simp only [readPayload, bind, Except.bind] at h
  split at h
  · cases h
  · rename_i u hu
    exact ⟨(expectLength_ok hu).symm, by cases h; rfl⟩

theorem readAudioHeader_ok {p : AudioPacket} (h : readAudioHeader tag data = .ok p) :
    data.length = 1 ∧ p.tag = tag ∧ p.subHeaderLength ≤ tag.dataSize.toNat := by
  simp only [readAudioHeader, bind, Except.bind] at h
  split at h
  · cases h
  · rename_i u hu
    simp only [AudioPacket.make] at h
    split at h
    · cases h
    · cases h
      exact ⟨(expectLength_ok hu).symm, rfl, by simp only [AudioPacket.subHeaderLength]; omega⟩

theorem readVideoHeader_ok {p : VideoPacket} (h : readVideoHeader tag data = .ok p) :
    data.length = 1 ∧ p.tag = tag ∧ p.subHeaderLength ≤ tag.dataSize.toNat := by
  simp only [readVideoHeader, bind, Except.bind] at h
  split at h
  · cases h
  · rename_i u hu
    simp only [VideoPacket.make] at h
    split at h
    · cases h
    · cases h
      exact ⟨(expectLength_ok hu).symm, rfl, by simp only [VideoPacket.subHeaderLength]; omega⟩

theorem readAacPacketType_ok {p p' : AudioPacket} (h : readAacPacketType p data = .ok p') :
    data.length = 1 ∧ ∃ t, p' = { p with aacPacketType := some t } := by
  simp only [readAacPacketType, bind, Except.bind] at h
  split at h
  · cases h
  · rename_i u hu
    split at h
    · cases h
      exact ⟨(expectLength_ok hu).symm, _, rfl⟩
    · cases h

theorem readAvcPacketHeader_ok {p p' : VideoPacket} (h : readAvcPacketHeader p data = .ok p') :
    data.length = AvcPacketHeader.length ∧ ∃ a, p' = { p with avc := some a } := by
  simp only [readAvcPacketHeader, bind, Except.bind] at h
  split at h
  · cases h
  · rename_i u hu
    split at h
    · cases h
      exact ⟨(expectLength_ok hu).symm, _, rfl⟩
    · cases h

end Pieces

/-- What a run of a demuxer shows of how it walks its file: each tag header it parses, with the
offset of the read it parsed it from, and each time it goes back to its first media tag. -/
inductive Sighting where
  | header (offset : Nat) (tag : TagHeader)
  | rewind (offset : Nat)

/-- The sightings walk the chain of `f` from `e`: each header is the header of `f` at the offset
the walk has reached, the walk then goes on to the tag after it, and a rewind starts it again at
a tag of the chain. -/
def Walks (f : List UInt8) : Nat → List Sighting → Prop
  | _, [] => True
  | e, .header o h :: rest => o = e ∧ tagAt f o = some h ∧ Walks f (nextTagOffset o h) rest
  | _, .rewind o :: rest => OnChain f o ∧ Walks f o rest

/-- The sightings `l` take a walk at `e` on to `e'`: every walk from `e'` continues one from `e`
through `l`. -/
def Advances (f : List UInt8) (e : Nat) (l : List Sighting) (e' : Nat) : Prop :=
  ∀ rest, Walks f e' rest → Walks f e (l ++ rest)

namespace Advances

variable {f : List UInt8} {e e₁ e₂ o : Nat} {l l' : List Sighting}

theorem nil (f : List UInt8) (e : Nat) : Advances f e [] e := fun _ hw => hw

theorem header {h : TagHeader} (he : o = e) (ht : tagAt f o = some h) :
    Advances f e [.header o h] (nextTagOffset o h) := fun _ hw => ⟨he, ht, hw⟩

theorem rewind (ho : OnChain f o) : Advances f e [.rewind o] o := fun _ hw => ⟨ho, hw⟩

theorem trans (h₁ : Advances f e l e₁) (h₂ : Advances f e₁ l' e₂) : Advances f e (l ++ l') e₂ :=
  fun rest hw => by
    rw [List.append_assoc]
    exact h₁ _ (h₂ _ hw)

end Advances

theorem Walks.onChain {f : List UInt8} {e : Nat} {l : List Sighting} (hw : Walks f e l)
    (he : OnChain f e) {o : Nat} {h : TagHeader} (hmem : Sighting.header o h ∈ l) :
    OnChain f o ∧ tagAt f o = some h := by
  induction l generalizing e with
  | nil => cases hmem
  | cons x rest ih =>
    cases x with
    | header o' h' =>
      obtain ⟨rfl, hh, hw⟩ := hw
      rcases List.mem_cons.1 hmem with hx | hx
      · cases hx
        exact ⟨he, hh⟩
      · exact ih hw (he.next hh) hx
    | rewind o' =>
      obtain ⟨ho, hw⟩ := hw
      exact ih hw ho (by simpa using hmem)

end FlvDemux.Flv
