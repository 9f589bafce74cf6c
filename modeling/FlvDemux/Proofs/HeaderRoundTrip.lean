import FlvDemux.Proofs.Words
import FlvDemux.Flv.FileHeader
import FlvDemux.Flv.Video

/-!
# The fixed-size headers read back

The tag header, the file header and the AVC packet header each read back what was written on a
canonical domain stated exactly (`parse_encode`), and write back what was read when their
reserved bits are clear (`encode_parse`). Both directions go through one equation per parser
(`parse_run`).
-/

namespace FlvDemux.Flv

namespace TagKind

@[simp] theorem code_ofCode (c : UInt8) (d : UInt32) : (ofCode c d).code = c := by
  unfold ofCode
  split <;> (try split) <;> simp only [code] <;> apply UInt8.toNat_inj.mp <;> simp_all

theorem ofCode_low_eq_iff (k : TagKind) (d : UInt32) :
    ofCode (k.code &&& 0x1F) d = k ↔ k.code.toNat < 32 ∧ k = ofCode k.code d := by
  have hlow : ∀ c : UInt8, c &&& 0x1F = c ↔ c.toNat < 32 := by decide +kernel
  constructor
  · intro h
    have hc := congrArg code h
    rw [code_ofCode] at hc
    rw [hc] at h
    exact ⟨(hlow _).1 hc, h.symm⟩
  · rintro ⟨hlt, hk⟩
    rw [(hlow _).2 hlt]
    exact hk.symm

end TagKind

namespace TagHeader

theorem parse_run (p : UInt64) (f hi : UInt8) {d l s : List UInt8} (hd : d.length = 3)
    (hl : l.length = 3) (hs : s.length = 3) (rest : List UInt8) :
    (parse p).run (f :: (d ++ (l ++ (hi :: (s ++ rest))))) =
      .ok ({ kind := TagKind.ofCode (f &&& 0x1F) (Bytes.toNat d).toUInt32,
             filter := f &&& 0x20 != 0, dataSize := (Bytes.toNat d).toUInt32,
             timestampHns := ((Bytes.toNat l + hi.toNat * 2 ^ 24) * 10000).toUInt64,
             streamId := (Bytes.toNat s).toUInt32, payloadOffset := p }, rest) := by
  rw [parse, Reader.run_bind_of_ok (Reader.byte_run_cons _ _),
    Reader.run_bind_of_ok (Reader.u24_run_append hd _),
    Reader.run_bind_of_ok (Reader.u24_run_append hl _),
    Reader.run_bind_of_ok (Reader.byte_run_cons _ _),
    Reader.run_bind_of_ok (Reader.u24_run_append hs _)]
  simp only [Reader.run_pure, Bytes.toUInt32_toNat_of_three l hl, hnsPerMs, Nat.pow_eq]

theorem encode_eq (h : TagHeader) : h.encode =
    ((h.kind.code &&& 0x1F) ||| (if h.filter then 0x20 else 0)) ::
      (Bytes.ofNat 3 h.dataSize.toNat ++ (Bytes.ofNat 3 h.timestampMs.toNat ++
        ((h.timestampMs.toNat / 2 ^ 24).toUInt8 :: (Bytes.ofNat 3 h.streamId.toNat ++ [])))) := by
  simp [encode]

theorem split_ms {ms : Nat} (h : ms < 2 ^ 32) :
    ms % 256 ^ 3 + (ms / 2 ^ 24).toUInt8.toNat * 2 ^ 24 = ms := by
  have hhi : (ms / 2 ^ 24).toUInt8.toNat = ms / 2 ^ 24 := by
    simp only [Nat.toUInt8_eq, UInt8.toNat_ofNat']
    omega
  rw [hhi]
  omega

theorem timestamp_eq_iff (t : UInt64) :
    (((t.toNat / 10000).toUInt32.toNat % 256 ^ 3 +
        ((t.toNat / 10000).toUInt32.toNat / 2 ^ 24).toUInt8.toNat * 2 ^ 24) * 10000).toUInt64 = t ↔
      ∃ m < 2 ^ 32, t.toNat = 10000 * m := by
  rw [split_ms (UInt32.toNat_lt _), ← UInt64.toNat_inj, Nat.toUInt32_eq, UInt32.toNat_ofNat']
  generalize t.toNat = n
  have hlt : n / 10000 % 2 ^ 32 * 10000 < 2 ^ 64 := by omega
  simp only [Nat.toUInt64_eq, UInt64.toNat_ofNat', Nat.mod_eq_of_lt hlt]
  constructor
  · intro h
    exact ⟨n / 10000 % 2 ^ 32, by omega, by omega⟩
  · rintro ⟨m, hm, rfl⟩
    omega

/-- A tag header reads back from its bytes exactly when its size and stream id fit in 24 bits,
its time is a whole number of milliseconds below `2 ^ 32`, and its type is the one its code gives
back from five bits and its size. -/
theorem parse_encode (h : TagHeader) :
    (parse h.payloadOffset).run h.encode = .ok (h, []) ↔
      h.dataSize.toNat < 2 ^ 24 ∧ h.streamId.toNat < 2 ^ 24 ∧
      (∃ m < 2 ^ 32, h.timestampHns.toNat = 10000 * m) ∧
      h.kind.code.toNat < 32 ∧ h.kind = TagKind.ofCode h.kind.code h.dataSize := by
  have hlow : ∀ (c : UInt8) (b : Bool),
      ((c &&& 0x1F) ||| (if b then 0x20 else 0)) &&& 0x1F = c &&& 0x1F := by
    decide +kernel
  have hfil : ∀ (c : UInt8) (b : Bool),
      (((c &&& 0x1F) ||| (if b then 0x20 else 0)) &&& 0x20 != 0) = b := by
    decide +kernel
  rw [encode_eq, parse_run _ _ _ (Bytes.length_ofNat _ _) (Bytes.length_ofNat _ _)
    (Bytes.length_ofNat _ _)]
  obtain ⟨k, fl, ds, ts, sid, p⟩ := h
  simp only [Except.ok.injEq, Prod.mk.injEq, and_true, TagHeader.mk.injEq, hlow, hfil,
    timestampMs, hnsPerMs, true_and, Bytes.toNat_ofNat, Nat.pow_eq, timestamp_eq_iff]
  by_cases hd : ds.toNat < 2 ^ 24
  · rw [(Bytes.low24_eq_iff ds).2 hd, TagKind.ofCode_low_eq_iff, Bytes.low24_eq_iff]
    constructor
    · rintro ⟨⟨hc, hk⟩, -, ht, hs⟩
      exact ⟨hd, hs, ht, hc, hk⟩
    · rintro ⟨-, hs, ht, hc, hk⟩
      exact ⟨⟨hc, hk⟩, rfl, ht, hs⟩
  · have hne : (ds.toNat % 256 ^ 3).toUInt32 ≠ ds := fun he => hd ((Bytes.low24_eq_iff ds).1 he)
    constructor
    · rintro ⟨-, he, -⟩
      exact absurd he hne
    · rintro ⟨hd', -⟩
      exact absurd hd' hd

theorem encode_parse (b : List UInt8) (hb : b.length = 11) (h40 : b[0] &&& 0x40 = 0)
    (h80 : b[0] &&& 0x80 = 0) (p : UInt64) :
    ∃ h, (parse p).run b = .ok (h, []) ∧
      h.timestampHns.toNat = (Bytes.toNat ((b.drop 4).take 3) + b[7].toNat * 2 ^ 24) * 10000 ∧
      h.encode = b := by
  have hflags : ∀ f : UInt8, f &&& 0x40 = 0 → f &&& 0x80 = 0 →
      (f &&& 0x1F &&& 0x1F ||| if (f &&& 0x20 != 0) = true then 0x20 else 0) = f := by
    decide +kernel
  rcases b with _ | ⟨f, _ | ⟨d0, _ | ⟨d1, _ | ⟨d2, _ | ⟨l0, _ | ⟨l1, _ | ⟨l2, _ | ⟨hi,
    _ | ⟨s0, _ | ⟨s1, _ | ⟨s2, _ | ⟨x, t⟩⟩⟩⟩⟩⟩⟩⟩⟩⟩⟩⟩ <;> simp only [List.length_cons,
      List.length_nil] at hb <;> try omega
  have hsplit : [f, d0, d1, d2, l0, l1, l2, hi, s0, s1, s2] =
      f :: ([d0, d1, d2] ++ ([l0, l1, l2] ++ (hi :: ([s0, s1, s2] ++ [])))) := rfl
  have hlo := Bytes.toNat_lt_of_length [l0, l1, l2] (n := 3) rfl
  have hhi := hi.toNat_lt
  -- the time in milliseconds fits in 32 bits, so it survives the scaling to 100 ns
  have hX : (Bytes.toNat [l0, l1, l2] + hi.toNat * 2 ^ 24) * 10000 < 2 ^ 64 := by omega
  have hts : ((Bytes.toNat [l0, l1, l2] + hi.toNat * 2 ^ 24) * 10000).toUInt64.toNat =
      (Bytes.toNat [l0, l1, l2] + hi.toNat * 2 ^ 24) * 10000 := by
    simp only [Nat.toUInt64_eq, UInt64.toNat_ofNat', Nat.mod_eq_of_lt hX]
  have hms : (((Bytes.toNat [l0, l1, l2] + hi.toNat * 2 ^ 24) * 10000).toUInt64.toNat / 10000).toUInt32.toNat =
      Bytes.toNat [l0, l1, l2] + hi.toNat * 2 ^ 24 := by
    rw [hts, Nat.mul_div_cancel _ (by decide)]
    simp only [Nat.toUInt32_eq, UInt32.toNat_ofNat']
    omega
  refine ⟨_, by rw [hsplit, parse_run _ _ _ rfl rfl rfl], hts, ?_⟩
  rw [encode_eq, hsplit]
  simp only [timestampMs, hnsPerMs, hms, Bytes.toUInt32_toNat_of_three [d0, d1, d2] rfl,
    Bytes.toUInt32_toNat_of_three [s0, s1, s2] rfl, TagKind.code_ofCode, hflags f h40 h80]
  have hlow : Bytes.ofNat 3 (Bytes.toNat [l0, l1, l2] + hi.toNat * 2 ^ 24) = [l0, l1, l2] := by
    rw [← Bytes.ofNat_mod, show (Bytes.toNat [l0, l1, l2] + hi.toNat * 2 ^ 24) % 256 ^ 3 =
      Bytes.toNat [l0, l1, l2] by omega, Bytes.ofNat_toNat_of_length (n := 3) rfl]
  have htop : ((Bytes.toNat [l0, l1, l2] + hi.toNat * 2 ^ 24) / 2 ^ 24).toUInt8 = hi := by
    rw [show (Bytes.toNat [l0, l1, l2] + hi.toNat * 2 ^ 24) / 2 ^ 24 = hi.toNat by omega]
    simp
  rw [hlow, htop, Bytes.ofNat_toNat_of_length (n := 3) rfl, Bytes.ofNat_toNat_of_length (n := 3) rfl]

end TagHeader

namespace FileHeader

theorem parse_run (s : List UInt8) (v fl : UInt8) {o : List UInt8} (hs : s.length = 3)
    (ho : o.length = 4) (rest : List UInt8) :
    parse.run (s ++ (v :: (fl :: (o ++ rest)))) =
      if Bytes.toNat o = 9 then
        .ok ({ signature := (Bytes.toNat s).toUInt32, version := v, hasAudio := fl &&& 0x04 != 0,
               hasVideo := fl &&& 0x01 != 0, dataOffset := (Bytes.toNat o).toUInt32 }, rest)
      else .error (.invalidHeader (Bytes.toNat o).toUInt32) := by
  have h32 : (Bytes.toNat o).toUInt32.toNat = Bytes.toNat o := by
    have hlt := Bytes.toNat_lt_of_length o ho
    simp only [Nat.toUInt32_eq, UInt32.toNat_ofNat']
    omega
  rw [parse, Reader.run_bind_of_ok (Reader.mapError_run_ok _ (Reader.u24_run_append hs _)),
    Reader.run_bind_of_ok (Reader.mapError_run_ok _ (Reader.byte_run_cons _ _)),
    Reader.run_bind_of_ok (Reader.mapError_run_ok _ (Reader.byte_run_cons _ _)),
    Reader.run_bind_of_ok (Reader.mapError_run_ok _ (Reader.u32_run_append ho _))]
  simp only [h32, fileHeaderLength, audioFlag, videoFlag]
  by_cases h9 : Bytes.toNat o = 9
  · rw [if_neg (not_not.2 h9), if_pos h9]
    rfl
  · rw [if_pos h9, if_neg h9]
    rfl

theorem flags_and (a v : Bool) :
    ((((if a then 0x04 else 0) ||| (if v then 0x01 else 0) : UInt8) &&& 0x04 != 0) = a) ∧
      ((((if a then 0x04 else 0) ||| (if v then 0x01 else 0) : UInt8) &&& 0x01 != 0) = v) := by
  cases a <;> cases v <;> decide

theorem parse_encode (h : FileHeader) :
    parse.run h.encode = .ok (h, []) ↔ h.signature.toNat < 2 ^ 24 ∧ h.dataOffset = 9 := by
  have he : h.encode = Bytes.ofNat 3 h.signature.toNat ++
      (h.version :: (h.flags :: (Bytes.ofNat 4 h.dataOffset.toNat ++ []))) := by
    simp [encode]
  rw [he, parse_run _ _ _ (Bytes.length_ofNat _ _) (Bytes.length_ofNat _ _)]
  obtain ⟨sig, ver, a, v, off⟩ := h
  have hoff : Bytes.toNat (Bytes.ofNat 4 off.toNat) = off.toNat := by
    rw [Bytes.toNat_ofNat, Nat.mod_eq_of_lt (by simpa using off.toNat_lt)]
  have hback : off.toNat.toUInt32 = off := UInt32.toNat_inj.mp (by simp)
  simp only [hoff, hback, flags, audioFlag, videoFlag, flags_and, Bytes.toNat_ofNat, Nat.pow_eq]
  by_cases h9 : off.toNat = 9
  · have ho : off = 9 := UInt32.toNat_inj.mp h9
    rw [if_pos h9]
    simp only [Except.ok.injEq, Prod.mk.injEq, and_true, FileHeader.mk.injEq,
      Bytes.low24_eq_iff, ho]
  · have ho : off ≠ 9 := fun he => h9 (by rw [he]; rfl)
    rw [if_neg h9]
    simp [ho]

theorem encode_parse (b : List UInt8) (hb : b.length = 9) (ho : Bytes.toNat (b.drop 5) = 9)
    (hf : b[4] &&& 0xFA = 0) : ∃ h, parse.run b = .ok (h, []) ∧ h.encode = b := by
  have hflags : ∀ f : UInt8, f &&& 0xFA = 0 →
      ((if (f &&& 0x04 != 0) = true then 0x04 else 0) |||
        (if (f &&& 0x01 != 0) = true then 0x01 else 0)) = f := by
    decide +kernel
  rcases b with _ | ⟨s0, _ | ⟨s1, _ | ⟨s2, _ | ⟨v, _ | ⟨fl, _ | ⟨o0, _ | ⟨o1, _ | ⟨o2,
    _ | ⟨o3, _ | ⟨x, t⟩⟩⟩⟩⟩⟩⟩⟩⟩⟩ <;> simp only [List.length_cons, List.length_nil] at hb <;> try omega
  have hsplit : [s0, s1, s2, v, fl, o0, o1, o2, o3] =
      [s0, s1, s2] ++ (v :: (fl :: ([o0, o1, o2, o3] ++ []))) := rfl
  have h9 : Bytes.toNat [o0, o1, o2, o3] = 9 := ho
  rw [hsplit, parse_run _ _ _ rfl rfl, if_pos h9]
  refine ⟨_, rfl, ?_⟩
  have hoff : (Bytes.toNat [o0, o1, o2, o3]).toUInt32.toNat = Bytes.toNat [o0, o1, o2, o3] := by
    rw [h9]
    rfl
  simp only [encode, FileHeader.flags, audioFlag, videoFlag, hoff, hflags fl hf,
    Bytes.toUInt32_toNat_of_three [s0, s1, s2] rfl]
  rw [Bytes.ofNat_toNat_of_length (n := 3) rfl, Bytes.ofNat_toNat_of_length (n := 4) rfl]
  rfl

theorem parse_invalidHeader (b : List UInt8) (hb : b.length = 9) (ho : Bytes.toNat (b.drop 5) ≠ 9) :
    parse.run b = .error (.invalidHeader (Bytes.toNat (b.drop 5)).toUInt32) := by
  rcases b with _ | ⟨s0, _ | ⟨s1, _ | ⟨s2, _ | ⟨v, _ | ⟨fl, _ | ⟨o0, _ | ⟨o1, _ | ⟨o2,
    _ | ⟨o3, _ | ⟨x, t⟩⟩⟩⟩⟩⟩⟩⟩⟩⟩ <;> simp only [List.length_cons, List.length_nil] at hb <;> try omega
  have hsplit : [s0, s1, s2, v, fl, o0, o1, o2, o3] =
      [s0, s1, s2] ++ (v :: (fl :: ([o0, o1, o2, o3] ++ []))) := rfl
  have h9 : Bytes.toNat [o0, o1, o2, o3] ≠ 9 := ho
  rw [hsplit, parse_run _ _ _ rfl rfl, if_neg h9]
  rfl

end FileHeader

namespace AvcPacketType

@[simp] theorem ofByte_code (t : AvcPacketType) : ofByte t.code = .ok t := by
  cases t <;> rfl

theorem code_of_ofByte {b : UInt8} {t : AvcPacketType} (h : ofByte b = .ok t) : t.code = b := by
  unfold ofByte at h
  split at h <;> simp only [Except.ok.injEq, reduceCtorEq] at h <;> subst h <;>
    apply UInt8.toNat_inj.mp <;> simp_all [code]

theorem ofByte_ok {b : UInt8} (h : b ≤ 2) : ∃ t, ofByte b = .ok t := by
  have hb : b.toNat = 0 ∨ b.toNat = 1 ∨ b.toNat = 2 := by
    have := UInt8.le_iff_toNat_le.mp h
    simp only [UInt8.reduceToNat] at this
    omega
  rcases hb with hb | hb | hb
  · exact ⟨.sequenceHeader, by simp only [ofByte, hb]⟩
  · exact ⟨.nalu, by simp only [ofByte, hb]⟩
  · exact ⟨.endOfSequence, by simp only [ofByte, hb]⟩

end AvcPacketType

namespace AvcPacketHeader

theorem parse_run (c : UInt8) {t : List UInt8} (ht : t.length = 3) (rest : List UInt8) :
    parse.run (c :: (t ++ rest)) = (AvcPacketType.ofByte c).map fun ty =>
      ({ packetType := ty, compositionTimeMs := Int32.ofInt (if Bytes.toNat t < 2 ^ 23 then
        (Bytes.toNat t : Int) else (Bytes.toNat t : Int) - 2 ^ 24) }, rest) := by
  rw [parse, Reader.run_bind_of_ok (Reader.byte_run_cons _ _)]
  cases hty : AvcPacketType.ofByte c with
  | error e =>
    rw [Reader.run_bind_of_error (r := Reader.ofExcept (.error e)) rfl]
    rfl
  | ok ty =>
    rw [Reader.run_bind_of_ok (r := Reader.ofExcept (.ok ty)) rfl,
      Reader.run_bind_of_ok (Reader.i24_run_append ht _)]
    rfl

theorem parse_encode (h : AvcPacketHeader) :
    parse.run h.encode = .ok (h, []) ↔
      -2 ^ 23 ≤ h.compositionTimeMs.toInt ∧ h.compositionTimeMs.toInt < 2 ^ 23 := by
  obtain ⟨ty, x⟩ := h
  have he : encode ⟨ty, x⟩ = ty.code :: (Bytes.ofNat 3 x.toUInt32.toNat ++ []) := by
    simp [encode]
  rw [he, parse_run _ (Bytes.length_ofNat _ _), AvcPacketType.ofByte_code]
  have hx1 := Int32.le_toInt x
  have hx2 := Int32.toInt_lt x
  -- the three bytes written hold the time modulo `2 ^ 24`
  have hv : ((Bytes.toNat (Bytes.ofNat 3 x.toUInt32.toNat) : Nat) : Int) = x.toInt % 2 ^ 24 := by
    have hnn : ((x.toInt % 2 ^ 32).toNat : Int) = x.toInt % 2 ^ 32 := Int.toNat_of_nonneg (by omega)
    rw [Bytes.toNat_ofNat, int32_toUInt32_toNat, Nat.pow_eq]
    push_cast
    omega
  simp only [Except.map, Except.ok.injEq, Prod.mk.injEq, and_true, AvcPacketHeader.mk.injEq,
    true_and]
  constructor
  · intro hx
    have ht := congrArg Int32.toInt hx
    rw [int32_toInt_ofInt (by split <;> omega) (by split <;> omega)] at ht
    split at ht <;> omega
  · rintro ⟨h1, h2⟩
    conv_rhs => rw [← Int32.ofInt_toInt x]
    congr 1
    split <;> omega

theorem encode_parse (b : List UInt8) (hb : b.length = 4) (h0 : b[0] ≤ 2) :
    ∃ h, parse.run b = .ok (h, []) ∧ h.encode = b := by
  rcases b with _ | ⟨c, _ | ⟨t0, _ | ⟨t1, _ | ⟨t2, _ | ⟨x, t⟩⟩⟩⟩⟩ <;>
    simp only [List.length_cons, List.length_nil] at hb <;> try omega
  obtain ⟨ty, hty⟩ := AvcPacketType.ofByte_ok (b := c) h0
  have hsplit : [c, t0, t1, t2] = c :: ([t0, t1, t2] ++ []) := rfl
  rw [hsplit, parse_run _ rfl, hty]
  refine ⟨_, rfl, ?_⟩
  have hlt := Bytes.toNat_lt_of_length [t0, t1, t2] (n := 3) rfl
  set v := Bytes.toNat [t0, t1, t2]
  set y : Int := if v < 2 ^ 23 then (v : Int) else (v : Int) - 2 ^ 24 with hy
  have hy1 : -2 ^ 31 ≤ y := by rw [hy]; split <;> omega
  have hy2 : y < 2 ^ 31 := by rw [hy]; split <;> omega
  -- the time's 32-bit word agrees with the numeral read in its low 24 bits
  have hw : (Int32.ofInt y).toUInt32.toNat % 256 ^ 3 = v := by
    have hnn : ((y % 2 ^ 32).toNat : Int) = y % 2 ^ 32 := Int.toNat_of_nonneg (by omega)
    rw [int32_toUInt32_toNat, int32_toInt_ofInt hy1 hy2]
    have hcast : (((y % 2 ^ 32).toNat % 256 ^ 3 : Nat) : Int) = (v : Int) := by
      push_cast
      rw [hy]
      split <;> omega
    exact_mod_cast hcast
  simp only [encode, AvcPacketType.code_of_ofByte hty]
  rw [← Bytes.ofNat_mod, hw, Bytes.ofNat_toNat_of_length (n := 3) rfl]
  rfl

end AvcPacketHeader

/-- The fixed-size headers of an FLV file round-trip on their canonical domains. -/
theorem fixed_headers_round_trip :
    (∀ (b : List UInt8) (hb : b.length = 11), b[0] &&& 0x40 = 0 → b[0] &&& 0x80 = 0 →
      ∀ p : UInt64, ∃ h, (TagHeader.parse p).run b = .ok (h, []) ∧
        h.timestampHns.toNat = (Bytes.toNat ((b.drop 4).take 3) + b[7].toNat * 2 ^ 24) * 10000 ∧
        h.encode = b) ∧
    (∀ h : TagHeader, (TagHeader.parse h.payloadOffset).run h.encode = .ok (h, []) ↔
      h.dataSize.toNat < 2 ^ 24 ∧ h.streamId.toNat < 2 ^ 24 ∧
      (∃ m < 2 ^ 32, h.timestampHns.toNat = 10000 * m) ∧
      h.kind.code.toNat < 32 ∧ h.kind = TagKind.ofCode h.kind.code h.dataSize) ∧
    (∀ h : FileHeader, FileHeader.parse.run h.encode = .ok (h, []) ↔
      h.signature.toNat < 2 ^ 24 ∧ h.dataOffset = 9) ∧
    (∀ (b : List UInt8) (hb : b.length = 9), Bytes.toNat (b.drop 5) = 9 → b[4] &&& 0xFA = 0 →
      ∃ h, FileHeader.parse.run b = .ok (h, []) ∧ h.encode = b) ∧
    (∀ b : List UInt8, b.length = 9 → Bytes.toNat (b.drop 5) ≠ 9 →
      FileHeader.parse.run b = .error (.invalidHeader (Bytes.toNat (b.drop 5)).toUInt32)) ∧
    (∀ h : AvcPacketHeader, AvcPacketHeader.parse.run h.encode = .ok (h, []) ↔
      -2 ^ 23 ≤ h.compositionTimeMs.toInt ∧ h.compositionTimeMs.toInt < 2 ^ 23) ∧
    (∀ (b : List UInt8) (hb : b.length = 4), b[0] ≤ 2 →
      ∃ h, AvcPacketHeader.parse.run b = .ok (h, []) ∧ h.encode = b) :=
  ⟨TagHeader.encode_parse, TagHeader.parse_encode, FileHeader.parse_encode,
    fun b hb ho hf => FileHeader.encode_parse b hb ho hf, FileHeader.parse_invalidHeader,
    AvcPacketHeader.parse_encode, AvcPacketHeader.encode_parse⟩

/-- The video tag header of a 42-byte tag at one second, read and written back. -/
theorem video_tag_header_round_trip :
    ∃ h, (TagHeader.parse 24).run [0x09, 0x00, 0x00, 0x2a, 0x00, 0x03, 0xe8, 0x00, 0x00, 0x00, 0x00] =
        .ok (h, []) ∧ h.timestampHns.toNat = 10000000 ∧
      h.encode = [0x09, 0x00, 0x00, 0x2a, 0x00, 0x03, 0xe8, 0x00, 0x00, 0x00, 0x00] := by
  obtain ⟨h, hp, ht, he⟩ := fixed_headers_round_trip.1
    [0x09, 0x00, 0x00, 0x2a, 0x00, 0x03, 0xe8, 0x00, 0x00, 0x00, 0x00] rfl (by decide) (by decide) 24
  exact ⟨h, hp, by rw [ht]; rfl, he⟩

end FlvDemux.Flv
