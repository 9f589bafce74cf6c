import FlvDemux.Proofs.NalFraming

/-!
# The AVC decoder configuration record, written and read back

Reading and writing are each inverted once, field by field (`parse_run_eq_ok_iff`,
`build_eq_ok_iff`): a written record reads back, what was read writes back exactly when its
reserved bits were set, and a read fails only on a proper beginning of a record. The main
statement is `record_build_parse_inverse`.
-/

namespace FlvDemux

/-- A read whose every failure is an input cut off too soon. -/
def FailsAtEof {α : Type} (r : Reader Fault α) : Prop :=
  ∀ bs e, r.run bs = .error e → e.kind = .unexpectedEof

namespace FailsAtEof

variable {α β : Type}

theorem bind {r : Reader Fault α} {f : α → Reader Fault β} (hr : FailsAtEof r)
    (hf : ∀ a, FailsAtEof (f a)) : FailsAtEof (r >>= f) := by
  intro bs e h
  rcases hrun : r.run bs with e' | ⟨a, bs'⟩
  · rw [Reader.run_bind_of_error hrun] at h
    cases h
    exact hr bs _ hrun
  · rw [Reader.run_bind_of_ok hrun] at h
    exact hf a bs' e h

theorem pure (a : α) : FailsAtEof (Pure.pure a : Reader Fault α) := by
  intro bs e h
  cases h

theorem byte : FailsAtEof Reader.byte := by
  intro bs e h
  cases bs with
  | nil =>
    cases h
    rfl
  | cons b bs => cases h

theorem u16 : FailsAtEof Reader.u16 := by
  intro bs e h
  rw [Reader.u16, Reader.run_bind_pure, Reader.word_run] at h
  split at h
  · cases h
  · cases h
    rfl

theorem counted (n : Nat) : FailsAtEof (Reader.counted n) := by
  intro bs e h
  rw [Reader.counted_run] at h
  split at h
  · cases h
  · cases h
    rfl

end FailsAtEof

namespace Avc.Config

theorem parameterSets_run_eq_ok_iff (n : Nat) {b rest : List UInt8} {sets : List (List UInt8)} :
    (parameterSets n).run b = .ok (sets, rest) ↔
      sets.length = n ∧ (∀ s ∈ sets, s.length ≤ 65535) ∧ b = frame 2 sets ++ rest := by
  induction n generalizing b rest sets with
  | zero =>
    rw [parameterSets, Reader.run_pure_eq_ok_iff]
    constructor
    · rintro ⟨rfl, rfl⟩
      simp
    · rintro ⟨h, -, rfl⟩
      rw [List.eq_nil_of_length_eq_zero h]
      simp
  | succ n ih =>
    rw [parameterSets]
    simp only [Reader.run_bind_eq_ok_iff, Reader.u16_run_eq_ok_iff, Reader.counted_run_eq_ok_iff, ih,
      Reader.run_pure_eq_ok_iff]
    constructor
    · rintro ⟨len, b1, rfl, s, b2, ⟨hs, rfl⟩, sets', rest', ⟨hl, hsmall, rfl⟩, rfl, rfl⟩
      refine ⟨by simp [hl], ?_, by simp [hs]⟩
      intro u hu
      rcases List.mem_cons.1 hu with rfl | hu
      · rw [hs]
        exact Nat.le_of_lt_succ len.toNat_lt
      · exact hsmall u hu
    · rintro ⟨hl, hsmall, rfl⟩
      cases sets with
      | nil => simp at hl
      | cons s sets =>
        have hs : s.length.toUInt16.toNat = s.length := by
          have := hsmall s List.mem_cons_self
          simp only [Nat.toUInt16_eq, UInt16.toNat_ofNat']
          omega
        refine ⟨s.length.toUInt16, s ++ (frame 2 sets ++ rest), by simp [hs], s,
          frame 2 sets ++ rest, ⟨hs.symm, rfl⟩, sets, rest,
          ⟨by simpa using hl, fun u hu => hsmall u (List.mem_cons_of_mem _ hu), rfl⟩, rfl, rfl⟩

theorem failsAtEof_parameterSets (n : Nat) : FailsAtEof (parameterSets n) := by
  induction n with
  | zero => exact FailsAtEof.pure _
  | succ n ih =>
    exact FailsAtEof.u16.bind fun _ => (FailsAtEof.counted _).bind fun _ =>
      ih.bind fun _ => FailsAtEof.pure _

theorem parameterSets_ok_of_length (n : Nat) {b : List UInt8} (h : n * 65537 ≤ b.length) :
    ∃ sets rest, (parameterSets n).run b = .ok (sets, rest) ∧ b.length ≤ rest.length + n * 65537 := by
  induction n generalizing b with
  | zero => exact ⟨[], b, rfl, by simp⟩
  | succ n ih =>
    obtain ⟨w, b1, hw, rfl⟩ : ∃ w b1, w.length = 2 ∧ b = w ++ b1 :=
      ⟨b.take 2, b.drop 2, List.length_take_of_le (by omega), (List.take_append_drop 2 b).symm⟩
    simp only [List.length_append, hw] at h
    -- the length field asks for at most 65535 bytes, and there is room for them
    have hm : (Bytes.toNat w).toUInt16.toNat < 65536 := UInt16.toNat_lt _
    generalize hlen : (Bytes.toNat w).toUInt16.toNat = m at hm
    -- (omega gives up on the coefficient 65537; these bounds are linear)
    have hfit : m ≤ b1.length := by linarith
    obtain ⟨sets, rest, hrun, hrest⟩ := ih (b := b1.drop m)
      (by rw [List.length_drop]; exact Nat.le_sub_of_add_le (by linarith))
    refine ⟨b1.take m :: sets, rest, ?_, ?_⟩
    · rw [parameterSets, Reader.run_bind_of_ok (Reader.u16_run_append hw b1), hlen,
        Reader.run_bind_of_ok (by rw [Reader.counted_run, if_pos hfit]), Reader.run_bind_of_ok hrun]
      rfl
    · rw [List.length_drop, Nat.sub_le_iff_le_add] at hrest
      rw [List.length_append, hw]
      linarith

/-- The bytes of a record whose fifth and sixth bytes are `x4` and `x5`. Writing sets their
reserved bits; reading ignores them. -/
def layout (c : Config) (x4 x5 : UInt8) : List UInt8 :=
  [c.version, c.profile, c.compatibility, c.level, x4, x5] ++ frame 2 c.sps ++
    c.pps.length.toUInt8 :: frame 2 c.pps

theorem length_layout (c : Config) (x4 x5 : UInt8) : (layout c x4 x5).length = size c := by
  simp only [layout, size, List.length_append, List.length_cons, List.length_nil, length_frame,
    ← List.sum_eq_foldl]
  omega

/-- A read succeeds exactly on a layout of the record it returns, followed by what it leaves:
the fifth byte gives the length size, the sixth the number of sequence parameter sets, and every
set fits its 16-bit length. -/
theorem parse_run_eq_ok_iff {b rest : List UInt8} {c : Config} :
    parse.run b = .ok (c, rest) ↔ ∃ x4 x5 : UInt8, (x4 &&& 0x03) + 1 = c.nalLengthSize ∧
      (x5 &&& 0x1F).toNat = c.sps.length ∧ c.pps.length < 256 ∧
      (∀ s ∈ c.sps ++ c.pps, s.length ≤ 65535) ∧ b = layout c x4 x5 ++ rest := by
  simp only [parse, Reader.run_bind_eq_ok_iff, Reader.byte_run_eq_ok_iff,
    parameterSets_run_eq_ok_iff, Reader.run_pure_eq_ok_iff]
  constructor
  · rintro ⟨v, _, rfl, p, _, rfl, cp, _, rfl, l, _, rfl, x4, _, rfl, x5, _, rfl, sps, _,
      ⟨h5, hsps, rfl⟩, x6, _, rfl, pps, _, ⟨h6, hpps, rfl⟩, rfl, rfl⟩
    have hx6 : pps.length.toUInt8 = x6 := by
      rw [h6]
      simp
    refine ⟨x4, x5, rfl, h5.symm, h6 ▸ x6.toNat_lt, ?_, by simp [layout, hx6]⟩
    intro s hs
    rcases List.mem_append.1 hs with hs | hs
    · exact hsps s hs
    · exact hpps s hs
  · rintro ⟨x4, x5, h4, h5, h6, hsmall, rfl⟩
    obtain ⟨v, p, cp, l, n, sps, pps⟩ := c
    dsimp only at h4 h5 h6 hsmall
    have hx6 : pps.length.toUInt8.toNat = pps.length := by
      simp only [Nat.toUInt8_eq, UInt8.toNat_ofNat']
      omega
    simp only [layout, List.cons_append, List.append_assoc]
    exact ⟨v, _, rfl, p, _, rfl, cp, _, rfl, l, _, rfl, x4, _, rfl, x5, _, rfl, sps, _,
      ⟨h5.symm, fun s hs => hsmall s (List.mem_append_left _ hs), rfl⟩, _, _, rfl, pps, _,
      ⟨hx6.symm, fun s hs => hsmall s (List.mem_append_right _ hs), rfl⟩, by rw [h4], rfl⟩

theorem failsAtEof_parse : FailsAtEof parse := by
  unfold parse
  exact FailsAtEof.byte.bind fun _ => FailsAtEof.byte.bind fun _ => FailsAtEof.byte.bind fun _ =>
    FailsAtEof.byte.bind fun _ => FailsAtEof.byte.bind fun _ => FailsAtEof.byte.bind fun _ =>
    (failsAtEof_parameterSets _).bind fun _ => FailsAtEof.byte.bind fun _ =>
    (failsAtEof_parameterSets _).bind fun _ => FailsAtEof.pure _

/-- A read succeeds on any input as long as the longest record: the six leading bytes, the
picture set count, and 31 sequence and 255 picture parameter sets of 65535 bytes each, all behind
their lengths. -/
theorem parse_ok_of_length {b : List UInt8} (h : 7 + 286 * 65537 ≤ b.length) :
    ∃ c rest, parse.run b = .ok (c, rest) := by
  rcases b with _ | ⟨v, _ | ⟨p, _ | ⟨cp, _ | ⟨l, _ | ⟨x4, _ | ⟨x5, t⟩⟩⟩⟩⟩⟩ <;>
    simp only [List.length_cons, List.length_nil] at h <;> try omega
  have hcount : (x5 &&& 0x1F).toNat ≤ 31 := by
    revert x5
    decide +kernel
  obtain ⟨sps, t1, hsps, ht1⟩ := parameterSets_ok_of_length (x5 &&& 0x1F).toNat (b := t)
    (by omega)
  rcases t1 with _ | ⟨x6, t2⟩
  · simp only [List.length_nil] at ht1
    omega
  obtain ⟨pps, rest, hpps, -⟩ := parameterSets_ok_of_length x6.toNat (b := t2)
    (by have := x6.toNat_lt; simp only [List.length_cons] at ht1; omega)
  rw [parse]
  simp only [Reader.run_bind_of_ok (Reader.byte_run_cons _ _), Reader.run_bind_of_ok hsps,
    Reader.run_bind_of_ok hpps]
  exact ⟨_, rest, rfl⟩

theorem parse_append {b rest : List UInt8} {c : Config} (h : parse.run b = .ok (c, rest))
    (t : List UInt8) : parse.run (b ++ t) = .ok (c, rest ++ t) := by
  obtain ⟨x4, x5, h4, h5, h6, hsmall, rfl⟩ := parse_run_eq_ok_iff.1 h
  exact parse_run_eq_ok_iff.2 ⟨x4, x5, h4, h5, h6, hsmall, by simp⟩

theorem writeSets_eq (sets : List (List UInt8)) : writeSets sets =
    if ∀ s ∈ sets, s.length ≤ 65535 then .ok (frame 2 sets) else .error .parameterSetTooLarge := by
  induction sets with
  | nil => simp [writeSets]
  | cons s sets ih =>
    rw [writeSets, ih]
    by_cases hs : s.length ≤ 65535
    · rw [if_neg (by omega)]
      by_cases hall : ∀ u ∈ sets, u.length ≤ 65535
      · have hcons : ∀ u ∈ s :: sets, u.length ≤ 65535 := List.forall_mem_cons.2 ⟨hs, hall⟩
        rw [if_pos hall, if_pos hcons]
        simp
      · have hcons : ¬∀ u ∈ s :: sets, u.length ≤ 65535 := by simp [hall]
        rw [if_neg hall, if_neg hcons]
        rfl
    · have hcons : ¬∀ u ∈ s :: sets, u.length ≤ 65535 := by simp [hs]
      rw [if_pos (by omega), if_neg hcons]
      rfl

/-- Writing succeeds exactly when the length size is 1 to 4, there are at most 31 sequence and
255 picture parameter sets and every set fits its 16-bit length; it writes the layout with the
reserved bits set. -/
theorem build_eq_ok_iff {c : Config} {bs : List UInt8} : build c = .ok bs ↔
    (1 ≤ c.nalLengthSize ∧ c.nalLengthSize ≤ 4 ∧ c.sps.length ≤ 31 ∧ c.pps.length ≤ 255 ∧
      ∀ s ∈ c.sps ++ c.pps, s.length ≤ 65535) ∧
    bs = layout c (0xFC ||| (c.nalLengthSize - 1)) (0xE0 ||| c.sps.length.toUInt8) := by
  have hsize : (decide (c.nalLengthSize < 1) || decide (c.nalLengthSize > 4)) = true ↔
      ¬(1 ≤ c.nalLengthSize ∧ c.nalLengthSize ≤ 4) := by
    simp only [Bool.or_eq_true, decide_eq_true_eq, not_and_or, UInt8.not_le]
  have hcount : (decide (c.sps.length > 31) || decide (c.pps.length > 255)) = true ↔
      ¬(c.sps.length ≤ 31 ∧ c.pps.length ≤ 255) := by
    simp only [Bool.or_eq_true, decide_eq_true_eq, not_and_or, Nat.not_le]
  rw [build, writeSets_eq, writeSets_eq]
  by_cases h1 : 1 ≤ c.nalLengthSize ∧ c.nalLengthSize ≤ 4
  swap
  · rw [if_pos (hsize.2 h1)]
    refine iff_of_false (by intro h; cases h) fun h => h1 ⟨h.1.1, h.1.2.1⟩
  rw [if_neg (fun h => hsize.1 h h1)]
  by_cases h2 : c.sps.length ≤ 31 ∧ c.pps.length ≤ 255
  swap
  · rw [if_pos (hcount.2 h2)]
    refine iff_of_false (by intro h; cases h) fun h => h2 ⟨h.1.2.2.1, h.1.2.2.2.1⟩
  rw [if_neg (fun h => hcount.1 h h2)]
  by_cases h3 : ∀ s ∈ c.sps, s.length ≤ 65535
  swap
  · rw [if_neg h3]
    refine iff_of_false (by intro h; cases h)
      fun h => h3 fun s hs => h.1.2.2.2.2 s (List.mem_append_left _ hs)
  rw [if_pos h3]
  by_cases h4 : ∀ s ∈ c.pps, s.length ≤ 65535
  swap
  · rw [if_neg h4]
    refine iff_of_false (by intro h; cases h)
      fun h => h4 fun s hs => h.1.2.2.2.2 s (List.mem_append_right _ hs)
  rw [if_pos h4]
  have hall : ∀ s ∈ c.sps ++ c.pps, s.length ≤ 65535 := fun s hs =>
    (List.mem_append.1 hs).elim (h3 s) (h4 s)
  constructor
  · intro h
    cases h
    exact ⟨⟨h1.1, h1.2, h2.1, h2.2, hall⟩, by simp [layout]⟩
  · rintro ⟨-, rfl⟩
    exact congrArg Except.ok (by simp [layout])

theorem lengthSize_written {n : UInt8} (h1 : 1 ≤ n) (h4 : n ≤ 4) :
    ((0xFC ||| (n - 1)) &&& 0x03) + 1 = n := by
  revert n
  decide +kernel

theorem lengthSize_read (x : UInt8) :
    1 ≤ (x &&& 0x03) + 1 ∧ (x &&& 0x03) + 1 ≤ 4 ∧
      (0xFC ||| ((x &&& 0x03) + 1 - 1) = x ↔ x &&& 0xFC = 0xFC) := by
  revert x
  decide +kernel

theorem spsCount_written {k : Nat} (h : k < 32) : ((0xE0 ||| k.toUInt8) &&& 0x1F).toNat = k := by
  revert k
  decide

theorem spsCount_read (x : UInt8) :
    (x &&& 0x1F).toNat ≤ 31 ∧ (0xE0 ||| (x &&& 0x1F).toNat.toUInt8 = x ↔ x &&& 0xE0 = 0xE0) := by
  revert x
  decide +kernel

theorem parse_build {c : Config} {bs : List UInt8} (h : build c = .ok bs) (rest : List UInt8) :
    parse.run (bs ++ rest) = .ok (c, rest) := by
  obtain ⟨⟨h1, h4, hsps, hpps, hsmall⟩, rfl⟩ := build_eq_ok_iff.1 h
  exact parse_run_eq_ok_iff.2 ⟨_, _, lengthSize_written h1 h4, spsCount_written (by omega),
    by omega, hsmall, rfl⟩

theorem build_of_parse {b rest : List UInt8} {c : Config} (h : parse.run b = .ok (c, rest)) :
    size c = b.length - rest.length ∧ ∃ bs, build c = .ok bs ∧
      (bs = b.take (b.length - rest.length) ↔
        b.getD 4 0 &&& 0xFC = 0xFC ∧ b.getD 5 0 &&& 0xE0 = 0xE0) := by
  obtain ⟨x4, x5, h4, h5, h6, hsmall, rfl⟩ := parse_run_eq_ok_iff.1 h
  have hk : (layout c x4 x5 ++ rest).length - rest.length = size c := by
    rw [List.length_append, length_layout]
    omega
  refine ⟨hk.symm, layout c (0xFC ||| (c.nalLengthSize - 1)) (0xE0 ||| c.sps.length.toUInt8), ?_, ?_⟩
  · obtain ⟨hlow, hhigh, -⟩ := lengthSize_read x4
    exact build_eq_ok_iff.2 ⟨⟨h4 ▸ hlow, h4 ▸ hhigh, h5 ▸ (spsCount_read x5).1, by omega, hsmall⟩,
      rfl⟩
  · rw [hk, List.take_left' (length_layout c x4 x5)]
    simp only [layout, List.cons_append, List.cons.injEq, List.getD_cons_succ, List.getD_cons_zero]
    rw [← h4, ← h5, (lengthSize_read x4).2.2, (spsCount_read x5).2]
    tauto

theorem parse_fails_iff (b : List UInt8) :
    (∃ e, parse.run b = .error e) ↔ ∃ r, r ≠ [] ∧ ∃ c, parse.run (b ++ r) = .ok (c, []) := by
  constructor
  · rintro ⟨e, he⟩
    -- pad with zeros past any record; the record read there must run past `b`
    obtain ⟨c, rest, hpad⟩ := parse_ok_of_length (b := b ++ List.replicate (7 + 286 * 65537) 0)
      (by rw [List.length_append, List.length_replicate]; exact Nat.le_add_left _ _)
    generalize 7 + 286 * 65537 = N at hpad
    obtain ⟨x4, x5, h4, h5, h6, hsmall, heq⟩ := parse_run_eq_ok_iff.1 hpad
    have hfront := congrArg (List.take (layout c x4 x5).length) heq
    rw [List.take_left' rfl, List.take_append] at hfront
    by_cases hlen : (layout c x4 x5).length ≤ b.length
    · rw [Nat.sub_eq_zero_of_le hlen, List.take_zero, List.append_nil] at hfront
      have hok := parse_run_eq_ok_iff.2 ⟨x4, x5, h4, h5, h6, hsmall,
        by rw [← hfront, List.take_append_drop]⟩
      rw [he] at hok
      cases hok
    · have hfits := congrArg List.length heq
      simp only [List.length_append, List.length_replicate] at hfits
      rw [List.take_of_length_le (by omega), List.take_replicate,
        Nat.min_eq_left (by omega)] at hfront
      refine ⟨List.replicate ((layout c x4 x5).length - b.length) 0, by simp; omega, c, ?_⟩
      rw [hfront]
      exact parse_run_eq_ok_iff.2 ⟨x4, x5, h4, h5, h6, hsmall, by simp⟩
  · rintro ⟨r, hr, c, hc⟩
    cases hb : parse.run b with
    | error e => exact ⟨e, rfl⟩
    | ok p =>
      -- a record inside `b` would leave `r` unread
      rw [parse_append hb r] at hc
      simp only [Except.ok.injEq, Prod.mk.injEq, List.append_eq_nil_iff] at hc
      exact absurd hc.2.2 hr

/-- Writing a record succeeds exactly when its length size is 1 to 4, it has at most 31 sequence
and 255 picture parameter sets and no set is longer than 65535 bytes; it then writes `size c`
bytes, which read back as the record whatever follows them. A read that succeeds consumes `size`
bytes of the record it returns, which writes back to exactly those bytes when their reserved bits
were set. A read fails exactly on a proper beginning of a record, and only for want of bytes. -/
theorem record_build_parse_inverse (c : Config) (b : List UInt8) :
    ((∃ bs, build c = .ok bs) ↔ 1 ≤ c.nalLengthSize ∧ c.nalLengthSize ≤ 4 ∧ c.sps.length ≤ 31 ∧
      c.pps.length ≤ 255 ∧ ∀ s ∈ c.sps ++ c.pps, s.length ≤ 65535) ∧
    (∀ bs, build c = .ok bs → bs.length = size c ∧ ∀ rest, parse.run (bs ++ rest) = .ok (c, rest)) ∧
    (∀ c' rest, parse.run b = .ok (c', rest) →
      size c' = b.length - rest.length ∧ (∃ bs, build c' = .ok bs) ∧
      (build c' = .ok (b.take (b.length - rest.length)) ↔
        b.getD 4 0 &&& 0xFC = 0xFC ∧ b.getD 5 0 &&& 0xE0 = 0xE0)) ∧
    ((∃ e, parse.run b = .error e) ↔ ∃ r, r ≠ [] ∧ ∃ c', parse.run (b ++ r) = .ok (c', [])) ∧
    ∀ e, parse.run b = .error e → e.kind = .unexpectedEof := by
  refine ⟨⟨fun ⟨_, h⟩ => (build_eq_ok_iff.1 h).1, fun h => ⟨_, build_eq_ok_iff.2 ⟨h, rfl⟩⟩⟩,
    fun bs h => ⟨?_, parse_build h⟩, fun c' rest h => ?_, parse_fails_iff b,
    fun e => failsAtEof_parse b e⟩
  · rw [(build_eq_ok_iff.1 h).2, length_layout]
  · obtain ⟨hsize, bs, hbuild, htake⟩ := build_of_parse h
    refine ⟨hsize, ⟨bs, hbuild⟩, ?_⟩
    rw [hbuild, Except.ok.injEq, htake]

/-- The record of a Baseline-profile stream with one sequence and one picture parameter set is
written as twenty bytes and read back from them. -/
theorem baseline_record_round_trip :
    build ⟨1, 0x42, 0xC0, 0x1E, 4, [[0x67, 0x42, 0xC0, 0x1E, 0xD9]], [[0x68, 0xCE, 0x3C, 0x80]]⟩ =
      .ok [1, 0x42, 0xC0, 0x1E, 0xFF, 0xE1, 0, 5, 0x67, 0x42, 0xC0, 0x1E, 0xD9, 1, 0, 4,
        0x68, 0xCE, 0x3C, 0x80] ∧
    parse.run [1, 0x42, 0xC0, 0x1E, 0xFF, 0xE1, 0, 5, 0x67, 0x42, 0xC0, 0x1E, 0xD9, 1, 0, 4,
        0x68, 0xCE, 0x3C, 0x80] =
      .ok (⟨1, 0x42, 0xC0, 0x1E, 4, [[0x67, 0x42, 0xC0, 0x1E, 0xD9]], [[0x68, 0xCE, 0x3C, 0x80]]⟩,
        []) :=
  ⟨rfl, ((record_build_parse_inverse
    ⟨1, 0x42, 0xC0, 0x1E, 4, [[0x67, 0x42, 0xC0, 0x1E, 0xD9]], [[0x68, 0xCE, 0x3C, 0x80]]⟩ []).2.1
    _ rfl).2 []⟩

end Avc.Config

end FlvDemux
