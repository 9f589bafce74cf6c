import FlvDemux.Engine.ByteStream

/-!
# Byte streams and the model they document

A stream documents itself as bytes with a position that may lie past their end (`documented`).
A file stream follows the model while its reads start no further than its file system allows
(`maxFileOffset`); a memory stream while they start at or before the end, past which a read moves
it back to the end (`memory_read_past_end`). The main statement is
`streams_follow_documented_model`.
-/

namespace FlvDemux.Engine

def StreamOp.isRead : StreamOp → Bool
  | .read _ => true
  | _ => false

namespace ByteStream

/-- The bytes of `c` from `a` up to `b`. -/
def slice (c : List UInt8) (a b : Nat) : List UInt8 := (c.drop a).take (b - a)

/-- A documented seek from position `p` to the target `q`: refused below zero and past the
largest position. -/
def seekTo (p : Nat) (q : Int) : Except Fault StreamAnswer × Nat :=
  if q < 0 ∨ maxPosition < q then (.error .seekBeforeStart, p) else (.ok (.count q.toNat), q.toNat)

/-- What the model documents for one operation on the bytes `c` at position `p`: the answer, and
the position after it. -/
def documented (c : List UInt8) (p : Nat) : StreamOp → Except Fault StreamAnswer × Nat
  | .seek (.start o) => (.ok (.count o), o)
  | .seek (.current d) => seekTo p ((p : Int) + d)
  | .seek (.fromEnd d) => seekTo p ((c.length : Int) + d)
  | .read n =>
    let bs := slice c (min p c.length) (min (p + n) c.length)
    (.ok (.bytes bs), p + bs.length)
  | .position => (.ok (.count p), p)
  | .length => (.ok (.count c.length), p)

/-- The answers the model documents for operations in turn from position `p`. -/
def documentedAll (c : List UInt8) : Nat → List StreamOp → List (Except Fault StreamAnswer)
  | _, [] => []
  | p, op :: ops => (documented c p op).1 :: documentedAll c (documented c p op).2 ops

/-- Whether every read of `ops`, run in the model from position `p`, starts at or before
`bound`. -/
def readsWithin (c : List UInt8) (bound : Nat) : Nat → List StreamOp → Bool
  | _, [] => true
  | p, op :: ops =>
    (!op.isRead || decide (p ≤ bound)) && readsWithin c bound (documented c p op).2 ops

/-- The stream after an operation is the one the model documents. -/
def Follows (s : ByteStream) (op : StreamOp) : Prop :=
  s.perform op = ((documented s.data s.position op).1, { s with position := (documented s.data s.position op).2 })

section Step

variable (s : ByteStream)

theorem slice_eq (c : List UInt8) (p n : Nat) :
    slice c (min p c.length) (min (p + n) c.length) = (c.drop p).take n := by
  unfold slice
  by_cases hp : p ≤ c.length
  · rw [Nat.min_eq_left hp, List.take_eq_take_iff, List.length_drop]
    omega
  · rw [Nat.min_eq_right (by omega), Nat.min_eq_right (by omega), Nat.sub_self, List.take_zero,
      List.drop_eq_nil_of_le (by omega), List.take_nil]

theorem drop_min_length (c : List UInt8) (p : Nat) : c.drop (min p c.length) = c.drop p := by
  by_cases hp : p ≤ c.length
  · rw [Nat.min_eq_left hp]
  · rw [Nat.min_eq_right (by omega), List.drop_length, List.drop_eq_nil_of_le (by omega)]

theorem documented_read (c : List UInt8) (p n : Nat) :
    documented c p (.read n) = (.ok (.bytes ((c.drop p).take n)), p + ((c.drop p).take n).length) := by
  simp only [documented, slice_eq]

theorem follows_of_not_read {op : StreamOp} (hop : op.isRead = false) : s.Follows op := by
  cases op with
  | read n => cases hop
  | position => rfl
  | length => rfl
  | seek t =>
    cases t with
    | start o => rfl
    | current d =>
      simp only [Follows, perform, ByteStream.seek, target, documented, seekTo]
      by_cases h : (0 ≤ (s.position : Int) + d ∧ (s.position : Int) + d ≤ maxPosition)
      · rw [if_pos h, if_neg (by omega)]
      · rw [if_neg h, if_pos (by omega)]
    | fromEnd d =>
      simp only [Follows, perform, ByteStream.seek, target, documented, seekTo]
      by_cases h : (0 ≤ (s.data.length : Int) + d ∧ (s.data.length : Int) + d ≤ maxPosition)
      · rw [if_pos h, if_neg (by omega)]
      · rw [if_neg h, if_pos (by omega)]

theorem memory_follows_read (hb : s.backing = .memory) {n : Nat} (hp : s.position ≤ s.data.length) :
    s.Follows (.read n) := by
  simp only [Follows, perform, read, hb, documented_read, Nat.min_eq_left hp]

theorem file_follows_read (hb : s.backing = .file) {n : Nat} (hp : s.position ≤ s.maxFileOffset) :
    s.Follows (.read n) := by
  simp only [Follows, perform, read, hb, documented_read, drop_min_length, if_neg (Nat.not_lt.2 hp)]

theorem memory_read_past_end (hb : s.backing = .memory) (n : Nat) (hp : s.data.length < s.position) :
    s.perform (.read n) = (.ok (.bytes []), { s with position := s.data.length }) := by
  simp only [perform, read, hb, Nat.min_eq_right (Nat.le_of_lt hp), List.drop_length, List.take_nil,
    List.length_nil, Nat.add_zero]

end Step

theorem performAll_documented {c : List UInt8} {b : Backing} {m bound : Nat}
    (hstep : ∀ (p : Nat) (op : StreamOp), (op.isRead = true → p ≤ bound) →
      ({ data := c, position := p, backing := b, maxFileOffset := m } : ByteStream).Follows op)
    (p : Nat) (ops : List StreamOp) (h : readsWithin c bound p ops = true) :
    performAll { data := c, position := p, backing := b, maxFileOffset := m } ops =
      documentedAll c p ops := by
  induction ops generalizing p with
  | nil => rfl
  | cons op ops ih =>
    simp only [readsWithin, Bool.and_eq_true, Bool.or_eq_true, Bool.not_eq_true', decide_eq_true_eq] at h
    obtain ⟨hread, hrest⟩ := h
    have hop := hstep p op fun hr => hread.resolve_left (by rw [hr]; decide)
    rw [Follows] at hop
    simp only [performAll, documentedAll, hop]
    exact congrArg _ (ih _ hrest)

theorem readsWithin_mono {c : List UInt8} {bound bound' : Nat} (hb : bound ≤ bound') (p : Nat)
    (ops : List StreamOp) (h : readsWithin c bound p ops = true) : readsWithin c bound' p ops = true := by
  induction ops generalizing p with
  | nil => rfl
  | cons op ops ih =>
    simp only [readsWithin, Bool.and_eq_true, Bool.or_eq_true, Bool.not_eq_true', decide_eq_true_eq] at h ⊢
    obtain ⟨hread, hrest⟩ := h
    exact ⟨hread.imp_right fun hp => Nat.le_trans hp hb, ih _ hrest⟩

theorem memory_documented (c : List UInt8) (p : Nat) (ops : List StreamOp)
    (h : readsWithin c c.length p ops = true) :
    performAll { data := c, position := p, backing := .memory } ops = documentedAll c p ops := by
  refine performAll_documented (fun q op hq => ?_) p ops h
  cases hr : op.isRead
  · exact follows_of_not_read _ hr
  · cases op with
    | read n => exact memory_follows_read _ rfl (hq hr)
    | _ => cases hr

theorem file_documented (c : List UInt8) (p limit : Nat) (ops : List StreamOp)
    (h : readsWithin c limit p ops = true) :
    performAll { data := c, position := p, backing := .file, maxFileOffset := limit } ops =
      documentedAll c p ops := by
  refine performAll_documented (fun q op hq => ?_) p ops h
  cases hr : op.isRead
  · exact follows_of_not_read _ hr
  · cases op with
    | read n => exact file_follows_read _ rfl (hq hr)
    | _ => cases hr

end ByteStream

open ByteStream in
/-- Both streams answer as their model documents in every run whose reads start at or before the
end of bytes their file system lets a file hold, so there the two answer alike. (A stream backed by
a file does so whenever its reads start no further than the file system lets a file reach,
`file_documented`; a read from past the end of a stream in memory moves its position back to the
end, `memory_read_past_end`.) -/
theorem streams_follow_documented_model (c : List UInt8) (p : Nat) (ops : List StreamOp)
    (limit : Nat) (hlimit : c.length ≤ limit) (h : readsWithin c c.length p ops = true) :
    performAll { data := c, position := p, backing := .memory } ops = documentedAll c p ops ∧
      performAll { data := c, position := p, backing := .file, maxFileOffset := limit } ops =
        documentedAll c p ops :=
  ⟨memory_documented c p ops h, file_documented c p limit ops (readsWithin_mono hlimit p ops h)⟩

/-- The run of the memory stream's own test, reading `0123456789` and seeking about within it,
reads no further than the end: both streams give the documented answers, the file's even on a
file system that lets a file hold no more than these ten bytes. -/
theorem streams_agree_on_digits :
    [(0x30 : UInt8), 0x31, 0x32, 0x33, 0x34, 0x35, 0x36, 0x37, 0x38, 0x39].length ≤ 10 ∧
      ByteStream.readsWithin [0x30, 0x31, 0x32, 0x33, 0x34, 0x35, 0x36, 0x37, 0x38, 0x39] 10 0
        [.read 4, .position, .seek (.current 2), .read 10, .read 1, .seek (.fromEnd (-3)), .read 1,
          .seek (.current (-100))] = true ∧
      (ByteStream.performAll
        { data := [0x30, 0x31, 0x32, 0x33, 0x34, 0x35, 0x36, 0x37, 0x38, 0x39], backing := .memory }
        [.read 4, .position, .seek (.current 2), .read 10, .read 1, .seek (.fromEnd (-3)), .read 1,
          .seek (.current (-100))] =
        ByteStream.documentedAll [0x30, 0x31, 0x32, 0x33, 0x34, 0x35, 0x36, 0x37, 0x38, 0x39] 0
          [.read 4, .position, .seek (.current 2), .read 10, .read 1, .seek (.fromEnd (-3)), .read 1,
            .seek (.current (-100))] ∧
      ByteStream.performAll
        { data := [0x30, 0x31, 0x32, 0x33, 0x34, 0x35, 0x36, 0x37, 0x38, 0x39], backing := .file,
          maxFileOffset := 10 }
        [.read 4, .position, .seek (.current 2), .read 10, .read 1, .seek (.fromEnd (-3)), .read 1,
          .seek (.current (-100))] =
        ByteStream.documentedAll [0x30, 0x31, 0x32, 0x33, 0x34, 0x35, 0x36, 0x37, 0x38, 0x39] 0
          [.read 4, .position, .seek (.current 2), .read 10, .read 1, .seek (.fromEnd (-3)), .read 1,
            .seek (.current (-100))]) :=
  have hc : [(0x30 : UInt8), 0x31, 0x32, 0x33, 0x34, 0x35, 0x36, 0x37, 0x38, 0x39].length ≤ 10 :=
    by decide
  have hr : ByteStream.readsWithin [0x30, 0x31, 0x32, 0x33, 0x34, 0x35, 0x36, 0x37, 0x38, 0x39] 10 0
      [.read 4, .position, .seek (.current 2), .read 10, .read 1, .seek (.fromEnd (-3)), .read 1,
        .seek (.current (-100))] = true := by decide
  ⟨hc, hr, streams_follow_documented_model _ 0 _ 10 hc hr⟩

/-- A seek past the end of `abc` and a read there: the stream in memory then stands at 3, where
the model and the stream backed by a file stand at 10. -/
theorem memory_position_past_end_differs :
    ByteStream.performAll { data := [0x61, 0x62, 0x63], backing := .memory }
        [.seek (.start 10), .read 2, .position] = [.ok (.count 10), .ok (.bytes []), .ok (.count 3)] ∧
      ByteStream.performAll { data := [0x61, 0x62, 0x63], backing := .file }
        [.seek (.start 10), .read 2, .position] = [.ok (.count 10), .ok (.bytes []), .ok (.count 10)] ∧
      ByteStream.documentedAll [0x61, 0x62, 0x63] 0 [.seek (.start 10), .read 2, .position] =
        [.ok (.count 10), .ok (.bytes []), .ok (.count 10)] :=
  ⟨rfl, rfl, rfl⟩

end FlvDemux.Engine
