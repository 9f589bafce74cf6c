import FlvDemux.Bytes.Fault

/-!
# Readers of big-endian fields

A `Reader ε α` consumes a prefix of a byte string. Fields are big-endian (`Bytes.toNat`,
`Bytes.ofNat`, with `toNat_ofNat`). A fixed-width field that runs out fails with
`Fault.truncated`, a counted run with `Fault.needBytes`.
-/

namespace FlvDemux

/-- A reader: takes a byte string, gives back a value and the unread rest. -/
abbrev Reader (ε α : Type) := StateT (List UInt8) (Except ε) α

namespace Bytes

/-- A byte string read as a big-endian numeral. -/
def toNat (bs : List UInt8) : Nat :=
  bs.foldl (fun acc b => acc * 256 + b.toNat) 0

/-- The low `width` bytes of `value`, most significant first. -/
def ofNat : Nat → Nat → List UInt8
  | 0, _ => []
  | width + 1, value => ofNat width (value / 256) ++ [(value % 256).toUInt8]

@[simp] theorem length_ofNat (width value : Nat) : (ofNat width value).length = width := by
  induction width generalizing value with
  | zero => rfl
  | succ width ih => simp [ofNat, ih]

theorem toNat_append_byte (bs : List UInt8) (b : UInt8) :
    toNat (bs ++ [b]) = toNat bs * 256 + b.toNat := by
  simp [toNat, List.foldl_append]

theorem toNat_ofNat (width value : Nat) : toNat (ofNat width value) = value % Nat.pow 256 width := by
  induction width generalizing value with
  | zero => simp [ofNat, toNat, Nat.mod_one]
  | succ width ih =>
    rw [ofNat, toNat_append_byte, ih]
    have h : ((value % 256).toUInt8).toNat = value % 256 := by
      simp [Nat.toUInt8]
    simp only [Nat.pow_eq] at *
    rw [h, Nat.pow_succ, Nat.mul_comm (256 ^ width) 256, Nat.mod_mul]
    omega

end Bytes

namespace Reader

variable {ε α β : Type}

def run (r : Reader ε α) (bs : List UInt8) : Except ε (α × List UInt8) := StateT.run r bs

/-- The same reader with its failures renamed by `f`. -/
def mapError (f : ε → β) (r : Reader ε α) : Reader β α := fun bs =>
  match r bs with
  | .ok result => .ok result
  | .error e => .error (f e)

def ofExcept (r : Except ε α) : Reader ε α := fun bs =>
  match r with
  | .ok a => .ok (a, bs)
  | .error e => .error e

def remaining : Reader ε Nat := fun bs => .ok (bs.length, bs)

def atEnd : Reader ε Bool := fun bs => .ok (bs.isEmpty, bs)

/-- The value `r` would read, without consuming anything. -/
def lookahead (r : Reader ε α) : Reader ε α := fun bs =>
  match r bs with
  | .ok (a, _) => .ok (a, bs)
  | .error e => .error e

def byte : Reader Fault UInt8
  | b :: rest => .ok (b, rest)
  | [] => .error .truncated

/-- Exactly `n` bytes of a fixed-width field. -/
def fixed (n : Nat) : Reader Fault (List UInt8) := fun bs =>
  if n ≤ bs.length then .ok (bs.take n, bs.drop n) else .error .truncated

/-- Exactly `n` bytes of a counted run; too few fail with the counts. -/
def counted (n : Nat) : Reader Fault (List UInt8) := fun bs =>
  if n ≤ bs.length then .ok (bs.take n, bs.drop n) else .error (.needBytes n bs.length)

/-- Passes over `n` bytes; too few fail with the counts and consume nothing. -/
def skip (n : Nat) : Reader Fault Unit := fun bs =>
  if n ≤ bs.length then .ok ((), bs.drop n) else .error (.cannotSkip n bs.length)

def rest : Reader ε (List UInt8) := fun bs => .ok (bs, [])

/-- An unsigned big-endian field of `n` bytes. -/
def word (n : Nat) : Reader Fault Nat := do
  return Bytes.toNat (← fixed n)

def u16 : Reader Fault UInt16 := do
  return (← word 2).toUInt16

def u24 : Reader Fault UInt32 := do
  return (← word 3).toUInt32

def u32 : Reader Fault UInt32 := do
  return (← word 4).toUInt32

/-- A signed 16-bit field in two's complement. -/
def i16 : Reader Fault Int16 := do
  return (← word 2).toUInt16.toInt16

/-- A signed 24-bit field in two's complement, widened to 32 bits. -/
def i24 : Reader Fault Int32 := do
  let v ← word 3
  return Int32.ofInt (if v < Nat.pow 2 23 then (v : Int) else (v : Int) - (Nat.pow 2 24 : Nat))

/-- The 64 bits of a binary64 number, kept as they are. -/
def bits64 : Reader Fault UInt64 := do
  return (← word 8).toUInt64

end Reader

end FlvDemux
