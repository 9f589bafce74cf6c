/-!
# Binary64 numbers by their bits

Numbers of the script data are kept as their 64 bits, so that every value, NaN payloads and the
sign of zero included, is kept and compared exactly; the few operations the formats need
(`isNonzero`, `clampNonneg`, `scale`, `truncate`, `roundHalfAway`) are computed from the bits.
-/

namespace FlvDemux

namespace Binary64

def zero : UInt64 := 0

def one : UInt64 := 0x3FF0000000000000

def infinity : UInt64 := 0x7FF0000000000000

def exponentField (b : UInt64) : Nat := ((b >>> 52) &&& 0x7FF).toNat

def fractionField (b : UInt64) : Nat := (b &&& 0xFFFFFFFFFFFFF).toNat

def signBit (b : UInt64) : Bool := b >>> 63 == 1

def isNaN (b : UInt64) : Bool := exponentField b == 0x7FF && fractionField b != 0

/-- Whether the value differs from zero; a NaN does. -/
def isNonzero (b : UInt64) : Bool := b &&& 0x7FFFFFFFFFFFFFFF != 0

/-- The larger of the value and zero; zero for a NaN. -/
def clampNonneg (b : UInt64) : UInt64 :=
  if isNaN b || signBit b then zero else b

/-- The magnitude of a finite value as `m * 2 ^ e`; `none` for infinity and NaN. -/
def magnitude (b : UInt64) : Option (Nat × Int) :=
  let e := exponentField b
  let f := fractionField b
  if e = 0x7FF then none
  else if e = 0 then some (f, -1074)
  else some (Nat.pow 2 52 + f, (e : Int) - 1075)

/-- `n / 2 ^ s` rounded to the nearest whole number, a tie going to the even one. -/
def shiftRoundEven (n s : Nat) : Nat :=
  let q := n / Nat.pow 2 s
  let r := n % Nat.pow 2 s
  if 2 * r < Nat.pow 2 s then q
  else if 2 * r > Nat.pow 2 s then q + 1
  else if q % 2 = 0 then q else q + 1

/-- The bits of the binary64 value nearest to `m * 2 ^ e`, which is not negative. -/
def ofMagnitude (m : Nat) (e : Int) : UInt64 :=
  if m = 0 then zero else
  -- the exponent of the last place of the result
  let q : Int := max ((Nat.log2 m + 1 : Nat) - 53 + e) (-1074)
  let mant : Nat := if q ≤ e then m * Nat.pow 2 (e - q).toNat else shiftRoundEven m (q - e).toNat
  let (mant, q) := if mant = Nat.pow 2 53 then (Nat.pow 2 52, q + 1) else (mant, q)
  if q > 971 then infinity
  else if mant < Nat.pow 2 52 then mant.toUInt64
  else ((q + 1075).toNat * Nat.pow 2 52 + (mant - Nat.pow 2 52)).toUInt64

/-- The product of a value that is not negative with a whole number `k > 0`, rounded to
nearest, ties to even. -/
def scale (b : UInt64) (k : Nat) : UInt64 :=
  match magnitude b with
  | some (m, e) => ofMagnitude (m * k) e
  | none => b

def floorOf (m : Nat) (e : Int) : Nat :=
  if 0 ≤ e then m * Nat.pow 2 e.toNat else m / Nat.pow 2 (-e).toNat

/-- The whole number nearest to `m * 2 ^ e`, a half going up. -/
def roundOf (m : Nat) (e : Int) : Nat :=
  if 0 ≤ e then m * Nat.pow 2 e.toNat else (2 * m + Nat.pow 2 (-e).toNat) / Nat.pow 2 ((-e).toNat + 1)

/-- The whole part of the value, at most `bound`; zero for a NaN or a negative value, `bound` for
infinity. -/
def truncate (b : UInt64) (bound : Nat) : Nat :=
  if isNaN b || signBit b then 0 else
  match magnitude b with
  | some (m, e) => min (floorOf m e) bound
  | none => bound

/-- The nearest whole number to the value, halves away from zero, at most `bound`; zero for a
NaN or a negative value, `bound` for infinity. -/
def roundHalfAway (b : UInt64) (bound : Nat) : Nat :=
  if isNaN b || signBit b then 0 else
  match magnitude b with
  | some (m, e) => min (roundOf m e) bound
  | none => bound

end Binary64

end FlvDemux
