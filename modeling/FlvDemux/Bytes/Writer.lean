import FlvDemux.Bytes.Reader

/-!
# Writers of big-endian fields

A `Field` is one value to be written: a word of 8, 16, 24 or 32 bits, a signed 24-bit word, the
64 bits of a binary64 number, or a run of bytes. Words keep their low bytes only, so a 24-bit
field of a 32-bit word drops the top byte and a signed one is written in two's complement.
`Field.write_length` gives the number of bytes each field takes.
-/

namespace FlvDemux

/-- One value to write, big-endian. -/
inductive Field where
  | u8 (value : UInt8)
  | u16 (value : UInt16)
  | u24 (value : UInt32)
  | i24 (value : Int32)
  | u32 (value : UInt32)
  | bits64 (value : UInt64)
  | bytes (value : List UInt8)
  deriving DecidableEq, Repr

namespace Field

def write : Field → List UInt8
  | .u8 v => [v]
  | .u16 v => Bytes.ofNat 2 v.toNat
  | .u24 v => Bytes.ofNat 3 v.toNat
  | .i24 v => Bytes.ofNat 3 v.toUInt32.toNat
  | .u32 v => Bytes.ofNat 4 v.toNat
  | .bits64 v => Bytes.ofNat 8 v.toNat
  | .bytes v => v

def width : Field → Nat
  | .u8 _ => 1
  | .u16 _ => 2
  | .u24 _ | .i24 _ => 3
  | .u32 _ => 4
  | .bits64 _ => 8
  | .bytes v => v.length

theorem write_length (f : Field) : f.write.length = f.width := by
  cases f <;> simp [write, width]

end Field

/-- The bytes of fields written one after the other. -/
def Field.writeAll (fs : List Field) : List UInt8 :=
  fs.flatMap Field.write

/-- The length of the output after each field of `fs`. -/
def Field.lengths (fs : List Field) : List Nat :=
  (fs.map Field.width).scanl (· + ·) 0 |>.tail

end FlvDemux
