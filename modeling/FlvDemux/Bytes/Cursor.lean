import FlvDemux.Bytes.Reader

/-!
# A positioned cursor over a byte string

A `Cursor` holds a byte string and a position that may lie past its end. A counted run or skip
that does not fit fails with the counts and stays put; a fixed-width field that does not fit fails
with `Fault.truncated` and moves to the end.
-/

namespace FlvDemux

/-- A byte string and a position in it, or past it. -/
structure Cursor where
  data : List UInt8
  position : Nat
  deriving DecidableEq, Repr

/-- One operation on a cursor. -/
inductive CursorOp where
  | remaining
  | position
  | extractRemaining
  | extract (n : Nat)
  | skip (n : Nat)
  | setPosition (n : Nat)
  | readU8
  | readU16
  | readU24
  | readI24
  | readU32
  | readBits64
  deriving DecidableEq, Repr

/-- What a successful cursor operation answers. -/
inductive CursorAnswer where
  | count (n : Nat)
  | signed (n : Int)
  | bytes (bs : List UInt8)
  | bits (b : UInt64)
  | done
  deriving DecidableEq, Repr

namespace Cursor

/-- The number of bytes from the position to the end, zero past the end. -/
def remaining (c : Cursor) : Nat := c.data.length - c.position

def unread (c : Cursor) : List UInt8 := c.data.drop c.position

/-- A fixed-width read: on success the position moves past the field, on failure to the end. -/
def readFixed (c : Cursor) (r : Reader Fault α) : Except Fault α × Cursor :=
  match r c.unread with
  | .ok (a, rest) => (.ok a, { c with position := c.position + (c.unread.length - rest.length) })
  | .error e => (.error e, { c with position := c.data.length })

/-- `n` bytes from the position; zero bytes always succeed. -/
def extract (c : Cursor) (n : Nat) : Except Fault (List UInt8) × Cursor :=
  if n = 0 then (.ok [], c)
  else if c.remaining < n then (.error (.needBytes n c.remaining), c)
  else (.ok (c.unread.take n), { c with position := c.position + n })

/-- One operation and the cursor after it. -/
def step (c : Cursor) : CursorOp → Except Fault CursorAnswer × Cursor
  | .remaining => (.ok (.count c.remaining), c)
  | .position => (.ok (.count c.position), c)
  | .extractRemaining =>
    let (r, c') := c.extract c.remaining
    (.ok (.bytes (match r with | .ok bs => bs | .error _ => [])), c')
  | .extract n =>
    let (r, c') := c.extract n
    (r.map .bytes, c')
  | .skip n =>
    if c.remaining < n then (.error (.cannotSkip n c.remaining), c)
    else (.ok .done, { c with position := c.position + n })
  | .setPosition n => (.ok .done, { c with position := n })
  | .readU8 => let (r, c') := c.readFixed Reader.byte; (r.map (.count ·.toNat), c')
  | .readU16 => let (r, c') := c.readFixed Reader.u16; (r.map (.count ·.toNat), c')
  | .readU24 => let (r, c') := c.readFixed Reader.u24; (r.map (.count ·.toNat), c')
  | .readI24 => let (r, c') := c.readFixed Reader.i24; (r.map (.signed ·.toInt), c')
  | .readU32 => let (r, c') := c.readFixed Reader.u32; (r.map (.count ·.toNat), c')
  | .readBits64 => let (r, c') := c.readFixed Reader.bits64; (r.map .bits, c')

/-- Runs operations in order from position zero; each answer comes with the position after it. -/
def run (data : List UInt8) (ops : List CursorOp) : List (Except Fault CursorAnswer × Nat) :=
  go ⟨data, 0⟩ ops
where
  go (c : Cursor) : List CursorOp → List (Except Fault CursorAnswer × Nat)
    | [] => []
    | op :: ops =>
      let (r, c') := c.step op
      (r, c'.position) :: go c' ops

end Cursor

end FlvDemux
