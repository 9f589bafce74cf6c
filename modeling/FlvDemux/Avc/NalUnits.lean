import FlvDemux.Bytes.Reader

/-!
# Length-prefixed NAL units

In FLV an AVC picture is a run of NAL units, each behind a big-endian length of 1 to 4 bytes.
`splitUnits` cuts such a run into its units, dropping empty ones; `toStartCodes` frames it
with a four-byte start code before each unit instead. A run fails when its last bytes are too
few for a length field, or when a unit runs past the end.
-/

namespace FlvDemux.Avc

def clampLengthSize (s : UInt8) : Nat := min (max s.toNat 1) 4

/-- Cuts at most `bound` units off `payload`, each behind a `size`-byte length. -/
def splitUpTo (size : Nat) : Nat → List UInt8 → Except Fault (List (List UInt8))
  | 0, _ => .ok []
  | _, [] => .ok []
  | bound + 1, payload@(_ :: _) =>
    if payload.length < size then .error (.nalLengthCut payload.length size) else
    let len := Bytes.toNat (payload.take size)
    let body := payload.drop size
    if body.length < len then .error (.nalOverrun len) else
    let unit := body.take len
    match splitUpTo size bound (body.drop len) with
    | .ok units => .ok (if unit.isEmpty then units else unit :: units)
    | .error e => .error e

/-- The non-empty units of a run, each behind a length of `size` bytes (1 to 4). -/
def splitUnits (size : Nat) (payload : List UInt8) : Except Fault (List (List UInt8)) :=
  splitUpTo size payload.length payload

/-- A run of units rewritten with a four-byte start code before each unit. -/
def toStartCodes (size : Nat) (payload : List UInt8) : Except Fault (List UInt8) := do
  let units ← splitUnits size payload
  return units.flatMap ([0, 0, 0, 1] ++ ·)

end FlvDemux.Avc
