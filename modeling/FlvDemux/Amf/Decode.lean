import FlvDemux.Amf.Value
import FlvDemux.Amf.Error
import FlvDemux.Bytes.Reader

/-!
# Reading AMF0

`Amf.decode` reads one value and `Amf.skip` passes over one. Containers nest at most
`maxNesting` levels deep: `value n` may open `n` more levels, so the limit is the parameter of
the recursion. A loop over properties is bounded by the bytes left, and each property takes one.
-/

namespace FlvDemux.Amf

abbrev Decoder (α : Type) := Reader ReadError α

namespace Decoder

variable {α β : Type}

/-- A byte-level read inside an AMF0 reader. -/
def lift (r : Reader Fault α) : Decoder α := Reader.mapError .io r

/-- A type marker; a byte above `11` is refused after it has been read. -/
def marker : Decoder Marker := do
  let code ← lift Reader.byte
  match Marker.ofCode? code with
  | some m => pure m
  | none => throw (.unknownMarker code)

/-- The next marker, without consuming it. -/
def peekMarker : Decoder Marker := Reader.lookahead marker

def text (n : Nat) : Decoder String := do
  let bs ← lift (Reader.counted n)
  match Utf8.decode bs with
  | .ok s => pure s
  | .error e => throw (.badText e)

def shortText : Decoder String := do
  text (← lift Reader.u16).toNat

def longText : Decoder String := do
  text (← lift Reader.u32).toNat

def drop (n : Nat) : Decoder Unit := do
  let _ ← lift (Reader.counted n)

/-- The name of the next property, or `none` at the end of the list: at the end of the input,
or at an empty name, which must be followed by the object-end marker. -/
def nextKey : Decoder (Option String) := do
  if ← Reader.atEnd then return none
  let name ← shortText
  if name.isEmpty then
    let code ← lift Reader.byte
    if code ≠ Marker.objectEnd.code then throw (.missingObjectEnd code)
    return none
  return some name

/-- At most `bound` properties, each value read by `elem`. -/
def propertiesUpTo (elem : Decoder β) : Nat → Decoder (List (String × β))
  | 0 => pure []
  | bound + 1 => do
    match ← nextKey with
    | none => pure []
    | some key =>
      let v ← elem
      return (key, v) :: (← propertiesUpTo elem bound)

/-- A list of properties, each value read by `elem`. -/
def properties (elem : Decoder β) : Decoder (List (String × β)) := do
  propertiesUpTo elem (← Reader.remaining)

def items (elem : Decoder β) : Nat → Decoder (List β)
  | 0 => pure []
  | n + 1 => do
    let v ← elem
    return v :: (← items elem n)

/-- Runs `k` on the reader of the next level down, if one more level is allowed. -/
def nest (deeper : Option β) (k : β → Decoder α) : Decoder α :=
  match deeper with
  | some d => k d
  | none => throw (.nestingTooDeep maxNesting)

/-- One value, given the reader of values one level deeper (`none`: no deeper level). -/
def valueWith (deeper : Option (Decoder Value)) : Decoder Value := do
  let m ← marker
  match m with
  | .number => return .number (← lift Reader.bits64)
  | .boolean => return .boolean ((← lift Reader.byte) > 0)
  | .string => return .string (← shortText)
  | .object => return .object (← nest deeper properties)
  | .ecmaArray =>
    let _ ← lift Reader.u32
    return .object (← nest deeper properties)
  | .strictArray =>
    return .strictArray (← nest deeper fun elem => do items elem (← lift Reader.u32).toNat)
  | .null => return .null
  | .undefined => return .undefined
  | .reference => return .reference (← lift Reader.u16)
  | .date =>
    let millis ← lift Reader.bits64
    return .date millis (← lift Reader.i16)
  | .longString => return .longString (← longText)
  | other => throw (.unsupportedType other)

/-- A value whose containers may nest `levels` deep. -/
def value : Nat → Decoder Value
  | 0 => valueWith none
  | levels + 1 => valueWith (some (value levels))

/-- Passes over one value, given the skipper one level deeper (`none`: no deeper level). -/
def skipWith (deeper : Option (Decoder Unit)) : Decoder Unit := do
  let m ← marker
  match m with
  | .number => drop 8
  | .boolean => drop 1
  | .string | .movieClip => drop (← lift Reader.u16).toNat
  | .longString | .xmlDocument => drop (← lift Reader.u32).toNat
  | .object => nest deeper fun s => do let _ ← properties s
  | .ecmaArray =>
    drop 4
    nest deeper fun s => do let _ ← properties s
  | .typedObject =>
    drop (← lift Reader.u16).toNat
    nest deeper fun s => do let _ ← properties s
  | .strictArray =>
    let n ← lift Reader.u32
    nest deeper fun s => do let _ ← items s n.toNat
  | .reference => drop 2
  | .date => drop 10
  | .null | .undefined | .objectEnd | .unsupported => pure ()
  | .recordset | .avmPlusObject => throw (.unsupportedType m)

/-- Passes over a value whose containers may nest `levels` deep. -/
def skipValue : Nat → Decoder Unit
  | 0 => skipWith none
  | levels + 1 => skipWith (some (skipValue levels))

end Decoder

def decode : Decoder Value := Decoder.value maxNesting

/-- Passes over one value at the top level. -/
def skip : Decoder Unit := Decoder.skipValue maxNesting

/-- One value, which must carry the marker `expected`. -/
def decodeExpecting (expected : Marker) : Decoder Value := do
  let got ← Decoder.peekMarker
  if got ≠ expected then throw (.wrongType expected got)
  decode

/-- The start of a map: an object, or an ECMA array and its count. -/
def mapHeader : Decoder Marker := do
  let m ← Decoder.marker
  match m with
  | .object => pure m
  | .ecmaArray =>
    let _ ← Decoder.lift Reader.u32
    pure m
  | got => throw (.wrongType .ecmaArray got)

/-- Values one after another up to the end of the input, at most `bound` of them. -/
def decodeUpTo : Nat → Decoder (List Value)
  | 0 => pure []
  | bound + 1 => do
    if ← Reader.atEnd then return []
    let v ← decode
    return v :: (← decodeUpTo bound)

/-- Every value of a byte string, one after another. -/
def decodeAll : Decoder (List Value) := do
  decodeUpTo (← Reader.remaining)

/-- Passes over values up to the end of the input, recording the number of bytes left after
each; at most `bound` of them. -/
def skipUpTo : Nat → Decoder (List Nat)
  | 0 => pure []
  | bound + 1 => do
    if ← Reader.atEnd then return []
    skip
    let left ← Reader.remaining
    return left :: (← skipUpTo bound)

/-- Passes over every value of a byte string, recording the bytes left after each. -/
def skipAll : Decoder (List Nat) := do
  skipUpTo (← Reader.remaining)

/-- What a walk over a map records for a property. -/
inductive Visit where
  /-- The value, read. -/
  | value (v : Value)
  /-- The value passed over, with the number of bytes left after it. -/
  | skipped (left : Nat)
  deriving Repr

/-- Walks a map: its header, then each property, reading its value or passing over it. -/
def walkMap (skipValues : Bool) : Decoder (Marker × List (String × Visit)) := do
  let m ← mapHeader
  let visit : Decoder Visit :=
    if skipValues then do skip; return .skipped (← Reader.remaining)
    else return .value (← decode)
  return (m, ← Decoder.properties visit)

end FlvDemux.Amf
