import FlvDemux.Amf.Value
import FlvDemux.Amf.Error
import FlvDemux.Bytes.Reader
import FlvDemux.Text.Utf8

/-!
# Writing AMF0

`Amf.encode` writes a value with its marker. Objects are written as their properties closed by
an empty name and the object-end marker; `encodeEcmaArray` writes the same properties as an
ECMA array, with their count first. A string, or a property name, of more than 65535 bytes
cannot be written, and neither can a reference.
-/

namespace FlvDemux.Amf

/-- The bytes of the marker that closes a list of properties. -/
def objectEnd : List UInt8 := [0x00, 0x00, Marker.objectEnd.code]

/-- Text with a 16-bit length; longer text is refused. -/
def encodeKey (s : String) : Except WriteError (List UInt8) :=
  let bs := Utf8.encode s
  if bs.length > 65535 then .error .stringTooLong
  else .ok (Bytes.ofNat 2 bs.length ++ bs)

mutual

def encode : Value → Except WriteError (List UInt8)
  | .number b => .ok (Marker.number.code :: Bytes.ofNat 8 b.toNat)
  | .boolean b => .ok [Marker.boolean.code, if b then 1 else 0]
  | .string s => do return Marker.string.code :: (← encodeKey s)
  | .object ps => do return Marker.object.code :: (← encodeProperties ps)
  | .null => .ok [Marker.null.code]
  | .undefined => .ok [Marker.undefined.code]
  | .reference _ => .error (.unsupportedType .reference)
  | .strictArray vs => do
    return Marker.strictArray.code :: Bytes.ofNat 4 vs.length ++ (← encodeItems vs)
  | .date millis tz =>
    .ok (Marker.date.code :: Bytes.ofNat 8 millis.toNat ++ Bytes.ofNat 2 tz.toUInt16.toNat)
  | .longString s =>
    let bs := Utf8.encode s
    .ok (Marker.longString.code :: Bytes.ofNat 4 bs.length ++ bs)

/-- The bytes of a list of properties and the marker that closes it. -/
def encodeProperties : List (String × Value) → Except WriteError (List UInt8)
  | [] => .ok objectEnd
  | (k, v) :: ps => do
    let key ← encodeKey k
    let value ← encode v
    return key ++ value ++ (← encodeProperties ps)

/-- The bytes of values one after another. -/
def encodeItems : List Value → Except WriteError (List UInt8)
  | [] => .ok []
  | v :: vs => do
    let value ← encode v
    return value ++ (← encodeItems vs)

end

/-- The bytes of properties written as an ECMA array. -/
def encodeEcmaArray (ps : List (String × Value)) : Except WriteError (List UInt8) := do
  return Marker.ecmaArray.code :: Bytes.ofNat 4 ps.length ++ (← encodeProperties ps)

end FlvDemux.Amf
