/-!
# AMF0 type markers

Each AMF0 value starts with a one-byte marker naming its type; the eighteen markers of the
format are the codes `00` to `11`. `Marker.ofCode?` reads a code and `Marker.code` writes one;
`ofCode?_code` says that reading undoes writing.
-/

namespace FlvDemux.Amf

/-- The type of an AMF0 value, as its leading byte names it. -/
inductive Marker where
  | number
  | boolean
  | string
  | object
  | movieClip
  | null
  | undefined
  | reference
  | ecmaArray
  | objectEnd
  | strictArray
  | date
  | longString
  | unsupported
  | recordset
  | xmlDocument
  | typedObject
  | avmPlusObject
  deriving DecidableEq, Repr

namespace Marker

def code : Marker → UInt8
  | .number => 0x00
  | .boolean => 0x01
  | .string => 0x02
  | .object => 0x03
  | .movieClip => 0x04
  | .null => 0x05
  | .undefined => 0x06
  | .reference => 0x07
  | .ecmaArray => 0x08
  | .objectEnd => 0x09
  | .strictArray => 0x0a
  | .date => 0x0b
  | .longString => 0x0c
  | .unsupported => 0x0d
  | .recordset => 0x0e
  | .xmlDocument => 0x0f
  | .typedObject => 0x10
  | .avmPlusObject => 0x11

/-- The marker a byte announces, if any. -/
def ofCode? (b : UInt8) : Option Marker :=
  match b.toNat with
  | 0x00 => some .number
  | 0x01 => some .boolean
  | 0x02 => some .string
  | 0x03 => some .object
  | 0x04 => some .movieClip
  | 0x05 => some .null
  | 0x06 => some .undefined
  | 0x07 => some .reference
  | 0x08 => some .ecmaArray
  | 0x09 => some .objectEnd
  | 0x0a => some .strictArray
  | 0x0b => some .date
  | 0x0c => some .longString
  | 0x0d => some .unsupported
  | 0x0e => some .recordset
  | 0x0f => some .xmlDocument
  | 0x10 => some .typedObject
  | 0x11 => some .avmPlusObject
  | _ => none

theorem ofCode?_code (m : Marker) : ofCode? m.code = some m := by
  cases m <;> rfl

def name : Marker → String
  | .number => "Number"
  | .boolean => "Boolean"
  | .string => "String"
  | .object => "Object"
  | .movieClip => "MovieClip"
  | .null => "Null"
  | .undefined => "Undefined"
  | .reference => "Reference"
  | .ecmaArray => "EcmaArray"
  | .objectEnd => "ObjectEnd"
  | .strictArray => "StrictArray"
  | .date => "Date"
  | .longString => "LongString"
  | .unsupported => "Unsupported"
  | .recordset => "Recordset"
  | .xmlDocument => "XmlDocument"
  | .typedObject => "TypedObject"
  | .avmPlusObject => "AvmPlusObject"

/-- All markers, in the order of their codes. -/
def all : List Marker :=
  [.number, .boolean, .string, .object, .movieClip, .null, .undefined, .reference, .ecmaArray,
    .objectEnd, .strictArray, .date, .longString, .unsupported, .recordset, .xmlDocument,
    .typedObject, .avmPlusObject]

def ofName? (s : String) : Option Marker := all.find? (·.name == s)

end Marker

end FlvDemux.Amf
