/-!
# UTF-8 text and where it goes wrong

`Utf8.decode` turns well-formed UTF-8 into a `String`, and otherwise reports the first fault as a
`Utf8Error`: the length of the longest well-formed prefix, and how many bytes of a complete bad
sequence are invalid. Well-formed sequences are those of the Unicode standard.
-/

namespace FlvDemux

/-- The first fault of a byte string that is not well-formed UTF-8. -/
structure Utf8Error where
  validUpTo : Nat
  errorLength : Option Nat
  deriving DecidableEq, Repr

def Utf8Error.message : Utf8Error → String
  | ⟨i, some n⟩ => s!"invalid utf-8 sequence of {n} bytes from index {i}"
  | ⟨i, none⟩ => s!"incomplete utf-8 byte sequence from index {i}"

namespace Utf8

def isContinuation (b : UInt8) : Bool := 0x80 ≤ b && b ≤ 0xBF

/-- The number of bytes of the sequence a lead byte opens; zero for a byte that opens none. -/
def sequenceLength (b : UInt8) : Nat :=
  if b < 0x80 then 1
  else if 0xC2 ≤ b && b ≤ 0xDF then 2
  else if 0xE0 ≤ b && b ≤ 0xEF then 3
  else if 0xF0 ≤ b && b ≤ 0xF4 then 4
  else 0

/-- Whether `c` may follow the lead byte `b` of a three- or four-byte sequence. -/
def secondAllowed (b c : UInt8) : Bool :=
  if b = 0xE0 then 0xA0 ≤ c && c ≤ 0xBF
  else if b = 0xED then 0x80 ≤ c && c ≤ 0x9F
  else if b = 0xF0 then 0x90 ≤ c && c ≤ 0xBF
  else if b = 0xF4 then 0x80 ≤ c && c ≤ 0x8F
  else isContinuation c

/-- The first fault of `bs`, whose first byte stands at index `i` of the whole text. -/
def firstFault (i : Nat) : List UInt8 → Option Utf8Error
  | [] => none
  | b :: rest =>
    match sequenceLength b, rest with
    | 1, rest' => firstFault (i + 1) rest'
    | 2, c :: rest' => if isContinuation c then firstFault (i + 2) rest' else some ⟨i, some 1⟩
    | 3, c :: d :: rest' =>
      if !secondAllowed b c then some ⟨i, some 1⟩
      else if !isContinuation d then some ⟨i, some 2⟩
      else firstFault (i + 3) rest'
    | 3, [c] => if secondAllowed b c then some ⟨i, none⟩ else some ⟨i, some 1⟩
    | 4, c :: d :: e :: rest' =>
      if !secondAllowed b c then some ⟨i, some 1⟩
      else if !isContinuation d then some ⟨i, some 2⟩
      else if !isContinuation e then some ⟨i, some 3⟩
      else firstFault (i + 4) rest'
    | 4, [c, d] =>
      if !secondAllowed b c then some ⟨i, some 1⟩
      else if !isContinuation d then some ⟨i, some 2⟩
      else some ⟨i, none⟩
    | 4, [c] => if secondAllowed b c then some ⟨i, none⟩ else some ⟨i, some 1⟩
    | 0, _ => some ⟨i, some 1⟩
    | _, _ => some ⟨i, none⟩

/-- The text that `bs` encodes, or its first fault. -/
def decode (bs : List UInt8) : Except Utf8Error String :=
  match String.fromUTF8? ⟨bs.toArray⟩ with
  | some s => .ok s
  | none => .error ((firstFault 0 bs).getD ⟨bs.length, none⟩)

def encode (s : String) : List UInt8 := s.toUTF8.toList

end Utf8

end FlvDemux
