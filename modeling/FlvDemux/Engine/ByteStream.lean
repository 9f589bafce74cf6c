import FlvDemux.Bytes.Fault

/-!
# Byte streams

A byte stream is a byte string with a position that may lie past its end. A seek below zero or
past the largest position is refused. A read past the end returns nothing: a memory stream then
moves back to the end, a file stream stays put. A file read from past the largest offset its file
system allows (`maxFileOffset`) fails.
-/

namespace FlvDemux.Engine

/-- Where a seek counts from. -/
inductive SeekTarget where
  | start (offset : Nat)
  | current (delta : Int)
  | fromEnd (delta : Int)
  deriving DecidableEq, Repr

/-- Where the bytes of a stream are kept. -/
inductive Backing where
  | memory
  | file
  deriving DecidableEq, Repr

/-- A byte stream. -/
structure ByteStream where
  data : List UInt8
  position : Nat := 0
  backing : Backing := .memory
  /-- The largest offset a file read may start from, as the file system allows. -/
  maxFileOffset : Nat := (Nat.pow 2 32 - 1) * 4096
  readable : Bool := true
  seekable : Bool := true
  deriving DecidableEq, Repr

def maxPosition : Nat := Nat.pow 2 64 - 1

/-- One operation on a byte stream. -/
inductive StreamOp where
  | seek (target : SeekTarget)
  | read (n : Nat)
  | position
  | length
  deriving DecidableEq, Repr

/-- What an operation on a byte stream gives back. -/
inductive StreamAnswer where
  | bytes (bs : List UInt8)
  | count (n : Nat)
  deriving DecidableEq, Repr

namespace ByteStream

/-- The position a seek moves to, if it is one. -/
def target (s : ByteStream) : SeekTarget → Option Nat
  | .start o => some o
  | .current d => let p := (s.position : Int) + d; if 0 ≤ p ∧ p ≤ maxPosition then some p.toNat else none
  | .fromEnd d => let p := (s.data.length : Int) + d; if 0 ≤ p ∧ p ≤ maxPosition then some p.toNat else none

/-- Moves the position; the new position, or a fault and no move. -/
def seek (s : ByteStream) (t : SeekTarget) : Except Fault (Nat × ByteStream) :=
  match s.target t with
  | some p => .ok (p, { s with position := p })
  | none => .error .seekBeforeStart

/-- Up to `n` bytes from the position, and the stream moved past them. -/
def read (s : ByteStream) (n : Nat) : Except Fault (List UInt8 × ByteStream) :=
  let start := min s.position s.data.length
  let bytes := (s.data.drop start).take n
  match s.backing with
  | .memory => .ok (bytes, { s with position := start + bytes.length })
  | .file =>
    if s.position > s.maxFileOffset then .error .fileOffsetTooLarge
    else .ok (bytes, { s with position := s.position + bytes.length })

/-- Carries out one operation; a seek answers the new position. -/
def perform (s : ByteStream) : StreamOp → Except Fault StreamAnswer × ByteStream
  | .seek t =>
    match s.seek t with
    | .ok (p, s) => (.ok (.count p), s)
    | .error f => (.error f, s)
  | .read n =>
    match s.read n with
    | .ok (bs, s) => (.ok (.bytes bs), s)
    | .error f => (.error f, s)
  | .position => (.ok (.count s.position), s)
  | .length => (.ok (.count s.data.length), s)

/-- Carries out operations in turn, one answer each. -/
def performAll (s : ByteStream) : List StreamOp → List (Except Fault StreamAnswer)
  | [] => []
  | op :: ops => let (r, s) := s.perform op; r :: performAll s ops

end ByteStream

end FlvDemux.Engine
