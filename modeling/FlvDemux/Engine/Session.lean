/-!
# Session tickets

A read remembers the session it was issued in, so that a stop or a shutdown in the meantime
makes its completion stale. The session is one 64-bit word: the top bit says the demuxer has
been shut down, the other 63 bits count restarts, modulo `2 ^ 63`. A ticket is the word at the
time of issue; it is current while it equals the word and its top bit is clear.
-/

namespace FlvDemux.Engine

/-- The top bit of a session word: the demuxer has been shut down. -/
def shutdownBit : UInt64 := 0x8000000000000000

/-- The session word. -/
structure Session where
  word : UInt64 := 0
  deriving DecidableEq, Repr

namespace Session

def ticket (s : Session) : UInt64 := s.word

/-- Whether a ticket still belongs to the current session. -/
def isCurrent (s : Session) (t : UInt64) : Bool := t &&& shutdownBit == 0 && s.word == t

/-- A new session: the restart count goes up by one, modulo `2 ^ 63`; the top bit stays. -/
def restart (s : Session) : Session :=
  ⟨(s.word &&& shutdownBit) ||| (((s.word &&& (shutdownBit - 1)) + 1) &&& (shutdownBit - 1))⟩

def shutdown (s : Session) : Session := ⟨s.word ||| shutdownBit⟩

end Session

end FlvDemux.Engine
