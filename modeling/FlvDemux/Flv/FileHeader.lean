import FlvDemux.Flv.Error
import FlvDemux.Bytes.Reader

/-!
# The FLV file header

Nine bytes: a 24-bit signature (`FLV`), a version byte, a flags byte (`04` audio, `01` video)
and the 32-bit length of the header, which must be 9. Writing rebuilds the flags from the two
booleans, so other flag bits do not survive a read and a write.
-/

namespace FlvDemux.Flv

def audioFlag : UInt8 := 0x04

def videoFlag : UInt8 := 0x01

/-- The file header of an FLV file. -/
structure FileHeader where
  signature : UInt32 := 0x464C56
  version : UInt8 := 1
  hasAudio : Bool := false
  hasVideo : Bool := false
  dataOffset : UInt32 := 9
  deriving DecidableEq, Repr

namespace FileHeader

/-- Reads a file header; a length other than 9 is refused. -/
def parse : Reader FormatError FileHeader := do
  let signature ← Reader.mapError .io Reader.u24
  let version ← Reader.mapError .io Reader.byte
  let flags ← Reader.mapError .io Reader.byte
  let dataOffset ← Reader.mapError .io Reader.u32
  if dataOffset.toNat ≠ fileHeaderLength then throw (.invalidHeader dataOffset)
  return { signature, version, dataOffset,
           hasAudio := flags &&& audioFlag != 0, hasVideo := flags &&& videoFlag != 0 }

def flags (h : FileHeader) : UInt8 :=
  (if h.hasAudio then audioFlag else 0) ||| (if h.hasVideo then videoFlag else 0)

def encode (h : FileHeader) : List UInt8 :=
  Bytes.ofNat 3 h.signature.toNat ++ [h.version, h.flags] ++ Bytes.ofNat 4 h.dataOffset.toNat

/-- A one-line description of a header. -/
def describe (h : FileHeader) : String :=
  s!"FLV v{h.version} [audio: {h.hasAudio}, video: {h.hasVideo}, header length: {h.dataOffset}]"

end FileHeader

end FlvDemux.Flv
