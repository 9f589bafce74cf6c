import FlvDemux.Engine.State

/-!
# Streaming

While started or paused, the demuxer reads tags from the first media tag on as long as a selected
track wants data (`pump`). A tag of a selected track becomes a sample: audio as it is, AVC
pictures in start-code framing, led by a configuration that has changed; other tags are passed
over, and the end of the file is told to every selected track.
-/

namespace FlvDemux.Engine

open Flv

/-- Hands a sample to the track of a kind, if there is one. -/
def deliver (k : TrackKind) (sample : Sample) : StateM Source Unit := do
  onSignal (← onTrack k (·.deliver sample))

/-- Puts a sequence header in force; a configuration that differs is sent again. -/
def replaceAvcConfig (payload : List UInt8) : Step Unit := do
  let c ← ofFormat (readAvcConfig payload)
  modify fun s =>
    if s.avcConfig = some c then s else { s with avcConfig := some c, avcConfigSent := false }

/-- Turns a NAL unit payload into a video sample, led by the configuration when it has not gone
out yet. Without a configuration the payload is dropped. -/
def deliverNalUnits (p : VideoPacket) (payload : List UInt8) : Step Unit := do
  let s ← get
  match s.avcConfig with
  | none => pure ()
  | some c =>
    let units ← ofFormat (readNalUnits c payload)
    let lead := if s.avcConfigSent then [] else c.privateData.toList
    set { s with avcConfigSent := true }
    deliver .video {
      buffers := lead ++ [units]
      timestampHns := p.tag.timestampHns
      compositionOffsetHns := p.compositionOffsetHns
      keyFrame := p.video.isKeyFrame }

/-- Handles a tag header met while streaming. -/
def streamTag (tag : TagHeader) : Step Unit := do
  if tag.isEndOfFile then
    for k in TrackKind.all do
      if (← get).isActive k then
        onSignal (← onTrack k Track.markEnd)
  else
    let kind : Option TrackKind := match tag.kind with
      | .audio => some .audio
      | .video => some .video
      | _ => none
    match kind with
    | some k =>
      if tag.dataSize > 0 && (← get).isActive k then
        issueRead (if k = .audio then .audioHeader tag else .videoHeader tag) none 1
      else
        skipBytes tag.dataSize.toNat
        pump
    | none =>
      skipBytes tag.dataSize.toNat
      pump

/-- Handles the bytes of a read completed while streaming, at stream position `offset`. -/
def streamStep (step : ReadStep) (data : List UInt8) (offset : Nat) : Step Unit := do
  match step with
  | .tagHeader =>
    let tag ← ofFormat (readTagHeader data (offset + data.length).toUInt64)
    streamTag tag
  | .audioHeader tag =>
    let p ← ofFormat (readAudioHeader tag data)
    if p.audio.isAac then issueRead (.aacPacketType p) none 1
    else issueRead (.audioPayload p) none p.payloadLength
  | .aacPacketType p =>
    let p ← ofFormat (readAacPacketType p data)
    issueRead (.audioPayload p) none p.payloadLength
  | .audioPayload p =>
    let payload ← ofFormat (readPayload data p.payloadLength)
    deliver .audio { buffers := [payload], timestampHns := p.tag.timestampHns }
    pump
  | .videoHeader tag =>
    let p ← ofFormat (readVideoHeader tag data)
    if p.video.isAvc then
      issueRead (.avcPacketHeader p) none AvcPacketHeader.length
    else
      skipBytes p.payloadLength
      pump
  | .avcPacketHeader p =>
    let p ← ofFormat (readAvcPacketHeader p data)
    if p.packetType = some .sequenceHeader || p.packetType = some .nalu then
      issueRead (.videoPayload p) none p.payloadLength
    else
      skipBytes p.payloadLength
      pump
  | .videoPayload p =>
    let payload ← ofFormat (readPayload data p.payloadLength)
    if p.packetType = some .sequenceHeader then replaceAvcConfig payload
    else deliverNalUnits p payload
    pump
  | .fileHeader | .scriptPayload _ => pure ()

end FlvDemux.Engine
