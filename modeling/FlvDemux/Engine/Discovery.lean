import FlvDemux.Engine.State

/-!
# The scan at open

Opening reads the file header and walks the tags from the front, one read at a time, until the
survey is ready, the tag limit is reached or the file ends; then the tracks the survey describes
are created and the stream is put back at the first media tag (`finishOpen`).
-/

namespace FlvDemux.Engine

open Flv Script

def updateSurvey (f : Survey → Survey) : StateM Source Unit :=
  modify fun s => { s with survey := f s.survey }

/-- Ends the scan: describes the tracks, creates them, rewinds to the first media tag and
answers the waiting open. -/
def finishOpen : Step Unit := do
  let s ← get
  let streams := s.survey.descriptors
  if streams.isEmpty then throw .noStreams
  if s.config.requireMetadata && s.survey.metadata.isNone then throw (.format .missingMetadata)
  let duration := (s.survey.metadata.map Metadata.durationHns).getD 0
  let depth := SourceConfig.clampDepth s.config.queueDepth
  set (streams.foldl (fun s d => s.setTrack d.kind (Track.new d.kind depth)) s)
  seekStream (.start s.survey.firstMediaOffset)
  let presentation := Presentation.ofStreams streams duration
  modify fun s => { s with
    skipPrefix := false
    avcConfig := s.survey.avcConfig
    avcConfigSent := false
    presentation := some presentation
    phase := .stopped }
  modify fun s =>
    if s.awaitingOpen then { s with awaitingOpen := false, openResult := some (.ok presentation) }
    else s

/-- Ends the scan when the tag limit is reached or the survey is ready; reads on otherwise. -/
def continueScan : Step Unit := do
  let s ← get
  let limitReached := s.config.tagLimit.any (s.scannedTags ≥ ·)
  if limitReached || s.survey.isReady then finishOpen else readNextTag

/-- Handles a tag header met while scanning. -/
def scanTag (tag : TagHeader) : Step Unit := do
  if tag.isEndOfFile then
    finishOpen
  else
    modify fun s => { s with scannedTags := s.scannedTags + 1 }
    let s ← get
    let size := tag.dataSize.toNat
    match tag.kind with
    | .scriptData =>
      if s.survey.metadata.isNone && size > 0 then
        updateSurvey fun v => { v with hasScriptData := true }
        issueRead (.scriptPayload tag) none size
      else
        skipBytes size
        continueScan
    | .audio | .video =>
      if size > 0 then
        updateSurvey fun v => { v with
          firstMediaTagOffset := some (v.firstMediaTagOffset.getD tag.tagOffset)
          metaSettled := true }
        let v := (← get).survey
        let isAudio := tag.kind = .audio
        let wanted := if isAudio then !v.audioReady else !v.videoReady
        if wanted then
          issueRead (if isAudio then .audioHeader tag else .videoHeader tag) none 1
        else
          skipBytes size
          continueScan
      else
        skipBytes size
        continueScan
    | _ =>
      skipBytes size
      continueScan

/-- Handles the bytes of a read completed while opening, at stream position `offset`. -/
def scanStep (step : ReadStep) (data : List UInt8) (offset : Nat) : Step Unit := do
  match step with
  | .fileHeader =>
    let h ← ofFormat (readFileHeader data)
    updateSurvey fun v => { v with fileHeader := some h }
    readNextTag
  | .tagHeader =>
    let tag ← ofFormat (readTagHeader data (offset + data.length).toUInt64)
    scanTag tag
  | .scriptPayload tag =>
    let payload ← ofFormat (readPayload data tag.dataSize.toNat)
    if let some m ← ofFormat (Metadata.decode payload) then
      updateSurvey fun v => { v with metadata := some m, metaSettled := true }
    continueScan
  | .audioHeader tag =>
    let p ← ofFormat (readAudioHeader tag data)
    updateSurvey fun v => { v with firstAudio := some (v.firstAudio.getD p) }
    if p.audio.isAac && (← get).survey.aacConfig.isNone then
      issueRead (.aacPacketType p) none 1
    else
      skipBytes (tag.dataSize.toNat - 1)
      continueScan
  | .aacPacketType p =>
    let p ← ofFormat (readAacPacketType p data)
    if p.isSequenceHeader then
      issueRead (.audioPayload p) none p.payloadLength
    else
      skipBytes p.payloadLength
      continueScan
  | .audioPayload p =>
    let payload ← ofFormat (readPayload data p.payloadLength)
    updateSurvey fun v => { v with aacConfig := some payload }
    continueScan
  | .videoHeader tag =>
    let p ← ofFormat (readVideoHeader tag data)
    updateSurvey fun v => { v with firstVideo := some (v.firstVideo.getD p) }
    if p.video.isAvc && (← get).survey.avcConfig.isNone then
      issueRead (.avcPacketHeader p) none AvcPacketHeader.length
    else
      skipBytes (tag.dataSize.toNat - 1)
      continueScan
  | .avcPacketHeader p =>
    let p ← ofFormat (readAvcPacketHeader p data)
    if p.packetType = some .sequenceHeader then
      issueRead (.videoPayload p) none p.payloadLength
    else
      skipBytes p.payloadLength
      continueScan
  | .videoPayload p =>
    let payload ← ofFormat (readPayload data p.payloadLength)
    let c ← ofFormat (readAvcConfig payload)
    updateSurvey fun v => { v with avcConfig := some c }
    continueScan

end FlvDemux.Engine
