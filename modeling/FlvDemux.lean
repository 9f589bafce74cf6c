import FlvDemux.Bytes.Fault
import FlvDemux.Bytes.Reader
import FlvDemux.Bytes.Writer
import FlvDemux.Bytes.Cursor
import FlvDemux.Text.Utf8
import FlvDemux.Numeric.Binary64
import FlvDemux.Amf.Marker
import FlvDemux.Amf.Value
import FlvDemux.Amf.Error
import FlvDemux.Amf.Decode
import FlvDemux.Amf.Nesting
import FlvDemux.Amf.Encode
import FlvDemux.Flv.Error
import FlvDemux.Flv.FileHeader
import FlvDemux.Flv.TagHeader
import FlvDemux.Flv.Audio
import FlvDemux.Flv.Video
import FlvDemux.Avc.Config
import FlvDemux.Avc.NalUnits
import FlvDemux.Aac.AudioConfig
import FlvDemux.Flv.Framing
import FlvDemux.Script.KeyframeIndex
import FlvDemux.Script.Metadata
import FlvDemux.Engine.Config
import FlvDemux.Engine.Error
import FlvDemux.Engine.Session
import FlvDemux.Engine.ByteStream
import FlvDemux.Engine.Descriptor
import FlvDemux.Engine.Event
import FlvDemux.Engine.Track
import FlvDemux.Engine.Survey
import FlvDemux.Engine.State
import FlvDemux.Engine.Discovery
import FlvDemux.Engine.Demux
import FlvDemux.Engine.Control
import FlvDemux.Engine.Client
import FlvDemux.Proofs.TrackFlow
import FlvDemux.Proofs.Tickets
import FlvDemux.Proofs.AudioConfigBits
import FlvDemux.Proofs.StreamModel
import FlvDemux.Proofs.EngineSteps
import FlvDemux.Proofs.Chain
import FlvDemux.Proofs.Framing
import FlvDemux.Proofs.Streaming
import FlvDemux.Proofs.Scanning
import FlvDemux.Proofs.Tasks
import FlvDemux.Proofs.Ending
import FlvDemux.Proofs.Moves
import FlvDemux.Proofs.Outcomes
import FlvDemux.Proofs.Books
import FlvDemux.Proofs.Actions
import FlvDemux.Proofs.Serial
import FlvDemux.Proofs.Sessions
import FlvDemux.Proofs.Walk
import FlvDemux.Proofs.VideoStretch
import FlvDemux.Proofs.VideoLead
import FlvDemux.Proofs.ConfigRuns
import FlvDemux.Proofs.Settling
import FlvDemux.Proofs.Controls
import FlvDemux.Proofs.EndRuns
import FlvDemux.Proofs.AmfReading
import FlvDemux.Proofs.AmfRoundTrip
import FlvDemux.Proofs.AmfSkip
import FlvDemux.Proofs.AmfProgress
import FlvDemux.Proofs.AmfNesting
import FlvDemux.Proofs.MetadataFold
import FlvDemux.Proofs.FileSurvey
import FlvDemux.Proofs.Discovery
import FlvDemux.Proofs.ScanCost
import FlvDemux.Proofs.Playback
import FlvDemux.Proofs.HeaderRoundTrip
import FlvDemux.Proofs.KeyframeLookup
import FlvDemux.Proofs.NalFraming
import FlvDemux.Proofs.ConfigRecord
import FlvDemux.Proofs.Playing
import FlvDemux.Proofs.PlayControls
import FlvDemux.Proofs.PlayRuns
