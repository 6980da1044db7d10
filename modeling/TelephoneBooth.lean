import TelephoneBooth.Core
import TelephoneBooth.CoreStep
import TelephoneBooth.Machine
import TelephoneBooth.GpioIntake
import TelephoneBooth.GpioOutage
import TelephoneBooth.Handset
import TelephoneBooth.Sounding
import TelephoneBooth.Answers
import TelephoneBooth.Admission
import TelephoneBooth.Channel
import TelephoneBooth.Fetcher
import TelephoneBooth.Speaker
import TelephoneBooth.Transition
import TelephoneBooth.Recorder
import TelephoneBooth.Spool
import TelephoneBooth.Uploads
import TelephoneBooth.Runtime
import TelephoneBooth.RuntimeStep
import TelephoneBooth.Fetches
import TelephoneBooth.CallBoundary
import TelephoneBooth.LiveFetches
import TelephoneBooth.AudioPath
import TelephoneBooth.Playback
import TelephoneBooth.RecorderStep
import TelephoneBooth.Recordings
import TelephoneBooth.ClipTurn
import TelephoneBooth.ClipSlot
import TelephoneBooth.Announcements
import TelephoneBooth.ClipInvariant
import TelephoneBooth.Advertised
import TelephoneBooth.Exclusive
import TelephoneBooth.Timers
import TelephoneBooth.Sessions
import TelephoneBooth.Installation
import TelephoneBooth.PulseGroups
import TelephoneBooth.StatusWrites
import TelephoneBooth.Queues
import TelephoneBooth.UploadStep
import TelephoneBooth.Waits
import TelephoneBooth.Quiescence
import TelephoneBooth.UploadLedger
import TelephoneBooth.SerialReplay
import TelephoneBooth.Durability
import TelephoneBooth.Drain
import TelephoneBooth.Config
import TelephoneBooth.Digits
import TelephoneBooth.UploadCaps
import TelephoneBooth.Checksum
import TelephoneBooth.FlacFrame
import TelephoneBooth.Numbered
import TelephoneBooth.TelemetryBus
import TelephoneBooth.CatchUp
import TelephoneBooth.Reconnect
import TelephoneBooth.Directory
import TelephoneBooth.KeyNames
import TelephoneBooth.FileStorage
import TelephoneBooth.BatchNames
import TelephoneBooth.Listing
import TelephoneBooth.EventSpool
import TelephoneBooth.SpoolQueue
import TelephoneBooth.SpoolRuns
import TelephoneBooth.SpoolCrash
import TelephoneBooth.SpoolJobs
import TelephoneBooth.PrefixCode
import TelephoneBooth.Forwarder
import TelephoneBooth.ForwarderLedger
import TelephoneBooth.SpoolSharing
import TelephoneBooth.Redaction
import TelephoneBooth.OnHook
import TelephoneBooth.PulseTrain
import TelephoneBooth.SessionUploads
import TelephoneBooth.OutcomeNames
import TelephoneBooth.PowerButton
import TelephoneBooth.EdgePolling
import TelephoneBooth.LedCache
import TelephoneBooth.Rotation
import TelephoneBooth.ReplayFairness
import TelephoneBooth.PiSink
import TelephoneBooth.AudioTask
import TelephoneBooth.TextReader
import TelephoneBooth.IpAddress
import TelephoneBooth.UrlFilters
import TelephoneBooth.DebugAuth
import TelephoneBooth.KeyDecoding
import TelephoneBooth.Calendar
import TelephoneBooth.Timestamps
import TelephoneBooth.Remainder
import TelephoneBooth.ChecksumRemainder
import TelephoneBooth.Retry
import TelephoneBooth.UploadPipeline
import TelephoneBooth.OperatorCalls
import TelephoneBooth.GatedCalls
import TelephoneBooth.Volume
import TelephoneBooth.DurableFiles
import TelephoneBooth.PendingFiles
import TelephoneBooth.PendingLedger
import TelephoneBooth.SpooledRecordings
import TelephoneBooth.StatusLed
import TelephoneBooth.Windows
import TelephoneBooth.AudioStreams
import TelephoneBooth.ClipLoading
import TelephoneBooth.PlayedSources
import TelephoneBooth.DebugControls
import TelephoneBooth.DebugAnswers
