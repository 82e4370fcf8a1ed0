import TurboMedia.Auth.RevocationAgreement
import TurboMedia.Auth.RevocationWire
import TurboMedia.Auth.TokenIssue
import TurboMedia.Client.QueueRefinement
import TurboMedia.Conference.AgentAvailability
import TurboMedia.DataChannel.DcepMeaning
import TurboMedia.DataChannel.DcepText
import TurboMedia.DataChannel.Generations
import TurboMedia.DataChannel.OwnerThreadSafety
import TurboMedia.DataChannel.PeerStateLaw
import TurboMedia.DataChannel.ReassemblyExact
import TurboMedia.Ivr.CallFencing
import TurboMedia.Ivr.DtmfOnce
import TurboMedia.Ivr.MediaSupervisor
import TurboMedia.Ivr.OperationsExact
import TurboMedia.Ivr.ReconcileGate
import TurboMedia.Ivr.ReconnectEvents
import TurboMedia.Ivr.WorkerIsolation
import TurboMedia.Pipeline.RuntimeQueueLaw
import TurboMedia.Recognition.DurationLimit
import TurboMedia.Recording.RtpTimestamps
import TurboMedia.Rtc.DemuxStable
import TurboMedia.Rtc.JitterProgress
import TurboMedia.Rtc.NackRtcp
import TurboMedia.Rtc.RtpHistory
import TurboMedia.Rtc.RtpSession
import TurboMedia.Rtc.TwccReport
import TurboMedia.Rtc.TwccSender
import TurboMedia.Rtc.TwccWire
import TurboMedia.Rtsp.BodyLength
import TurboMedia.Rtsp.ChunkedInput
import TurboMedia.Rtsp.NalRestored
import TurboMedia.Rtsp.RoundTrip
import TurboMedia.Rtsp.SendQueueRuns
import TurboMedia.Security.TenantQuotaSystem
import TurboMedia.Security.TenantQuotaUsage
import TurboMedia.Server.RtspNegotiated
import TurboMedia.Server.SourceFanout
import TurboMedia.Sfu.Isolation
import TurboMedia.Sfu.LayerSwitches
import TurboMedia.Sfu.NodeMirror
import TurboMedia.Signaling.IdealBucket
import TurboMedia.Signaling.SourceLimits
import TurboMedia.StreamGraph.CompileCorrect
import TurboMedia.StreamGraph.CompletionOnce
import TurboMedia.StreamGraph.ExecutorOverrun
import TurboMedia.StreamGraph.FanoutAtomic
import TurboMedia.StreamGraph.FanoutTickets
import TurboMedia.StreamGraph.HandoffFifo
