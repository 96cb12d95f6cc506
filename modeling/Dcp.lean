import Dcp.Library.Table
import Dcp.Library.Bytes
import Dcp.Library.Result
import Dcp.Library.Text
import Dcp.Library.Json.Codec
import Dcp.Capability
import Dcp.Dispatch.Validation
import Dcp.Dispatch.Router
import Dcp.Security.Audit
import Dcp.Server
import Dcp.DenyByDefault
import Dcp.Security.SignedArguments
import Dcp.Security.ReplayProtection
import Dcp.Compat.LegacyHiding
import Dcp.Compat.ArgumentAgreement
import Dcp.Compat.ArgumentInjectivity
import Dcp.Multiplex.Isolation
import Dcp.Multiplex.Delivery
import Dcp.Multiplex.Release
import Dcp.Multiplex.Bounds
import Dcp.Multiplex.Quiescence
import Dcp.Multiplex.StreamCount
import Dcp.Multiplex.PipelineSafety
import Dcp.Multiplex.Refusals
import Dcp.Multiplex.PipelineFailure
import Dcp.Multiplex.PipelineRelease
import Dcp.Multiplex.PipelineLimit
import Dcp.Multiplex.PeerFrames
import Dcp.Multiplex.EndToEnd
import Dcp.Stream.RoundTrip
import Dcp.Stream.Atomicity
import Dcp.Library.Pool
import Dcp.Resource
import Dcp.Compat.ResponseDiscipline
import Dcp.Compat.AuditCompleteness
import Dcp.Compat.ReplayRejection
import Dcp.Compat.CompleteHiding
import Dcp.Transport.Reassembly
import Dcp.Sync
import Dcp.Compat.ResourceTemplates
import Dcp.Compat.RootBoundary
import Dcp.Compat.ResourceListing
import Dcp.Compat.AdvertisedSchema
import Dcp.Compat.SseReplay
import Dcp.Compat.LifecycleSafety
import Dcp.Shutdown.ManualCount
import Dcp.SessionUpgrade
import Dcp.Binary.Exactness
import Dcp.Cli.SchemaFile
import Dcp.Compat.SseClient
import Dcp.Compat.SseEmission
import Dcp.Compat.SseQueue
import Dcp.Compat.SseCancelled
import Dcp.Compat.RoundTrip
import Dcp.Cli.StdioDiscipline
import Dcp.Transport.StdioBuffering
import Dcp.Client.LineTransport
import Dcp.Client.ReceiveLoop
import Dcp.Compat.SseInjection
import Dcp.Compat.SsePayload
import Dcp.Stream.QueueRefinement
import Dcp.Transport.FrameLength
import Dcp.Transport.MessageFramer
import Dcp.Transport.StdioProgress
import Dcp.Transport.TcpServer
import Dcp.Cli.StdioServer
import Dcp.Client.StdioConversation
import Dcp.Dispatch.WellFormed
import Dcp.Compat.ArgumentReading
import Dcp.Compat.ReplayWindow
import Dcp.Security.AuditRetention
import Dcp.Compat.RequestGrammar
import Dcp.Security.KeySpelling
import Dcp.Security.DecodingDepth
import Dcp.Compat.PromptRendering
import Dcp.Observability.LogForgery
import Dcp.Observability.SharedMetrics
import Dcp.Cli.SchemaConversion
import Dcp.ContextMap
import Dcp.SessionCleanup
import Dcp.SessionLimit
import Dcp.Transport.Detection
import Dcp.CapabilitySets
import Dcp.Dispatch.Registration
import Dcp.Compat.Registration
import Dcp.Compat.Subscriptions
import Dcp.Resource.SharedRegistry
import Dcp.Compat.ElicitationAnswers
import Dcp.Observability.SpanIds
import Dcp.Observability.RequestIds
import Dcp.Observability.Timestamps
import Dcp.Compat.SseResume
import Dcp.Compat.Cancellation
import Dcp.Compat.ToolRuns
