import McpSdk.Lib.Run
import McpSdk.Lib.Unwinding
import McpSdk.Lib.Dict
import McpSdk.Lib.Pool
import McpSdk.Lib.Search
import McpSdk.Lib.OrderedMap
import McpSdk.Lib.CursorWalk
import McpSdk.Json
import McpSdk.Message
import McpSdk.Types
import McpSdk.Router
import McpSdk.Session
import McpSdk.Encoding
import McpSdk.JsonDump
import McpSdk.Escape
import McpSdk.Requests
import McpSdk.RequestsOnce
import McpSdk.RequestsClose
import McpSdk.Deadlines
import McpSdk.Tracking
import McpSdk.Handshake
import McpSdk.Reinitialize
import McpSdk.Lifecycle
import McpSdk.LifecycleOnce
import McpSdk.InitializeCodec
import McpSdk.Joined
import McpSdk.JoinedSteps
import McpSdk.Agreement
import McpSdk.AgreementOrder
import McpSdk.ClientCancel
import McpSdk.HttpHead
import McpSdk.HeadStability
import McpSdk.HttpEndpoint
import McpSdk.Sse
import McpSdk.SseChannel
import McpSdk.SseDelivery
import McpSdk.SseTakeover
import McpSdk.SseResume
import McpSdk.Post
import McpSdk.PostReply
import McpSdk.PostAnswer
import McpSdk.PostChannel
import McpSdk.HttpSessionServer
import McpSdk.SessionAuthority
import McpSdk.SessionStop
import McpSdk.SessionIdle
import McpSdk.Content
import McpSdk.Schema
import McpSdk.SchemaValid
import McpSdk.SchemaChecks
import McpSdk.SchemaAgreement
import McpSdk.Pagination
import McpSdk.UriTemplate
import McpSdk.UriMatch
import McpSdk.ToolRegistry
import McpSdk.PromptProvider
import McpSdk.ResourceProvider
import McpSdk.Subscriptions
import McpSdk.RootsProvider
import McpSdk.Registries
import McpSdk.Server
import McpSdk.Attached
import McpSdk.Interference
import McpSdk.InterferenceRun
import McpSdk.Correlation
import McpSdk.Declared
import McpSdk.RegistryCodec
import McpSdk.Client
import McpSdk.Listing
import McpSdk.Acceptance
import McpSdk.Reading
import McpSdk.Encodable
import McpSdk.CancelledIncoming
import McpSdk.Wire
import McpSdk.LineTransport
import McpSdk.LineSession
import McpSdk.Pipe
import McpSdk.HttpStream
import McpSdk.HttpClient
import McpSdk.HttpExchange
import McpSdk.HeadCodec
import McpSdk.Chunked
import McpSdk.SseChunked
import McpSdk.SseCodec
import McpSdk.SseRetry
import McpSdk.LineReader
import McpSdk.ContentCodec
import McpSdk.ClientResume
import McpSdk.PageWalk
import McpSdk.ConditionVariable
import McpSdk.CommandLine
import McpSdk.Registration
import McpSdk.SseGiveUp
import McpSdk.Connections
import McpSdk.Sampling
import McpSdk.SamplingLoop
import McpSdk.ClientReplies
import McpSdk.Elicitation
import McpSdk.HandlerTables
import McpSdk.ClientHandlers
import McpSdk.ClientRun
import McpSdk.SamplingRemote
import McpSdk.ChildProcess
import McpSdk.ChildStatus
import McpSdk.ChildThreads
import McpSdk.TimerLoop
import McpSdk.TimerProgress
import McpSdk.Freshness
import McpSdk.StdioTransport
import McpSdk.StdioSound
import McpSdk.StdioLines
import McpSdk.StdioStop
import McpSdk.Lib.Simulation
import McpSdk.StdioSession
import McpSdk.Environment
import McpSdk.HttpClientTransport
import McpSdk.Lib.Since
import McpSdk.HttpClientWake
import McpSdk.HttpClientLeft
import McpSdk.Lib.Rank
import McpSdk.RequestsRuns
import McpSdk.HttpClientStop
import McpSdk.HttpClientSession
