import JotaGateway.OpenClaw.Routing
import JotaGateway.OpenClaw.TurnQueue
import JotaGateway.OpenClaw.Ownership
import JotaGateway.OpenClaw.Multiplex
import JotaGateway.OpenClaw.Handshake
import JotaGateway.OpenClaw.Reconnecting
import JotaGateway.OpenClaw.Response
import JotaGateway.OpenClaw.Abort
import JotaGateway.Bridge.TurnControl
import JotaGateway.Bridge.Revocation
import JotaGateway.Bridge.Keys
import JotaGateway.Bridge.PushBacklog
import JotaGateway.Bridge.Streams
import JotaGateway.Bridge.TurnLock
import JotaGateway.Bridge.Watchdog
import JotaGateway.Outbound.Delivery
import JotaGateway.Services.Teardown
import JotaGateway.Services.ErrorRelay
import JotaGateway.Services.SessionRegistry
import JotaGateway.Services.BackoffGate
import JotaGateway.Services.Pacing
import JotaGateway.Services.Reconnect
import JotaGateway.Speech.Transcriber
import JotaGateway.Speech.EnergyGate
import JotaGateway.Speech.Sockets
import JotaGateway.Speech.AudioSources
import JotaGateway.ElevenLabs.Providers
import JotaGateway.ElevenLabs.SendBuffer
import JotaGateway.ElevenLabs.CommitRequest
import JotaGateway.Admin.Clients
import JotaGateway.Bridge.Replies
import JotaGateway.Api.Admission
import JotaGateway.Api.Completions
import JotaGateway.Api.Handshake
import JotaGateway.Api.Shared
import JotaGateway.Base.LimitedRun
import JotaGateway.Cli.Migrate
