import VgiRpc.Shm.Allocator
import VgiRpc.ProxyProof.Verifier
import VgiRpc.ProxyProof.Replay
import VgiRpc.Identity.XfccRoundTrip
import VgiRpc.Shm.Pointer
import VgiRpc.Lib.Runs
import VgiRpc.Shm.Transparent
import VgiRpc.Session.Lifecycle
import VgiRpc.Session.Tokens
import VgiRpc.Raw.Progress
import VgiRpc.Http.Serialised
import VgiRpc.Http.Scope
import VgiRpc.Grants.Soundness
import VgiRpc.Identity.BearerChain
import VgiRpc.Http.ExchangeOnce
import VgiRpc.Http.Resume
import VgiRpc.Collector.Logs
import VgiRpc.Raw.Freed
import VgiRpc.Protocol.Faithful
import VgiRpc.Evidence.FailClosed
import VgiRpc.Socket.Listener
import VgiRpc.Socket.Preamble
import VgiRpc.Errors.RoundTrip
import VgiRpc.Protocol.Copy
import VgiRpc.External.Containment
import VgiRpc.Http.Provenance
import VgiRpc.Server.Routing
import VgiRpc.Grants.Codec
import VgiRpc.Http.RequestMetadata
import VgiRpc.Shm.Hostile
import VgiRpc.External.Redaction
import VgiRpc.External.RedirectTarget
import VgiRpc.Grants.Spelling
import VgiRpc.Http.Backoff
import VgiRpc.Evidence.Principal
import VgiRpc.Identity.SpiffeId
import VgiRpc.Iroh.Grammar
import VgiRpc.Client.CommandLine
import VgiRpc.ProxyProof.Soundness
import VgiRpc.Wire.Coercion
import VgiRpc.Http.ResponseCodec
import VgiRpc.Tailscale.Responses
import VgiRpc.Identity.Utf8
import VgiRpc.Identity.Trimmed
import VgiRpc.ProxyProof.Cache
import VgiRpc.Wire.RawIo
import VgiRpc.Socket.Deadline
import VgiRpc.Identity.BoundedJson
import VgiRpc.Tailscale.ServeHeader
import VgiRpc.Peers.Context
import VgiRpc.Peers.Resolution
import VgiRpc.Peers.IrohBridge
import VgiRpc.Peers.TailscaleServe
import VgiRpc.Peers.GcpLoadBalancer
