import TtyGateway.Transition
import TtyGateway.Window
import TtyGateway.Limiter
import TtyGateway.Trailing
import TtyGateway.Interleaving
import TtyGateway.Postcard
import TtyGateway.Notifier
import TtyGateway.Frame
import TtyGateway.Codec
import TtyGateway.Framing
import TtyGateway.Scrollback
import TtyGateway.ScrollbackLaw
import TtyGateway.Wakeup
import TtyGateway.Quota
import TtyGateway.BucketLaw
import TtyGateway.Registry
import TtyGateway.RegistryLaw
import TtyGateway.BaseUrl
import TtyGateway.Connection
import TtyGateway.Gateway
import TtyGateway.Moves
import TtyGateway.Signing
import TtyGateway.Delegation
import TtyGateway.WellFormed
import TtyGateway.Lifecycle
import TtyGateway.LifecycleInvariant
import TtyGateway.Refinement
import TtyGateway.Teardown
import TtyGateway.Slots
import TtyGateway.Holding
import TtyGateway.ClosedFrame
import TtyGateway.Negotiation
import TtyGateway.Admission
import TtyGateway.Liveness
import TtyGateway.MutualWait
import TtyGateway.Delivery
import TtyGateway.Grammar
import TtyGateway.Stream
import TtyGateway.Budget
import TtyGateway.Account
import TtyGateway.Bandwidth
import TtyGateway.Metering
import TtyGateway.Intake
import TtyGateway.ControlPlane
import TtyGateway.Shell
import TtyGateway.Deadlock
import TtyGateway.Pacing
import TtyGateway.Stall
import TtyGateway.Throughput
import TtyGateway.Relay
import TtyGateway.Isolation
import TtyGateway.Conversation
import TtyGateway.Secrets
import TtyGateway.Reader
import TtyGateway.Acceptance
import TtyGateway.Incoming
import TtyGateway.Path
import TtyGateway.KeepAlive
import TtyGateway.Farewell
import TtyGateway.Serving
import TtyGateway.Interaction
import TtyGateway.Login
import TtyGateway.Dialing
import TtyGateway.Mailing
import TtyGateway.Webhook
import TtyGateway.Billing
import TtyGateway.Rounding
import TtyGateway.FloatLimiter
import TtyGateway.Backlog
