import Rtace.Lib.Footprint
import Rtace.Lib.KeyFamily
import Rtace.Lib.Transition
import Rtace.Lib.ScoredSet
import Rtace.Lib.Except
import Rtace.Lib.Spread
import Rtace.Lib.Separated
import Rtace.Lib.RollingWindow
import Rtace.Common.Value
import Rtace.Common.Models
import Rtace.Common.Text
import Rtace.Common.Calendar
import Rtace.Common.Config
import Rtace.Common.Redis
import Rtace.Common.Keys
import Rtace.Common.ConsumerLoop
import Rtace.Common.CommitGate
import Rtace.Common.Conservation
import Rtace.Common.Envelope
import Rtace.Common.Wedge
import Rtace.Common.Listing
import Rtace.Common.ListingExact
import Rtace.Detection.Scripts
import Rtace.Detection.Detectors
import Rtace.Detection.Cooldown
import Rtace.Detection.Pipeline
import Rtace.Lib.Optimistic
import Rtace.Containment.Actions
import Rtace.Containment.Linear
import Rtace.Containment.AtMostOnce
import Rtace.Containment.Escalation
import Rtace.Decision.Engine
import Rtace.Detection.Batching
import Rtace.Detection.Consumer
import Rtace.Detection.SingleRecord
import Rtace.Detection.NoLoss
import Rtace.Detection.Retry
import Rtace.Detection.Spacing
import Rtace.Detection.NoTrace
import Rtace.Detection.Poison
import Rtace.Detection.Produced
import Rtace.Detection.ReplayLedger
import Rtace.Detection.Users
import Rtace.Detection.Baseline
import Rtace.Detection.Windows
import Rtace.Containment.Suppressed
import Rtace.Containment.Justified
import Rtace.Containment.Lifetimes
import Rtace.Decision.Parity
import Rtace.Decision.EventTime
import Rtace.Decision.Payload
import Rtace.Decision.Document
import Rtace.Decision.Replay
import Rtace.Decision.LostResult
import Rtace.Decision.CacheIntegrity
import Rtace.Decision.SelfReplay
import Rtace.Decision.Transparent
import Rtace.Decision.Retries
import Rtace.Decision.Kept
import Rtace.Decision.Identity
import Rtace.Common.Subscription
import Rtace.Containment.Consumer
import Rtace.Containment.InOrder
import Rtace.Containment.Audited
import Rtace.Decision.Policy
import Rtace.Decision.Server
import Rtace.Api.Requests
import Rtace.Api.Custody
import Rtace.Api.Journal
import Rtace.Lib.Reader
import Rtace.Common.Recovery
import Rtace.Common.Pacing
import Rtace.Simulator.Traffic
import Rtace.Simulator.Attacks
