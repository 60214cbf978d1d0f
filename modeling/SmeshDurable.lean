import SmeshDurable.Artifact.Lineage
import SmeshDurable.Artifact.Resolve
import SmeshDurable.Artifact.Retention
import SmeshDurable.Auth.Bounds
import SmeshDurable.Concordance.Proposal
import SmeshDurable.Driver.Winner
import SmeshDurable.Handler.Gapless
import SmeshDurable.Identity.Framings
import SmeshDurable.Identity.Joined
import SmeshDurable.Memory.DurableListing
import SmeshDurable.Migration.Detector
import SmeshDurable.Migration.Reseal
import SmeshDurable.Outbox.Fairness
import SmeshDurable.Privacy.Rules
import SmeshDurable.Privacy.TreeBounds
import SmeshDurable.Protocol.Claims
import SmeshDurable.Protocol.Idempotence
import SmeshDurable.Protocol.ReopenRuns
import SmeshDurable.Protocol.Restart
import SmeshDurable.Protocol.Streams
import SmeshDurable.Push.CallbackUrl
import SmeshDurable.Quota.TokenBucket
import SmeshDurable.Replay.Order
