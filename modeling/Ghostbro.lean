import Ghostbro.Xdp.Fragmentation
import Ghostbro.Server.Replay
import Ghostbro.Server.Isolation
import Ghostbro.Server.Coherence
import Ghostbro.Server.Maintenance
import Ghostbro.Server.Tunnel
import Ghostbro.Relay.Deletion
import Ghostbro.Relay.Quota
import Ghostbro.Relay.Fetch
import Ghostbro.Common.SpaSignature
import Ghostbro.Server.Acceptance
import Ghostbro.Relay.Actions
import Ghostbro.Relay.Durability
import Ghostbro.Relay.EngineRuns
import Ghostbro.Server.Handoff
import Ghostbro.Relay.Jobs
import Ghostbro.Relay.Artifacts
import Ghostbro.Relay.Accounting
import Ghostbro.Foundation.Disk
import Ghostbro.Relay.Confinement
import Ghostbro.Common.Frames
import Ghostbro.Relay.Responses
import Ghostbro.Server.FramedStream
import Ghostbro.Server.Delivery
import Ghostbro.Client.SocksRelay
import Ghostbro.Client.Integrity
import Ghostbro.Relay.Aliases
import Ghostbro.Server.Sessions
import Ghostbro.Xdp.Verdict
import Ghostbro.Client.Counter
import Ghostbro.Client.CounterRace
import Ghostbro.Client.Download
import Ghostbro.Foundation.PowerLoss
import Ghostbro.Foundation.TokenBucket
import Ghostbro.Server.PowerLoss
import Ghostbro.Server.Reload
import Ghostbro.Xdp.Admission
import Ghostbro.Client.CounterCrash
import Ghostbro.Foundation.Text
import Ghostbro.Relay.Elements
import Ghostbro.Relay.Entities
import Ghostbro.Relay.JobIds
import Ghostbro.Relay.NormalizedQuota
import Ghostbro.Relay.Packages
import Ghostbro.Server.CounterWindow
import Ghostbro.Server.Enumeration
import Ghostbro.Server.ForwardedFor
import Ghostbro.Client.Endpoints
import Ghostbro.Client.Enrollment
import Ghostbro.Client.Failover
import Ghostbro.Client.FrameReaders
import Ghostbro.Relay.Attributes
import Ghostbro.Relay.Expiry
import Ghostbro.Relay.Listing
import Ghostbro.Relay.NormalForm
import Ghostbro.Server.Decoy
import Ghostbro.Relay.Pages
import Ghostbro.Relay.Provenance
import Ghostbro.Foundation.Base64
import Ghostbro.Server.Continuity
import Ghostbro.Server.StaticKey
import Ghostbro.Client.Identity
import Ghostbro.Server.AuthorizedKeys
import Ghostbro.Server.Handshakes
import Ghostbro.Server.Origins
import Ghostbro.Server.Leases
