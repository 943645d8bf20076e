import CoSigner.Lib.Interleaving
import CoSigner.Lifecycle.Coordinator
import CoSigner.Lifecycle.Admission
import CoSigner.Lifecycle.Readiness
import CoSigner.Lib.Json.Text
import CoSigner.Lib.Base64
import CoSigner.Lib.Json.Decode
import CoSigner.Lib.Prog
import CoSigner.Lib.Time
import CoSigner.Libraries
import CoSigner.Contract.Mpc2of3
import CoSigner.Contract.Approval
import CoSigner.Errors
import CoSigner.Lib.Store
import CoSigner.Lib.Url
import CoSigner.Lib.Json.Record
import CoSigner.Lib.Strings
import CoSigner.SigningPolicy.Policy
import CoSigner.SigningPolicy.Prepared
import CoSigner.Monolith.Types
import CoSigner.Approval.Records
import CoSigner.Lib.Attempt
import CoSigner.Approval.World
import CoSigner.Approval.Journal
import CoSigner.Contract.Encodings
import CoSigner.Approval.Paths
import CoSigner.Approval.Service
import CoSigner.Approval.Evidence
import CoSigner.Approval.SignGate
import CoSigner.Approval.Calls
import CoSigner.Approval.Runs
import CoSigner.Approval.HalfBound
import CoSigner.Approval.Entries
import CoSigner.Approval.Dependence
import CoSigner.Lib.Rlp
import CoSigner.Lib.Json.Number
import CoSigner.SigningPolicy.Authorization
import CoSigner.SigningPolicy.Verified
import CoSigner.SigningPolicy.Ethereum
import CoSigner.SigningPolicy.Tron
import CoSigner.Approval.Gate
import CoSigner.Contract.Canonical
import CoSigner.Contract.Terminal
import CoSigner.Terminal.Job
import CoSigner.Lib.Json.Exact
import CoSigner.Contract.Descriptor
import CoSigner.Sharestore.Artifact
import CoSigner.Lib.Trace
import CoSigner.Monolith.Claim
import CoSigner.Sharestore.Reader
import CoSigner.Lib.Json.Shape
import CoSigner.Strictjson.Closed
import CoSigner.Localrouter.Validation
import CoSigner.Lib.Team
import CoSigner.Transport.Poll
import CoSigner.Transport.Lifecycle
import CoSigner.Sharestore.ActivePair
import CoSigner.Lib.Holding
import CoSigner.Worker.Intent
import CoSigner.Worker.Scheduler
import CoSigner.Worker.Permits
import CoSigner.Approval.Dispatcher
import CoSigner.Lib.Protobuf
import CoSigner.SigningPolicy.TronTerms
import CoSigner.Transport.Delivery
import CoSigner.Approval.Backoff
import CoSigner.Approval.Capacity
import CoSigner.Approval.Retries
import CoSigner.Approval.Footprint
import CoSigner.Lib.Disk
import CoSigner.Lifecycle.Unwind
import CoSigner.Sharestore.Publisher
import CoSigner.Sharestore.Publication
import CoSigner.Reconcile.Effects
import CoSigner.Lib.Run
import CoSigner.SigningPolicy.Runtime
import CoSigner.SigningPolicy.Panics
import CoSigner.Localrouter.Router
import CoSigner.Worker.DkgCoordinator
import CoSigner.Worker.DkgAccounts
import CoSigner.Worker.DkgResources
import CoSigner.Lib.Json.Tokens
import CoSigner.Strictjson.Scan
import CoSigner.Terminal.Retry
import CoSigner.Worker.Guard
import CoSigner.Approval.Discovery
import CoSigner.Preparams.Controller
import CoSigner.Reconcile.Verdicts
import CoSigner.Terminal.Publisher
import CoSigner.Monolith.Results
import CoSigner.Worker.SignSession
import CoSigner.Worker.Validation
import CoSigner.Worker.ClaimRecovery
import CoSigner.Worker.Session
import CoSigner.Worker.Ownership
import CoSigner.Worker.Gating
import CoSigner.Worker.Identity
