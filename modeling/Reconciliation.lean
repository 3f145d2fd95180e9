import Reconciliation.Config
import Reconciliation.Http.Script
import Reconciliation.Interference
import Reconciliation.LogFilter
import Reconciliation.RecordFiles
import Reconciliation.Remote.ClientCache
import Reconciliation.Remote.DirectorClient
import Reconciliation.Remote.IdentityServiceClient
import Reconciliation.Sweep
import Reconciliation.Yaml.Writer
import Reconciliation.Proofs.Drift
import Reconciliation.Proofs.Visibility
import Reconciliation.Proofs.Links
import Reconciliation.Proofs.ReleaseNames
import Reconciliation.Proofs.Step
import Reconciliation.Proofs.Store
import Reconciliation.Proofs.Logs
import Reconciliation.Proofs.Stages
import Reconciliation.Proofs.Credentials
import Reconciliation.Proofs.Composition
import Reconciliation.Proofs.Outcome
import Reconciliation.Proofs.Remote
import Reconciliation.Proofs.Resumption
import Reconciliation.Proofs.Idempotence
import Reconciliation.Proofs.Repair
import Reconciliation.Proofs.Effect
import Reconciliation.Proofs.Run
import Reconciliation.Proofs.FreezeOnce
import Reconciliation.Proofs.Possession
import Reconciliation.Proofs.Orphans
import Reconciliation.Proofs.Warning
import Reconciliation.Proofs.Frame
import Reconciliation.Proofs.Deletion
import Reconciliation.Proofs.Redraft
import Reconciliation.Proofs.Noninterference
import Reconciliation.Proofs.Provision
import Reconciliation.Proofs.Replay
import Reconciliation.Proofs.Progress
import Reconciliation.Proofs.Convergence
import Reconciliation.Proofs.Calls
import Reconciliation.Proofs.Copies
import Reconciliation.Proofs.Drain
import Reconciliation.Proofs.Payload
import Reconciliation.Proofs.Manifest
import Reconciliation.Proofs.Names
import Reconciliation.Proofs.Confinement
import Reconciliation.Proofs.Registration
import Reconciliation.Proofs.Establishment
import Reconciliation.Proofs.Lockstep
import Reconciliation.Proofs.Isolation
import Reconciliation.Proofs.Endpoints
import Reconciliation.Proofs.Ownership
import Reconciliation.Proofs.Publication
import Reconciliation.Proofs.OwnTeam
import Reconciliation.Proofs.LateReconcile
import Reconciliation.Proofs.SharedArtifacts
import Reconciliation.Proofs.Seeding
import Reconciliation.Proofs.Provenance
import Reconciliation.Proofs.Failures
import Reconciliation.Proofs.ClientCache
import Reconciliation.Proofs.RecordsReadBack
import Reconciliation.Proofs.PayloadsReadBack
import Reconciliation.Proofs.Footprint
import Reconciliation.Proofs.Refusals
import Reconciliation.Proofs.Visits
import Reconciliation.Proofs.Commutation
import Reconciliation.Proofs.TokenCache
import Reconciliation.Proofs.Waiting
import Reconciliation.Proofs.Walk
import Reconciliation.Proofs.Loading
import Reconciliation.Proofs.SecretSeeding
import Reconciliation.Proofs.UpdateBlocks
import Reconciliation.Proofs.GeneratedSecrets
import Reconciliation.Proofs.Excerpt
