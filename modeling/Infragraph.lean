import Infragraph.Proofs.Agreement
import Infragraph.Proofs.Applicable
import Infragraph.Proofs.Audit
import Infragraph.Proofs.ClientIP
import Infragraph.Proofs.ClusterLinks
import Infragraph.Proofs.Config
import Infragraph.Proofs.Contract
import Infragraph.Proofs.Depth
import Infragraph.Proofs.Enroll
import Infragraph.Proofs.Evidence
import Infragraph.Proofs.Flags
import Infragraph.Proofs.Interleaving
import Infragraph.Proofs.Isolation
import Infragraph.Proofs.Limiter
import Infragraph.Proofs.Listing
import Infragraph.Proofs.Login
import Infragraph.Proofs.Migrate
import Infragraph.Proofs.Naming
import Infragraph.Proofs.ObjectStorage
import Infragraph.Proofs.Replay
import Infragraph.Proofs.Scheduler
import Infragraph.Proofs.Sequence
import Infragraph.Proofs.Signatures
import Infragraph.Proofs.Spool
import Infragraph.Proofs.Tenants
import Infragraph.Proofs.Terraform
import Infragraph.Proofs.Traversal
