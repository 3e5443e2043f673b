import SiblingStore.Client.Bucket
import SiblingStore.Document.Cart
import SiblingStore.Json.Value
import SiblingStore.Metrics.Exposition
import SiblingStore.Proofs.Client.Effects
import SiblingStore.Proofs.Client.Retries
import SiblingStore.Proofs.Client.Sequential
import SiblingStore.Proofs.Cluster.Alone
import SiblingStore.Proofs.Cluster.Convergence
import SiblingStore.Proofs.Cluster.Deletion
import SiblingStore.Proofs.Cluster.Durability
import SiblingStore.Proofs.Cluster.Interleaving
import SiblingStore.Proofs.Cluster.Listing
import SiblingStore.Proofs.Cluster.Overlap
import SiblingStore.Proofs.Cluster.Status
import SiblingStore.Proofs.Cluster.Tops
import SiblingStore.Proofs.Store.Damage
import SiblingStore.Settings.Reader
import SiblingStore.Settings.Writer
import SiblingStore.Simulation.Activity
import SiblingStore.Simulation.Deployment
import SiblingStore.Proofs.Conflict.Order
import SiblingStore.Proofs.Client.Permits
import SiblingStore.Proofs.Client.Balance
import SiblingStore.Proofs.Text.Digits
import SiblingStore.Proofs.Settings.Validation
import SiblingStore.Proofs.Cluster.Whole
import SiblingStore.Proofs.Settings.Usable
import SiblingStore.Proofs.Cluster.Writes
import SiblingStore.Proofs.Cluster.Refusals
import SiblingStore.Proofs.Operation.Backoff
import SiblingStore.Proofs.Store.Flip
import SiblingStore.Proofs.Conflict.Union
import SiblingStore.Proofs.Clock.Semilattice
import SiblingStore.Proofs.Cluster.Contexts
