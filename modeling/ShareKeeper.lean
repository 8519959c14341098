import ShareKeeper.Account.Script
import ShareKeeper.Controller.Run
import ShareKeeper.Main
import ShareKeeper.Metrics.Endpoint
import ShareKeeper.Proofs.Codec
import ShareKeeper.Proofs.Conditions
import ShareKeeper.Proofs.Continuity
import ShareKeeper.Proofs.FailStop
import ShareKeeper.Proofs.Faults
import ShareKeeper.Proofs.History
import ShareKeeper.Proofs.Orphans
import ShareKeeper.Proofs.Permission.Convergence
import ShareKeeper.Proofs.Permission.Plan
import ShareKeeper.Proofs.Plan
import ShareKeeper.Proofs.Quiescence
import ShareKeeper.Proofs.Share.Between
import ShareKeeper.Proofs.Share.Convergence
import ShareKeeper.Proofs.Share.Plan
import ShareKeeper.Proofs.Share.Resumption
import ShareKeeper.Proofs.Share.Sources
import ShareKeeper.Proofs.StatusPatch
import ShareKeeper.Proofs.SystemTags
import ShareKeeper.Proofs.Time.Calendar
import ShareKeeper.Proofs.Time.Text
import ShareKeeper.Proofs.Twins
import ShareKeeper.Wire.Client
import ShareKeeper.Wire.Endpoint
import ShareKeeper.Proofs.Locality
import ShareKeeper.Proofs.Identity
import ShareKeeper.Proofs.Deletion
import ShareKeeper.Proofs.Commutation
import ShareKeeper.Proofs.Counting
import ShareKeeper.Proofs.Permission.Rotation
import ShareKeeper.Proofs.RoundTrip
import ShareKeeper.Proofs.Visibility
import ShareKeeper.Proofs.Tag.Patch
import ShareKeeper.Proofs.Comparison
import ShareKeeper.Proofs.Drift
import ShareKeeper.Proofs.Backoff
import ShareKeeper.Proofs.HiddenTags
import ShareKeeper.Proofs.Wire.Lookup
import ShareKeeper.Proofs.PartialSync
import ShareKeeper.Proofs.Permission.Formatting
import ShareKeeper.Proofs.Wire.Listing
import ShareKeeper.Proofs.Change
import ShareKeeper.Proofs.Settings
import ShareKeeper.Proofs.Permission.Version
import ShareKeeper.Proofs.Delta.Segments
import ShareKeeper.Proofs.Conditions.NormalForm
