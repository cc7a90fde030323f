import ClusterBackup.Json.Wire
import ClusterBackup.Main
import ClusterBackup.Numeric.Fixed
import ClusterBackup.Operator
import ClusterBackup.Proofs.Calendar.CanonicalText
import ClusterBackup.Proofs.Cluster.Lookup
import ClusterBackup.Proofs.Destination.Encoding
import ClusterBackup.Proofs.Fleet.Claims
import ClusterBackup.Proofs.Fleet.FinishedRecords
import ClusterBackup.Proofs.Fleet.Outcomes
import ClusterBackup.Proofs.Fleet.Ownership
import ClusterBackup.Proofs.Launch.AccessFailures
import ClusterBackup.Proofs.Operator.Histories
import ClusterBackup.Proofs.Operator.Outage
import ClusterBackup.Proofs.Polling.Attempts
import ClusterBackup.Proofs.Queue.Deadlines
import ClusterBackup.Proofs.Queue.Refinement
import ClusterBackup.Proofs.Reconcile.Commuting
import ClusterBackup.Proofs.Reconcile.Containment
import ClusterBackup.Proofs.Reconcile.Diagnosis
import ClusterBackup.Proofs.Reconcile.Fixpoint
import ClusterBackup.Proofs.Reconcile.Hindrances
import ClusterBackup.Proofs.Reconcile.Provision
import ClusterBackup.Proofs.Reconcile.Recording
import ClusterBackup.Proofs.Reconcile.Wiring
import ClusterBackup.Proofs.Record.Codec
import ClusterBackup.Proofs.Resource.AddedOwners
import ClusterBackup.Proofs.Settings.RequeueDelay
import ClusterBackup.Proofs.Worker.Drained
import ClusterBackup.Proofs.Worker.Effects
import ClusterBackup.Proofs.Worker.EventsKept
import ClusterBackup.Proofs.Worker.Shift
import ClusterBackup.Proofs.Worker.Turns
import ClusterBackup.Proofs.Worker.Watching
