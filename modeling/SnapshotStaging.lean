import SnapshotStaging.Log.Template
import SnapshotStaging.Main
import SnapshotStaging.Proofs.History.Merge
import SnapshotStaging.Proofs.Json.Equality
import SnapshotStaging.Proofs.Key.Runs
import SnapshotStaging.Proofs.Load.Replacement
import SnapshotStaging.Proofs.Page.Records
import SnapshotStaging.Proofs.Run.Isolation
import SnapshotStaging.Proofs.Run.Repetition
import SnapshotStaging.Proofs.Stage.Agreement
import SnapshotStaging.Recorder
import SnapshotStaging.Proofs.Key.Steps
import SnapshotStaging.Proofs.Key.Custody
import SnapshotStaging.Proofs.Statements
import SnapshotStaging.Proofs.Stage.Outcomes
import SnapshotStaging.Proofs.Run.Publication
import SnapshotStaging.Proofs.Backing
import SnapshotStaging.Proofs.Load.Backing
import SnapshotStaging.Proofs.Run.References
import SnapshotStaging.Proofs.Run.Independence
import SnapshotStaging.Proofs.Stage.Remnants
import SnapshotStaging.Proofs.Stage.Literals
import SnapshotStaging.Proofs.Page.Acceptance
import SnapshotStaging.Proofs.Page.Beginnings
import SnapshotStaging.Proofs.Page.Kinds
import SnapshotStaging.Proofs.Load.Payload
import SnapshotStaging.Proofs.Redaction.Matching
import SnapshotStaging.Proofs.Field.Inference
import SnapshotStaging.Proofs.Load.Buffer
import SnapshotStaging.Proofs.Json.Canonical
import SnapshotStaging.Proofs.Json.WrittenNumber
import SnapshotStaging.Proofs.Json.Rewriting
import SnapshotStaging.Proofs.Json.Settled
import SnapshotStaging.Proofs.Field.Quotes
import SnapshotStaging.Proofs.Sql.Definitions
import SnapshotStaging.Proofs.Load.Definition
import SnapshotStaging.Proofs.Page.Stacks
