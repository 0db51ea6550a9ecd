import SnapshotCoordination.Codec.Config
import SnapshotCoordination.Codec.Diff
import SnapshotCoordination.Codec.Log
import SnapshotCoordination.Document.Parsing
import SnapshotCoordination.Proofs.Coordination.Crossings
import SnapshotCoordination.Proofs.Coordination.LeftoverReads
import SnapshotCoordination.Proofs.Handles.Announcing
import SnapshotCoordination.Proofs.Handles.Balancing
import SnapshotCoordination.Proofs.Handles.Committing
import SnapshotCoordination.Proofs.Handles.FailedOpens
import SnapshotCoordination.Proofs.Handles.Lagging
import SnapshotCoordination.Proofs.Handles.Lasting
import SnapshotCoordination.Proofs.Handles.Passing
import SnapshotCoordination.Proofs.Handles.Reporting
import SnapshotCoordination.Proofs.Lists.Rebuild
import SnapshotCoordination.Proofs.Rows.Appending
import SnapshotCoordination.Proofs.Storage.Readings
import SnapshotCoordination.Release
import SnapshotCoordination.Session
import SnapshotCoordination.Storage.Bench
import SnapshotCoordination.Proofs.Handles.Indexing
import SnapshotCoordination.Proofs.Handles.Custody
import SnapshotCoordination.Proofs.Handles.Resetting
import SnapshotCoordination.Proofs.Coordination.Events
import SnapshotCoordination.Proofs.Coordination.Releasing
import SnapshotCoordination.Proofs.Coordination.Straying
import SnapshotCoordination.Proofs.Replay.Refusals
import SnapshotCoordination.Proofs.Rows.Unrecorded
import SnapshotCoordination.Proofs.Lists.Moving
import SnapshotCoordination.Proofs.Rows.Owners
import SnapshotCoordination.Proofs.Handles.Reusing
import SnapshotCoordination.Proofs.Storage.Listening
import SnapshotCoordination.Proofs.Paths.Spelling
import SnapshotCoordination.Proofs.Lists.Decoding
import SnapshotCoordination.Proofs.Lists.Nonmembers
import SnapshotCoordination.Proofs.Lists.Checking
import SnapshotCoordination.Proofs.Coordination.Removing
import SnapshotCoordination.Proofs.Codec.RoundTrip
