import SnapshotCoordination.Coordination.World
import SnapshotCoordination.Document

/-!
# What a session reports

The answer to a command, the notices of what happened while it was carried out, and the state
of everything that has a label.
-/

namespace SnapshotCoordination

namespace Session

/-- A configuration as it is shown: of the key only its length and its first byte. -/
structure ConfigView where
  path : String
  readOnly : Bool
  inMemory : Bool
  encryptionKey : Option (Nat × Option Nat)
  schemaVersion : Option Nat
  cache : Bool
  engine : Option String
  deriving DecidableEq

/-- The answer to a command. -/
inductive Answer where
  | done
  | flag (value : Bool)
  | version (version : Version)
  | failed (failure : Failure)
  /-- The command cannot be read, or names something that does not exist. -/
  | badInput
  /-- A handle: its first label, whether it is new, and the version it reads. -/
  | opened (label : String) (isNew : Bool) (version : Option Version)
  /-- A coordinator: its path, the labels it is held under already, and what it shows of
  itself. -/
  | held (path : String) (same : List String) (shown : String)
  | size (entries : Nat)
  | stats (commits replays listeners : Nat) (shown : String)
  | info (path : String) (config : ConfigView) (thread : String)
      (coordinator : Except Failure String)

/-- Something that happened, by labels. -/
inductive Notice where
  | attach (query : String) (version : Option Version)
  | detach (query : String)
  | run (query : String) (changes : Changes)
  | handOver (query : String) (version : Option Version)
  | deliver (query handle : String) (version : Version) (failure : Option Failure) (due : Bool)
  | callbacks (query : String)
  | release (query : String)
  | available (watcher : String)
  | didChange (watcher : String)
  /-- A command of a script, by its word, was carried out with this answer. -/
  | played (label : String) (word : Document) (answer : Answer)

/-- A handle as it is shown. -/
structure HandleView where
  version : Option Version
  pending : Bool
  closed : Bool
  deriving DecidableEq

/-- A coordinator as it is shown. -/
structure CoordinatorView where
  queries : Nat
  pending : Nat
  cached : Nat
  schemaVersion : Option Nat
  asyncError : Option Failure
  config : Except Failure ConfigView

/-- The state of everything that has a label. -/
structure Status where
  handles : List (String × HandleView)
  /-- By path and registry, or by the label they are held under; none if there is none now. -/
  coordinators : List (String × Option CoordinatorView)
  /-- How many entries each registry has. -/
  registries : List (String × Nat)

/-- What is reported after a command. -/
structure Report where
  answer : Answer
  notices : List Notice
  status : Status

end Session

end SnapshotCoordination
