import SnapshotCoordination.Coordination.World
import SnapshotCoordination.Document

/-!
# Commands of a session

A session drives a process from outside. Everything goes by label: engines, registries,
threads, handles, held coordinators and queries. A query or a watched handle can be given
scripts; each time client code gets control at one of its callbacks, the next script is played,
nested in the operation that called back.
-/

namespace SnapshotCoordination

namespace Session

/-- A configuration, with its engine by label. -/
structure Request where
  path : String
  readOnly : Bool
  inMemory : Bool
  encryptionKey : Option (List Nat)
  schemaVersion : Option Nat
  cache : Bool
  engine : Option String
  deriving DecidableEq

/-- How a command names a coordinator: by the label it is held under, by a handle, or by a path
in a registry, where it is made if there is none. -/
inductive CoordinatorRef where
  | held (label : String)
  | ofHandle (label : String)
  | atPath (registry path : String)
  deriving DecidableEq

/-- How a handle is asked for. -/
inductive OpenRoute where
  /-- From a coordinator, by a configuration. -/
  | coordinator (ref : CoordinatorRef) (request : Request)
  /-- From a coordinator, by its canonical configuration. -/
  | canonical (ref : CoordinatorRef)
  /-- By a configuration, through the registry of the process. -/
  | process (request : Request)
  deriving DecidableEq

/-- Whom a query is registered with. -/
inductive RegisterRoute where
  | handle (label : String)
  | coordinator (ref : CoordinatorRef)
  deriving DecidableEq

/-- One command. -/
inductive Command where
  | openHandle (label : String) (route : OpenRoute)
  | dropHandle (label : String)
  | closeHandle (label : String)
  | commit (handle : String) (log : Log)
  /-- A commit to the engine itself, which is announced to nobody. -/
  | commitUnannounced (request : Request) (log : Log)
  | register (query : String) (route : RegisterRoute) (version : Option Version)
      (observed : List ListKey) (onRun onCallback : List (List Command))
  | kill (query : String)
  | setVersion (query : String) (version : Version)
  | refresh (handle : String)
  | deliver (handle : String)
  | advanceToReady (handle : String) (on : CoordinatorRef)
  | processAvailable (handle : String) (on : CoordinatorRef)
  | watch (handle : String) (silent : Bool) (onAvailable onDidChange : List (List Command))
  | unwatch (handle : String)
  | onChange (ref : CoordinatorRef)
  | notify (ref : CoordinatorRef)
  | hold (label : String) (ref : CoordinatorRef)
  /-- Hold the coordinator of a path only if there is one. -/
  | holdExisting (label registry path : String)
  | releaseHeld (label : String)
  | reset (registry : String)
  | measure (registry : String)
  | failCursors (engine : String) (on : Bool)
  | failNotifiers (engine : String) (on : Bool)
  | stats (engine path : String)
  | info (handle : String)
  /-- A command that is made on a thread of its own. -/
  | onThread (thread : String) (command : Command)
  /-- A command that cannot be read, by what stands in the place of its word. -/
  | unreadable (word : Document)

instance : Inhabited Command := ⟨.unreadable .null⟩

/-- The commands played at one callback. -/
abbrev Script := List Command

namespace Command

/-- The word a command goes by, or what stands in its place. -/
def word : Command → Document
  | openHandle .. => .text "open"
  | dropHandle _ => .text "drop"
  | closeHandle _ => .text "close"
  | commit .. => .text "commit"
  | commitUnannounced .. => .text "commit_ext"
  | register .. => .text "register"
  | kill _ => .text "kill"
  | setVersion .. => .text "set_version"
  | refresh _ => .text "refresh"
  | deliver _ => .text "deliver"
  | advanceToReady .. => .text "advance_to_ready"
  | processAvailable .. => .text "process_available"
  | watch .. => .text "watch"
  | unwatch _ => .text "unwatch"
  | onChange _ => .text "on_change"
  | notify _ => .text "notify"
  | hold .. => .text "hold"
  | holdExisting .. => .text "hold"
  | releaseHeld _ => .text "release"
  | reset _ => .text "reset"
  | measure _ => .text "registry"
  | failCursors .. => .text "fail_cursor_open"
  | failNotifiers .. => .text "fail_notifier"
  | stats .. => .text "stats"
  | info _ => .text "info"
  | onThread _ command => command.word
  | unreadable word => word

mutual

/-- How many scripts a command brings along, those inside its scripts included. -/
def scripts : Command → Nat
  | register _ _ _ _ onRun onCallback => scriptsInAll onRun + scriptsInAll onCallback
  | watch _ _ onAvailable onDidChange => scriptsInAll onAvailable + scriptsInAll onDidChange
  | onThread _ command => command.scripts
  | _ => 0

/-- How many scripts the commands of a script bring along. -/
def scriptsIn : List Command → Nat
  | [] => 0
  | c :: rest => c.scripts + scriptsIn rest

/-- How many scripts there are in a list of scripts. -/
def scriptsInAll : List (List Command) → Nat
  | [] => 0
  | s :: rest => 1 + scriptsIn s + scriptsInAll rest

end

end Command

end Session

end SnapshotCoordination
