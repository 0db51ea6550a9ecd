import SnapshotCoordination.Config
import SnapshotCoordination.Coordination.Table
import SnapshotCoordination.Diff.Changes
import SnapshotCoordination.QuotedText
import SnapshotCoordination.Storage.Engine

/-!
# The state of a process

A process works on storage engines through handles. All handles of one file meet in a
coordinator, which a registry finds by the path of the file. The coordinator keeps the
canonical configuration, a cache of the open handles, the commit notifier, and the two cursors
and two lists with which queries are kept up to date in the background.

`World` holds every such object by identity. Objects hold on to one another by counted
references: a handle, a coordinator or a notifier is *alive* as long as its count is not zero,
and what is only remembered, such as a handle in a cache or a coordinator in a registry, is
not counted. What queries and binding contexts are asked to do is appended to `trace`.
-/

namespace SnapshotCoordination

abbrev RegistryId := Nat
abbrev CoordinatorId := Nat
abbrev HandleId := Nat
abbrev NotifierId := Nat
abbrev QueryId := Nat
abbrev ContextId := Nat

/-- A thread, by its label; the main thread has none. -/
abbrev Thread := Option String

/-! ## Objects -/

/-- One thread's view of a file. The handle is open while it has a cursor. -/
structure Handle where
  config : Config
  thread : Thread
  refs : Nat
  cursor : Option Cursor
  coordinator : Option CoordinatorId
  /-- Whom to call when there is something new. -/
  context : Option ContextId
  /-- Whether a commit was announced since the last refresh. -/
  pending : Bool
  deriving DecidableEq

/-- A handle that was never opened. -/
instance : Inhabited Handle := ⟨⟨.blank, none, 0, none, none, none, false⟩⟩

namespace Handle

def isOpen (h : Handle) : Bool := h.cursor.isSome

/-- The version the handle reads. -/
def version? (h : Handle) : Option Version := h.cursor.bind (·.current)

end Handle

/-- A handle as its coordinator remembers it. -/
structure CacheEntry where
  handle : HandleId
  thread : Thread
  /-- Whether the handle may be handed out again. -/
  reusable : Bool
  deriving DecidableEq

/-- What all handles of a file share. -/
structure Coordinator where
  /-- The key of the path it was made for. -/
  path : String
  registry : RegistryId
  refs : Nat
  /-- The canonical configuration, once a handle was opened. -/
  config : Option Config
  cached : List CacheEntry
  notifier : Option NotifierId
  /-- Taken to the latest version once per change cycle. -/
  queryCursor : Option Cursor
  /-- Holds the earliest version of a query that waits for its import. -/
  advancer : Option Cursor
  /-- The failure captured in the background, to be reported to every query. -/
  asyncError : Option Failure
  /-- The queries in main rotation. -/
  queries : List QueryId
  /-- The queries registered but not imported yet. -/
  newQueries : List QueryId
  deriving DecidableEq

namespace Coordinator

/-- A coordinator nobody has opened a handle with. -/
def made (path : String) (registry : RegistryId) : Coordinator :=
  ⟨path, registry, 1, none, [], none, none, none, none, [], []⟩

instance : Inhabited Coordinator := ⟨{ made "" 0 with refs := 0 }⟩

/-- The captured form of a failure to read in the background. -/
def backgroundFailure (s : Coordinator) (failure : Failure) : Failure :=
  .asyncOpen s.path failure.message

/-- The canonical configuration, without which nothing is open. -/
def config? (s : Coordinator) : Except Failure Config :=
  match s.config with
  | some config => .ok config
  | none => .error (.notOpen s.path)

/-- The schema version of the open file, while any handle is remembered. -/
def schemaVersion? (s : Coordinator) : Option Nat :=
  if s.cached.isEmpty then none else s.config.bind (·.schemaVersion)

/-- What a coordinator shows of itself. -/
def render (s : Coordinator) : String :=
  "RealmCoordinator \x7b path: " ++ QuotedText.quote s.path ++ ", .. \x7d"

end Coordinator

/-- Wakes the listeners of a file; made for one of them. -/
structure Notifier where
  file : FileId
  listener : CoordinatorId
  refs : Nat
  deriving DecidableEq

instance : Inhabited Notifier := ⟨⟨⟨0, ""⟩, 0, 0⟩⟩

/-- A query. It computes nothing; it remembers at which version it ran, which version it handed
over, and to whom it delivered that version. -/
structure Query where
  /-- The configuration of the file it reads, if it has one. -/
  config : Option Config
  observed : List ListKey
  /-- The version it was registered with, later the version of its results. -/
  version : Version
  /-- Whether anyone but a coordinator still refers to it. -/
  alive : Bool
  ranAt : Option Version
  handedOver : Option Version
  delivered : List (HandleId × Version)
  deriving DecidableEq

namespace Query

/-- A query before its registration. -/
def made (config : Option Config) (observed : List ListKey) (version : Version) : Query :=
  ⟨config, observed, version, true, none, none, []⟩

instance : Inhabited Query := ⟨made none [] .unset⟩

/-- Hand the results of the last run over. -/
def handOver (q : Query) : Query :=
  match q.ranAt with
  | some v => { q with handedOver := some v, version := v }
  | none => q

/-- Deliver to a handle at a version: whether callbacks are due. A failure is always news;
results are if they are for this version and were not delivered to this handle before. -/
def deliver (q : Query) (h : HandleId) (version : Version) (failure : Option Failure) :
    Query × Bool :=
  if failure.isSome then (q, true)
  else if q.handedOver ≠ some version then (q, false)
  else if q.delivered.contains (h, version) then (q, false)
  else ({ q with delivered := q.delivered ++ [(h, version)] }, true)

end Query

/-! ## What is asked of queries and contexts -/

/-- One request to a query or a binding context, in the order of `World.trace`. -/
inductive Event where
  /-- The query is attached to a cursor that reads this version. -/
  | attach (query : QueryId) (version : Option Version)
  | detach (query : QueryId)
  | run (query : QueryId) (changes : Changes)
  /-- The query hands its results over; this is the version it has handed over now. -/
  | handOver (query : QueryId) (version : Option Version)
  | deliver (query : QueryId) (handle : HandleId) (version : Version) (failure : Option Failure)
      (due : Bool)
  | callbacks (query : QueryId)
  | release (query : QueryId)
  | available (context : ContextId)
  | didChange (context : ContextId)
  deriving DecidableEq

/-! ## World -/

/-- All objects of a process. -/
structure World where
  engines : Table Engine
  /-- For each registry, the coordinators by the keys of their paths. -/
  registries : Table (Directory CoordinatorId)
  coordinators : Table Coordinator
  handles : Table Handle
  notifiers : Table Notifier
  queries : Table Query
  trace : List Event
  deriving DecidableEq

namespace World

/-- The state of a process before it does anything. -/
def start : World := ⟨.empty, .empty, .empty, .empty, .empty, .empty, []⟩

instance : Inhabited World := ⟨start⟩

def engine (w : World) (e : EngineId) : Engine := w.engines.get e
def registry (w : World) (r : RegistryId) : Directory CoordinatorId := w.registries.get r
def coordinator (w : World) (c : CoordinatorId) : Coordinator := w.coordinators.get c
def handle (w : World) (h : HandleId) : Handle := w.handles.get h
def notifier (w : World) (n : NotifierId) : Notifier := w.notifiers.get n
def query (w : World) (q : QueryId) : Query := w.queries.get q

def setEngine (w : World) (e : EngineId) (x : Engine) : World :=
  { w with engines := w.engines.modify e fun _ => x }

def setRegistry (w : World) (r : RegistryId) (x : Directory CoordinatorId) : World :=
  { w with registries := w.registries.modify r fun _ => x }

def onCoordinator (w : World) (c : CoordinatorId) (f : Coordinator → Coordinator) : World :=
  { w with coordinators := w.coordinators.modify c f }

def onHandle (w : World) (h : HandleId) (f : Handle → Handle) : World :=
  { w with handles := w.handles.modify h f }

def onNotifier (w : World) (n : NotifierId) (f : Notifier → Notifier) : World :=
  { w with notifiers := w.notifiers.modify n f }

def onQuery (w : World) (q : QueryId) (f : Query → Query) : World :=
  { w with queries := w.queries.modify q f }

/-- The file of an identity. -/
def file (w : World) (f : FileId) : File := (w.engine f.engine).file f.key

def setFile (w : World) (f : FileId) (x : File) : World :=
  w.setEngine f.engine ((w.engine f.engine).setFile f.key x)

/-- The file a cursor looks at. -/
def fileOf (w : World) (c : Cursor) : File := w.file c.file

/-- Append to the trace. -/
def note (w : World) (e : Event) : World := { w with trace := w.trace ++ [e] }

def isAliveCoordinator (w : World) (c : CoordinatorId) : Bool := 0 < (w.coordinator c).refs

def isAliveHandle (w : World) (h : HandleId) : Bool := 0 < (w.handle h).refs

end World

end SnapshotCoordination
