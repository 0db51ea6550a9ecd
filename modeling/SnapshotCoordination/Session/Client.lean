import SnapshotCoordination.Coordination.HandleActions
import SnapshotCoordination.Session.Command
import SnapshotCoordination.Session.Report

/-!
# The client of a session

A `Session` is a process together with what its client has: the labels it has given, and the
scripts it will play when it is called back. Whenever an operation hands control to client code,
the next script for that callback is played before the operation goes on (`Session.drive`). A
script is used up when it is played.
-/

namespace SnapshotCoordination

namespace Session

/-- The client's side of a query. -/
structure QueryScripts where
  label : String
  onRun : List Script
  onCallback : List Script

instance : Inhabited QueryScripts := ⟨⟨"", [], []⟩⟩

/-- The client's side of a binding context. -/
structure Watcher where
  label : String
  /-- Whether it does nothing about what it hears; it has no scripts then. -/
  silent : Bool
  onAvailable : List Script
  onDidChange : List Script

instance : Inhabited Watcher := ⟨⟨"", true, [], []⟩⟩

end Session

/-- A process, with the labels its client has given. -/
structure Session where
  world : World
  engines : Directory EngineId
  registries : Directory RegistryId
  /-- The handles the client holds on to. -/
  handles : Directory HandleId
  /-- The label each handle was given first. -/
  firstLabels : List (HandleId × String)
  /-- The coordinators the client holds on to. -/
  held : Directory CoordinatorId
  queries : Directory QueryId
  queryScripts : Table Session.QueryScripts
  watchers : Table Session.Watcher
  /-- The registries and paths by which coordinators were looked up. -/
  lookups : List (String × String)
  /-- What happened and was not reported yet. -/
  notices : List Session.Notice
  /-- How much of the trace is among the notices, or was before. -/
  told : Nat

namespace Session

/-- A session that has not begun. -/
def start : Session :=
  ⟨.start, .empty, .empty, .empty, [], .empty, .empty, .empty, .empty, [], [], 0⟩

/-- The label of the registry that the whole process shares. -/
def processRegistry : String := "global"

/-! ## Labels -/

/-- The engine of a label, made if there is none. -/
def engineOf (s : Session) (label : String) : Session × EngineId :=
  match s.engines.find? label with
  | some e => (s, e)
  | none =>
    let e := s.world.engines.size
    ({ s with
        world := { s.world with engines := s.world.engines.push .fresh }
        engines := s.engines.set label e }, e)

/-- The registry of a label, made if there is none. -/
def registryOf (s : Session) (label : String) : Session × RegistryId :=
  match s.registries.find? label with
  | some r => (s, r)
  | none =>
    let r := s.world.registries.size
    ({ s with
        world := { s.world with registries := s.world.registries.push .empty }
        registries := s.registries.set label r }, r)

/-- Remember that a coordinator was looked up. -/
def lookUp (s : Session) (registry path : String) : Session :=
  if s.lookups.contains (registry, path) then s
  else { s with lookups := s.lookups ++ [(registry, path)] }

/-- The configuration a request asks for. -/
def configOf (s : Session) (r : Request) : Session × Config :=
  match r.engine with
  | some label =>
    let (s, e) := s.engineOf label
    (s, ⟨r.path, r.readOnly, r.inMemory, r.encryptionKey, r.schemaVersion, r.cache, some e⟩)
  | none => (s, ⟨r.path, r.readOnly, r.inMemory, r.encryptionKey, r.schemaVersion, r.cache, none⟩)

/-- The label of an engine. -/
def engineLabel (s : Session) (e : EngineId) : Option String :=
  (s.engines.entries.find? (·.2 == e)).map (·.1)

/-- The label a handle was given first. -/
def firstLabel (s : Session) (h : HandleId) : String := (s.firstLabels.lookup h).getD ""

/-- What a request names does not exist, or failed to be found. -/
abbrev Found (α : Type) : Type := Session × Except Answer α

/-- The handle of a label. -/
def handleOf (s : Session) (label : String) : Except Answer HandleId :=
  match s.handles.find? label with
  | some h => .ok h
  | none => .error .badInput

/-- The coordinator a command names; the caller gets a reference. -/
def coordinatorOf (s : Session) : CoordinatorRef → Found CoordinatorId
  | .held label =>
    match s.held.find? label with
    | some c => ({ s with world := s.world.retainCoordinator c }, .ok c)
    | none => (s, .error .badInput)
  | .ofHandle label =>
    match s.handleOf label with
    | .error answer => (s, .error answer)
    | .ok h =>
      match Step.coordinatorOf h s.world with
      | (w, .ok c) => ({ s with world := w }, .ok c)
      | (w, .error failure) => ({ s with world := w }, .error (.failed failure))
  | .atPath registry path =>
    let (s, r) := s.registryOf registry
    let s := s.lookUp registry path
    let (w, c) := s.world.getCoordinator r path
    ({ s with world := w }, .ok c)

/-! ## Notices -/

/-- An event by labels, unless it is one that is kept quiet. -/
def noticeOf (s : Session) : Event → Option Notice
  | .attach q version => some (.attach (s.queryScripts.get q).label version)
  | .detach q => some (.detach (s.queryScripts.get q).label)
  | .run q changes => some (.run (s.queryScripts.get q).label changes)
  | .handOver q version => some (.handOver (s.queryScripts.get q).label version)
  | .deliver q h version failure due =>
    some (.deliver (s.queryScripts.get q).label (s.firstLabel h) version failure due)
  | .callbacks q => some (.callbacks (s.queryScripts.get q).label)
  | .release q => some (.release (s.queryScripts.get q).label)
  | .available context =>
    let watcher := s.watchers.get context
    if watcher.silent then none else some (.available watcher.label)
  | .didChange context =>
    let watcher := s.watchers.get context
    if watcher.silent then none else some (.didChange watcher.label)

/-- Take the rest of the trace into the notices. -/
def catchUp (s : Session) : Session :=
  { s with
    notices := s.notices ++ (s.world.trace.drop s.told).filterMap s.noticeOf
    told := s.world.trace.length }

/-! ## Scripts -/

/-- Change the client's side of a query. -/
def onQueryScripts (s : Session) (q : QueryId) (f : QueryScripts → QueryScripts) : Session :=
  { s with queryScripts := s.queryScripts.modify q f }

/-- Change the client's side of a binding context. -/
def onWatcher (s : Session) (context : ContextId) (f : Watcher → Watcher) : Session :=
  { s with watchers := s.watchers.modify context f }

/-- The label of a callback's scripts and the script to play now, which is used up. -/
def nextScript (s : Session) : Callback → Option (Session × String × Script)
  | .run q =>
    let x := s.queryScripts.get q
    match x.onRun with
    | [] => none
    | script :: rest => some (s.onQueryScripts q ({ · with onRun := rest }), x.label, script)
  | .callbacks q =>
    let x := s.queryScripts.get q
    match x.onCallback with
    | [] => none
    | script :: rest => some (s.onQueryScripts q ({ · with onCallback := rest }), x.label, script)
  | .available context =>
    let x := s.watchers.get context
    match x.onAvailable with
    | [] => none
    | script :: rest => some (s.onWatcher context ({ · with onAvailable := rest }), x.label, script)
  | .didChange context =>
    let x := s.watchers.get context
    match x.onDidChange with
    | [] => none
    | script :: rest => some (s.onWatcher context ({ · with onDidChange := rest }), x.label, script)

/-- Play a script, with a notice for each of its commands. -/
def play (perform : Command → Session → Session × Answer) (label : String) :
    Script → Session → Session
  | [], s => s
  | c :: rest, s =>
    let (s, answer) := perform c s
    play perform label rest { s with notices := s.notices ++ [.played label c.word answer] }

/-- What the client does at a callback: it plays the next script, if there is one. -/
def answerCallback (perform : Command → Session → Session × Answer) (callback : Callback)
    (s : Session) : Session :=
  let s := s.catchUp
  match s.nextScript callback with
  | some (s, label, script) => play perform label script s
  | none => s

/-- Let an operation run to its end, the client answering its callbacks. -/
def drive {α : Type} (client : Callback → Session → Session) :
    Run α → Session → Session × Except Failure α
  | .over w outcome, s => ({ s with world := w }.catchUp, outcome)
  | .waiting callback w resume, s =>
    let s := client callback { s with world := w }
    drive client (resume s.world) s

end Session

end SnapshotCoordination
