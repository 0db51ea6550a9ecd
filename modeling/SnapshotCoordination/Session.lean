import SnapshotCoordination.Session.Client

/-!
# Sessions

`Session.perform` carries out one command; the scripts played meanwhile carry out theirs, nested
in the operation that called back. Since a script is used up when it is played, commands nest no
deeper than there are scripts.

After each command a report says what it answered, what happened meanwhile, and where
everything that has a label stands now.
-/

namespace SnapshotCoordination

namespace Session

/-! ## Commands -/

/-- The answer to an operation. -/
def answerOf {α : Type} (f : α → Answer) : Except Failure α → Answer
  | .ok a => f a
  | .error failure => .failed failure

/-- Carry out an action, the client answering its callbacks. -/
def act {α : Type} (client : Callback → Session → Session) (a : Action α) (f : α → Answer)
    (s : Session) : Session × Answer :=
  let (s, outcome) := drive client (a s.world) s
  (s, answerOf f outcome)

/-- Do an action while a handle is kept alive. -/
def keeping {α : Type} (h : HandleId) (a : Action α) : Action α := do
  Step.update (·.retainHandle h)
  a.ensuring (·.releaseHandle h)

/-- Carry out an action on the handle of a label, which is kept alive meanwhile. -/
def actOnHandle {α : Type} (client : Callback → Session → Session) (label : String)
    (a : HandleId → Action α) (f : α → Answer) (s : Session) : Session × Answer :=
  match s.handleOf label with
  | .error answer => (s, answer)
  | .ok h => act client (keeping h (a h)) f s

/-- Carry out an action on a coordinator, which is kept alive meanwhile. -/
def actOnCoordinator {α : Type} (client : Callback → Session → Session) (ref : CoordinatorRef)
    (a : CoordinatorId → Action α) (f : α → Answer) (s : Session) : Session × Answer :=
  match s.coordinatorOf ref with
  | (s, .error answer) => (s, answer)
  | (s, .ok c) => act client ((a c).ensuring (·.releaseCoordinator c)) f s

/-- Give a handle a label, of which it is the first if the handle is new. -/
def nameHandle (s : Session) (label : String) (h : HandleId) : Session × Answer :=
  let isNew := (s.firstLabels.lookup h).isNone
  let s :=
    { s with
      handles := s.handles.set label h
      firstLabels := if isNew then s.firstLabels ++ [(h, label)] else s.firstLabels }
  (s, .opened (s.firstLabel h) isNew (s.world.handle h).version?)

/-- Ask for a handle on a thread and give it a label. -/
def openHandle (client : Callback → Session → Session) (thread : Thread) (label : String)
    (route : OpenRoute) (s : Session) : Session × Answer :=
  let asked (ask : Step HandleId) (s : Session) : Session × Answer :=
    match drive client (Action.ofStep ask s.world) s with
    | (s, .ok h) => s.nameHandle label h
    | (s, .error failure) => (s, .failed failure)
  let askedOf (ref : CoordinatorRef) (ask : CoordinatorId → Step HandleId) (s : Session) :
      Session × Answer :=
    match s.coordinatorOf ref with
    | (s, .error answer) => (s, answer)
    | (s, .ok c) =>
      let (s, answer) := asked (ask c) s
      ({ s with world := s.world.releaseCoordinator c }, answer)
  if s.handles.has label || s.firstLabels.any (·.2 == label) then (s, .badInput)
  else
    match route with
    | .coordinator ref request =>
      let (s, config) := s.configOf request
      askedOf ref (fun c => Step.getHandle c thread config) s
    | .canonical ref => askedOf ref (fun c => Step.getCanonicalHandle c thread) s
    | .process request =>
      let (s, config) := s.configOf request
      let (s, r) := s.registryOf processRegistry
      asked (Step.openFile r thread config) (s.lookUp processRegistry request.path)

/-- The query of a label, made if there is none. -/
def queryOf (s : Session) (label : String) (config : Option Config) (version : Version)
    (observed : List ListKey) (onRun onCallback : List Script) : Session × QueryId :=
  match s.queries.find? label with
  | some q => (s, q)
  | none =>
    let q := s.world.queries.size
    ({ s with
        world := { s.world with queries := s.world.queries.push (.made config observed version) }
        queries := s.queries.set label q
        queryScripts := s.queryScripts.push ⟨label, onRun, onCallback⟩ }, q)

/-- A configuration as it is shown. -/
def viewConfig (s : Session) (c : Config) : ConfigView :=
  ⟨c.path, c.readOnly, c.inMemory, c.encryptionKey.map fun key => (key.length, key.head?),
    c.schemaVersion, c.cache, c.engine.bind s.engineLabel⟩

/-- Place a text in a list of ascending texts. -/
def placeText (t : String) : List String → List String
  | [] => [t]
  | u :: rest => if u < t then u :: placeText t rest else t :: u :: rest

/-- Hold on to a coordinator, whose reference is the caller's, under a label. -/
def holdCoordinator (s : Session) (label : String) (c : CoordinatorId) : Session × Answer :=
  let same := ((s.held.entries.filter (·.2 == c)).map (·.1)).foldr placeText []
  let before := s.held.find? label
  let coordinator := s.world.coordinator c
  let s := { s with held := s.held.set label c }
  ({ s with world := before.elim s.world s.world.releaseCoordinator },
    .held coordinator.path same coordinator.render)

/-- The command itself, and the thread it is carried out on: the one it names, else the main
thread, whatever thread the operation runs on that it is nested in. -/
def placed : Command → Thread × Command
  | .onThread label command =>
    let (thread, command) := placed command
    (some (thread.getD label), command)
  | command => (none, command)

/-- Carry out a command on a thread, the client answering callbacks. -/
def carryOut (client : Callback → Session → Session) (thread : Thread) (command : Command)
    (s : Session) : Session × Answer :=
  match command with
  | .openHandle label route => openHandle client thread label route s
  | .dropHandle label =>
    match s.handles.find? label with
    | none => (s, .flag false)
    | some h =>
      ({ s with handles := s.handles.erase label, world := s.world.releaseHandle h }, .flag true)
  | .closeHandle label =>
    match s.handleOf label with
    | .error answer => (s, answer)
    | .ok h => ({ s with world := s.world.closeHandle h }, .done)
  | .commit label log => actOnHandle client label (Action.commit · log) .version s
  | .commitUnannounced request log =>
    let (s, config) := s.configOf request
    act client (Step.askEngine config fun _ x => x.commit config.path log) .version s
  | .register label (.handle handle) version observed onRun onCallback =>
    match s.handleOf handle with
    | .error answer => (s, answer)
    | .ok h =>
      let x := s.world.handle h
      let version := version.getD (x.version?.getD .unset)
      let (s, q) := s.queryOf label (some x.config) version observed onRun onCallback
      actOnHandle client handle (Action.registerQuery · q) (fun _ => .done) s
  | .register label (.coordinator ref) version observed onRun onCallback =>
    match s.coordinatorOf ref with
    | (s, .error answer) => (s, answer)
    | (s, .ok c) =>
      let config := (s.world.coordinator c).config
      let (s, q) := s.queryOf label config (version.getD .unset) observed onRun onCallback
      act client (Action.ensuring (Step.registerQuery c q) (·.releaseCoordinator c))
        (fun _ => .done) s
  | .kill label =>
    match s.queries.find? label with
    | none => (s, .badInput)
    | some q => ({ s with world := s.world.onQuery q ({ · with alive := false }) }, .done)
  | .setVersion label version =>
    match s.queries.find? label with
    | none => (s, .badInput)
    | some q => ({ s with world := s.world.onQuery q ({ · with version := version }) }, .done)
  | .refresh label => actOnHandle client label Action.refresh (fun _ => .done) s
  | .deliver label => actOnHandle client label Action.deliverAvailable (fun _ => .done) s
  | .advanceToReady label ref =>
    match s.handleOf label with
    | .error answer => (s, answer)
    | .ok h => actOnCoordinator client ref (fun c => keeping h (Action.advanceToReady c h)) .flag s
  | .processAvailable label ref =>
    match s.handleOf label with
    | .error answer => (s, answer)
    | .ok h =>
      actOnCoordinator client ref (fun c => keeping h (Action.processAvailable c h))
        (fun _ => .done) s
  | .watch label silent onAvailable onDidChange =>
    match s.handleOf label with
    | .error answer => (s, answer)
    | .ok h =>
      let context := s.watchers.size
      let watcher : Watcher :=
        if silent then ⟨label, true, [], []⟩ else ⟨label, false, onAvailable, onDidChange⟩
      ({ s with
          watchers := s.watchers.push watcher
          world := s.world.onHandle h fun x => { x with context := some context } }, .done)
  | .unwatch label =>
    match s.handleOf label with
    | .error answer => (s, answer)
    | .ok h => ({ s with world := s.world.onHandle h fun x => { x with context := none } }, .done)
  | .onChange ref => actOnCoordinator client ref Action.onChange (fun _ => .done) s
  | .notify ref => actOnCoordinator client ref Action.sendNotifications (fun _ => .done) s
  | .hold label ref =>
    match s.coordinatorOf ref with
    | (s, .error answer) => (s, answer)
    | (s, .ok c) => s.holdCoordinator label c
  | .holdExisting label registry path =>
    let (s, r) := s.registryOf registry
    let s := s.lookUp registry path
    match s.world.findCoordinator r path with
    | none => (s, .done)
    | some c => { s with world := s.world.retainCoordinator c }.holdCoordinator label c
  | .releaseHeld label =>
    match s.held.find? label with
    | none => (s, .flag false)
    | some c =>
      ({ s with held := s.held.erase label, world := s.world.releaseCoordinator c }, .flag true)
  | .reset label =>
    let (s, r) := s.registryOf label
    ({ s with world := s.world.resetRegistry r }, .done)
  | .measure label =>
    let (s, r) := s.registryOf label
    (s, .size (s.world.registry r).size)
  | .failCursors label on =>
    let (s, e) := s.engineOf label
    ({ s with world := s.world.setEngine e { s.world.engine e with cursorsFail := on } }, .done)
  | .failNotifiers label on =>
    let (s, e) := s.engineOf label
    ({ s with world := s.world.setEngine e { s.world.engine e with notifiersFail := on } }, .done)
  | .stats label path =>
    let (s, e) := s.engineOf label
    let engine := (s.world.engine e).touch (FilePath.key path)
    let file := engine.file (FilePath.key path)
    ({ s with world := s.world.setEngine e engine },
      .stats file.commits.length file.replays file.listeners.length engine.render)
  | .info label =>
    match s.handleOf label with
    | .error answer => (s, answer)
    | .ok h =>
      let x := s.world.handle h
      let coordinator :=
        match x.coordinator with
        | some c => .ok (s.world.coordinator c).path
        | none => .error (.closed x.config.path)
      (s, .info x.config.path (s.viewConfig x.config) (x.thread.getD "main") coordinator)
  | .onThread .. => (s, .badInput)
  | .unreadable _ => (s, .badInput)

/-- Carry out a command, scripts nesting at most `depth` deep. -/
def perform : Nat → Command → Session → Session × Answer
  | 0, command, s =>
    let (thread, command) := placed command
    carryOut (fun _ s => s.catchUp) thread command s
  | depth + 1, command, s =>
    let (thread, command) := placed command
    carryOut (answerCallback (perform depth)) thread command s

/-! ## Reports -/

/-- A coordinator as it is shown. -/
def viewCoordinator (s : Session) (c : CoordinatorId) : CoordinatorView :=
  let x := s.world.coordinator c
  { queries := x.queries.length
    pending := x.newQueries.length
    cached := x.cached.length
    schemaVersion := x.schemaVersion?
    asyncError := x.asyncError
    config := x.config?.map s.viewConfig }

/-- A handle as it is shown. -/
def viewHandle (s : Session) (h : HandleId) : HandleView :=
  let x := s.world.handle h
  ⟨x.version?, x.pending, !x.isOpen⟩

/-- Where everything that has a label stands. -/
def status (s : Session) : Status :=
  let found := s.lookups.map fun (registry, path) =>
    let c := (s.registries.find? registry).bind (s.world.findCoordinator · path)
    (registry ++ ":" ++ path, c.map s.viewCoordinator)
  let held := s.held.entries.map fun (label, c) => ("held:" ++ label, some (s.viewCoordinator c))
  { handles := s.handles.entries.map fun (label, h) => (label, s.viewHandle h)
    coordinators := found ++ held
    registries := s.registries.entries.map fun (label, r) => (label, (s.world.registry r).size) }

/-- Carry out commands one after the other, with a report after each. -/
def runFrom (depth : Nat) : List Command → Session → List Report
  | [], _ => []
  | c :: rest, s =>
    let (s, answer) := perform depth c s
    let s := s.catchUp
    ⟨answer, s.notices, s.status⟩ :: runFrom depth rest { s with notices := [] }

/-- A whole session: its commands from the start, with a report after each. -/
def run (commands : List Command) : List Report :=
  runFrom (Command.scriptsIn commands) commands start

end Session

end SnapshotCoordination
