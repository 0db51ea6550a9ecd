import SnapshotCoordination.Coordination.Registry

/-!
# Opening handles

A coordinator hands out handles. The first open that succeeds fixes the canonical configuration
and, unless the file is opened read-only, registers for commits; later opens have to agree with
it. An open may adopt its configuration anew when the canonical one is read-only and no handle
is remembered, and when it is writable but the notifier was given up.

The adoption is put into effect only once the open has succeeded, so an open that fails leaves
the coordinator as it was.
-/

namespace SnapshotCoordination

/-! ## Storage services -/

namespace Step

/-- Ask an engine, which may change in the process. -/
def askEngine {α : Type} (config : Config) (ask : EngineId → Engine → Engine × α) : Step α := do
  let e ← ofExcept config.engine?
  let w ← world
  let (engine, answer) := ask e (w.engine e)
  update (·.setEngine e engine)
  return answer

/-- Open a cursor on the file of a configuration. -/
def openCursor (config : Config) : Step Cursor := do
  let opened ← askEngine config fun e x => x.openCursor e config.path
  ofExcept opened

/-- The latest version of the file of a configuration. -/
def latestVersion (config : Config) : Step Version :=
  askEngine config fun _ x => x.latest config.path

/-- Open a cursor that reads the version asked for, or the latest one. -/
def openCursorAt (config : Config) (asked : Option Version) : Step Cursor := do
  let cursor ← openCursor config
  let w ← world
  ofExcept (cursor.beginRead (w.fileOf cursor) asked)

/-- Make a notifier for a coordinator, with one reference to it. A refusal of the engine is
reported as a failure to get at the file. -/
def makeNotifier (c : CoordinatorId) (config : Config) : Step NotifierId := do
  let e ← ofExcept config.engine?
  let listening ← askEngine config fun _ x => x.listen config.path c
  match listening with
  | .ok key =>
    let w ← world
    update fun w => { w with notifiers := w.notifiers.push ⟨⟨e, key⟩, c, 1⟩ }
    return w.notifiers.size
  | .error failure => fail (.access config.path failure.message)

end Step

/-! ## Adoption -/

namespace Coordinator

/-- Whether the next open decides the canonical configuration. -/
def adoptsNext (s : Coordinator) : Bool :=
  match s.config with
  | none => true
  | some canonical => if canonical.readOnly then s.cached.isEmpty else s.notifier.isNone

/-- Put an adopted configuration, and the notifier made for it, into effect. -/
def adopt (s : Coordinator) (config : Config) (notifier : Option NotifierId) : Coordinator :=
  { s with config := some config, notifier := notifier.or s.notifier }

end Coordinator

/-- A configuration about to be adopted, with the notifier made for it. -/
structure Adoption where
  config : Config
  notifier : Option NotifierId
  deriving DecidableEq

namespace Step

/-- Decide whether to adopt a configuration; if not, it has to agree with the canonical one. -/
def prepareAdoption (c : CoordinatorId) (config : Config) : Step (Option Adoption) := do
  let s := (← world).coordinator c
  if s.adoptsNext then
    if !config.readOnly && s.notifier.isNone then
      let n ← makeNotifier c config
      return some ⟨config, some n⟩
    else return some ⟨config, none⟩
  else
    match s.config with
    | some canonical => do
      ofExcept (canonical.checkCompatible config)
      return none
    | none => return none

/-- Put an adoption into effect. -/
def applyAdoption (c : CoordinatorId) : Option Adoption → Step Unit
  | some adoption => update (·.onCoordinator c (·.adopt adoption.config adoption.notifier))
  | none => return

/-- Give an adoption up. -/
def abandonAdoption : Option Adoption → Step Unit
  | some ⟨_, some n⟩ => update (·.releaseNotifier n)
  | _ => return

end Step

/-! ## Handing out handles -/

namespace World

/-- The first handle in the cache that may be handed out to a thread again. -/
def reusableHandle (w : World) (c : CoordinatorId) (thread : Thread) : Option HandleId :=
  (((w.coordinator c).cached.filter fun e => e.reusable && e.thread == thread).map (·.handle)).find?
    w.isAliveHandle

end World

namespace Step

/-- Make a handle that reads the latest version, with one reference to it. -/
def makeHandle (c : CoordinatorId) (thread : Thread) (config : Config) : Step HandleId := do
  let cursor ← openCursorAt config none
  let w ← world
  update fun w =>
    { w with handles := w.handles.push ⟨config, thread, 1, some cursor, some c, none, false⟩ }
  update (·.retainCoordinator c)
  return w.handles.size

/-- Remember a handle. Whether it may be handed out again is up to the canonical
configuration. -/
def rememberHandle (c : CoordinatorId) (h : HandleId) (thread : Thread) : Step Unit :=
  update (·.onCoordinator c fun s =>
    { s with cached := s.cached ++ [⟨h, thread, s.config.elim true (·.cache)⟩] })

/-- A handle for a thread, by a configuration; the caller gets a reference. -/
def getHandle (c : CoordinatorId) (thread : Thread) (config : Config) : Step HandleId := do
  let adoption ← prepareAdoption c config
  let w ← world
  match if config.cache then w.reusableHandle c thread else none with
  | some h => do
    update (·.retainHandle h)
    applyAdoption c adoption
    return h
  | none => do
    match ← (makeHandle c thread config).attempt with
    | .ok h => do
      applyAdoption c adoption
      rememberHandle c h thread
      return h
    | .error failure => do
      abandonAdoption adoption
      fail failure

/-- A handle for a thread, by the canonical configuration. -/
def getCanonicalHandle (c : CoordinatorId) (thread : Thread) : Step HandleId := do
  let config ← ofExcept ((← world).coordinator c).config?
  getHandle c thread config

/-- Open a file by a configuration, in a registry. -/
def openFile (r : RegistryId) (thread : Thread) (config : Config) : Step HandleId := do
  match config.fault? with
  | some fault => fail (.invalidConfig fault)
  | none => do
    let (w, c) := (← world).getCoordinator r config.path
    update fun _ => w
    let opened ← (getHandle c thread config).attempt
    update (·.releaseCoordinator c)
    ofExcept opened

/-- The coordinator of an open handle; the caller gets a reference. -/
def coordinatorOf (h : HandleId) : Step CoordinatorId := do
  let x := (← world).handle h
  match x.coordinator with
  | some c => do
    update (·.retainCoordinator c)
    return c
  | none => fail (.closed x.config.path)

end Step

end SnapshotCoordination
