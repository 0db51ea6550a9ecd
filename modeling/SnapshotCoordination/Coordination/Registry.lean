import SnapshotCoordination.Coordination.Ownership
import SnapshotCoordination.Coordination.Step

/-!
# Registries

A registry leads from the path of a file to the coordinator of that file, so that all handles of
the file meet in one coordinator however the path is spelled. It does not keep a coordinator
alive, and it is swept when a coordinator goes.
-/

namespace SnapshotCoordination

namespace World

/-- The coordinator of a path, if one is alive. -/
def findCoordinator (w : World) (r : RegistryId) (path : String) : Option CoordinatorId :=
  ((w.registry r).find? (FilePath.key path)).filter w.isAliveCoordinator

/-- The coordinator of a path, made if none is alive; the caller gets a reference. -/
def getCoordinator (w : World) (r : RegistryId) (path : String) : World × CoordinatorId :=
  match w.findCoordinator r path with
  | some c => (w.retainCoordinator c, c)
  | none =>
    let key := FilePath.key path
    let c := w.coordinators.size
    let w := { w with coordinators := w.coordinators.push (.made key r) }
    (w.setRegistry r ((w.registry r).set key c), c)

/-- The live handles that a coordinator remembers, in the order of its cache. -/
def liveHandles (w : World) (c : CoordinatorId) : List HandleId :=
  ((w.coordinator c).cached.map (·.handle)).filter w.isAliveHandle

/-- Close every handle of every coordinator of a registry, and empty the registry. The
coordinators give their notifiers up first, so that no commit reaches them any more. -/
def resetRegistry (w : World) (r : RegistryId) : World :=
  let coordinators := ((w.registry r).entries.map (·.2)).filter w.isAliveCoordinator
  let handles := coordinators.flatMap w.liveHandles
  let w := coordinators.foldl (fun w c => (w.retainCoordinator c).dropNotifier c) w
  let w := handles.foldl retainHandle w
  let w := w.setRegistry r .empty
  let w := coordinators.foldl releaseCoordinator w
  handles.foldl (fun w h => (w.closeHandle h).releaseHandle h) w

end World

end SnapshotCoordination
