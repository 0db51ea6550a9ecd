import SnapshotCoordination.Coordination.Sweep
import SnapshotCoordination.Coordination.World

/-!
# References

Taking and giving up references to handles, coordinators and notifiers, and what happens when
the last one is given up:

* a handle is closed: it stops reading, its coordinator forgets it, and its reference to the
  coordinator is given up;
* a coordinator is swept out of its registry, and its reference to its notifier is given up;
* a notifier takes the registrations of its listener off its file.

None of this calls out to client code.
-/

namespace SnapshotCoordination

namespace World

/-! ## Notifiers -/

def retainNotifier (w : World) (n : NotifierId) : World :=
  w.onNotifier n fun x => { x with refs := x.refs + 1 }

/-- The registrations of a notifier's listener are taken off its file. -/
def retireNotifier (w : World) (n : NotifierId) : World :=
  let x := w.notifier n
  w.setFile x.file ((w.file x.file).unlisten w.isAliveCoordinator x.listener)

def releaseNotifier (w : World) (n : NotifierId) : World :=
  let w := w.onNotifier n fun x => { x with refs := x.refs - 1 }
  if (w.notifier n).refs = 0 then w.retireNotifier n else w

/-- The coordinator gives its notifier up. -/
def dropNotifier (w : World) (c : CoordinatorId) : World :=
  match (w.coordinator c).notifier with
  | some n => (w.onCoordinator c fun s => { s with notifier := none }).releaseNotifier n
  | none => w

/-! ## Coordinators -/

def retainCoordinator (w : World) (c : CoordinatorId) : World :=
  w.onCoordinator c fun s => { s with refs := s.refs + 1 }

/-- Sweep the coordinators that are gone out of a registry. -/
def sweepRegistry (w : World) (r : RegistryId) : World :=
  w.setRegistry r ((w.registry r).filter w.isAliveCoordinator)

/-- A coordinator without references goes. -/
def retireCoordinator (w : World) (c : CoordinatorId) : World :=
  (w.sweepRegistry (w.coordinator c).registry).dropNotifier c

def releaseCoordinator (w : World) (c : CoordinatorId) : World :=
  let w := w.onCoordinator c fun s => { s with refs := s.refs - 1 }
  if (w.coordinator c).refs = 0 then w.retireCoordinator c else w

/-! ## Handles -/

def retainHandle (w : World) (h : HandleId) : World :=
  w.onHandle h fun x => { x with refs := x.refs + 1 }

/-- A coordinator forgets a handle, and every handle that is gone. -/
def forgetHandle (w : World) (c : CoordinatorId) (h : HandleId) : World :=
  let gone := fun (e : CacheEntry) => !w.isAliveHandle e.handle || e.handle == h
  w.onCoordinator c fun s => { s with cached := (sweep gone s.cached).1 }

/-- Stop reading and leave the coordinator. To close a handle twice is to close it once. -/
def closeHandle (w : World) (h : HandleId) : World :=
  let w' := w.onHandle h fun x => { x with cursor := none, coordinator := none }
  match (w.handle h).coordinator with
  | some c => (w'.forgetHandle c h).releaseCoordinator c
  | none => w'

def releaseHandle (w : World) (h : HandleId) : World :=
  let w := w.onHandle h fun x => { x with refs := x.refs - 1 }
  if (w.handle h).refs = 0 then w.closeHandle h else w

end World

end SnapshotCoordination
