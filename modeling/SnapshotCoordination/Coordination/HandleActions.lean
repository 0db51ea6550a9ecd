import SnapshotCoordination.Coordination.Notification

/-!
# What a handle can do

Committing, refreshing, registering queries and collecting results through a handle. All of it
goes through the handle's coordinator, so all of it fails once the handle is closed.
-/

namespace SnapshotCoordination

namespace Action

/-- Do something with the coordinator of a handle, which is kept alive meanwhile. -/
def withCoordinator {α : Type} (h : HandleId) (act : CoordinatorId → Action α) : Action α := do
  let c ← Step.coordinatorOf h
  (act c).ensuring (·.releaseCoordinator c)

/-- Commit a log, move the handle to the version it made, and announce it. -/
def commit (h : HandleId) (log : Log) : Action Version := do
  let config := ((← Step.world).handle h).config
  if config.readOnly then Step.fail (.readOnly config.path)
  else
    withCoordinator h fun c => do
      let version ← Step.askEngine config fun _ x => x.commit config.path log
      let _ ← Step.moveHandle h (some version)
      sendNotifications c
      return version

/-- Move the handle to where the queries are ready, and tell its context if it moved. -/
def refresh (h : HandleId) : Action Unit :=
  withCoordinator h fun c => do
    Step.update (·.onHandle h fun x => { x with pending := false })
    if ← advanceToReady c h then
      match ((← Step.world).handle h).context with
      | none => return
      | some context => do
        Step.note (.didChange context)
        callOut (.didChange context)
    else return

/-- Collect results for the version the handle is at. -/
def deliverAvailable (h : HandleId) : Action Unit :=
  withCoordinator h fun c => processAvailable c h

/-- Register a query with the coordinator of a handle. -/
def registerQuery (h : HandleId) (q : QueryId) : Action Unit :=
  withCoordinator h fun c => Step.registerQuery c q

end Action

end SnapshotCoordination
