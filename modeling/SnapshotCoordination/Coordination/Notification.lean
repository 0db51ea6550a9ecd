import SnapshotCoordination.Coordination.Delivery

/-!
# Announcing commits

A commit is announced through the notifier of the committer's coordinator, which wakes every
coordinator that listens on the file, the committer's own included. A coordinator that is woken
runs a change cycle and then tells every handle it remembers, even if the cycle failed.
-/

namespace SnapshotCoordination

namespace Action

/-- Tell a handle that there is something new. -/
def notifyHandle (h : HandleId) : Action Unit := do
  Step.update (·.onHandle h fun x => { x with pending := true })
  match ((← Step.world).handle h).context with
  | none => return
  | some context => do
    Step.note (.available context)
    callOut (.available context)

/-- Something was committed: run a change cycle, then tell every handle. -/
def onChange (c : CoordinatorId) : Action Unit := do
  let outcome ← (runCycle c).attempt
  let handles := (← Step.world).liveHandles c
  Step.update (handles.foldl World.retainHandle ·)
  handles.forM notifyHandle
  Step.update (handles.foldl World.releaseHandle ·)
  Step.ofExcept outcome

/-- Wake every live listener of a notifier's file, in the order in which they registered. -/
def wakeListeners (n : NotifierId) : Action Unit := do
  let w ← Step.world
  let x := w.notifier n
  let file := (w.file x.file).sweepListeners w.isAliveCoordinator
  Step.update (·.setFile x.file file)
  Step.update (file.listeners.foldl World.retainCoordinator ·)
  file.listeners.forM fun c => do
    let _ ← (onChange c).attempt
    Step.update (·.releaseCoordinator c)

/-- Announce a commit to the file of a coordinator. Nobody is told if its notifier was given
up. -/
def sendNotifications (c : CoordinatorId) : Action Unit := do
  let s ← Step.coordinator c
  if s.config.any (·.readOnly) then Step.fail (.readOnly s.path)
  else
    match s.notifier with
    | none => return
    | some n => do
      Step.update (·.retainNotifier n)
      (wakeListeners n).ensuring (·.releaseNotifier n)

end Action

end SnapshotCoordination
