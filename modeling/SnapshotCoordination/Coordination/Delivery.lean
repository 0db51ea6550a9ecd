import SnapshotCoordination.Coordination.Pipeline

/-!
# Delivering results

A refresh moves a handle to the version the queries were last run at, or to the latest version
if no query has run at any, and lets the queries deliver there. A handle that is past that
version stays where it is, and gets nothing unless a failure is captured. A handle moves only
over logs that the schema guard takes in.
-/

namespace SnapshotCoordination

namespace Step

/-- Move a handle to the version asked for, or to the latest one, behind a schema guard; give
the version it was at and the version it reached. -/
def moveHandle (h : HandleId) (asked : Option Version) :
    Step (Option Version × Option Version) := do
  let w ← world
  let x := w.handle h
  match x.cursor with
  | none => fail (.closed x.config.path)
  | some cursor => do
    let replay := cursor.follow (w.fileOf cursor) asked SchemaGuard.fresh
    update (·.setFile cursor.file replay.file)
    let moved ← ofExcept replay.outcome
    update (·.onHandle h fun x => { x with cursor := some moved })
    return (cursor.current, moved.current)

/-- Let queries deliver to a handle, and keep those whose callbacks are due. -/
def deliverAll (h : HandleId) (version : Version) (failure : Option Failure) :
    List QueryId → Step (List QueryId)
  | [] => return []
  | q :: rest => do
    let due ← deliver q h version failure
    let dueRest ← deliverAll h version failure rest
    return if due then q :: dueRest else dueRest

/-- The earliest version that a query in main rotation has set. -/
def readyVersion (c : CoordinatorId) : Step (Option Version) := do
  let w ← world
  let versions := (w.coordinator c).queries.map fun q => (w.query q).version
  return Version.earliest? (versions.filter (!·.isUnset))

/-- Move a handle to where the queries are ready, and let them deliver. Gives whether the handle
moved and the queries whose callbacks are due. -/
def settle (c : CoordinatorId) (h : HandleId) : Step (Bool × List QueryId) := do
  let s ← coordinator c
  match ← readyVersion c with
  | none => do
    let (before, after) ← moveHandle h none
    return (before != after, [])
  | some target => do
    let x := (← world).handle h
    let (moved, version) ←
      if x.version?.any (target < ·) then pure (false, x.version?)
      else do
        let (before, after) ← moveHandle h (some target)
        pure (before != after, after)
    if version != some target && s.asyncError.isNone then return (false, [])
    else return (moved, ← deliverAll h (version.getD target) s.asyncError s.queries)

/-- Let the queries deliver to a handle where it is. -/
def deliverHere (c : CoordinatorId) (h : HandleId) : Step (List QueryId) := do
  let x := (← world).handle h
  match x.version? with
  | none => fail (.closed x.config.path)
  | some version => do
    let s ← coordinator c
    deliverAll h version s.asyncError s.queries

end Step

namespace Action

/-- Move a handle to where the queries are ready, let them deliver and call the callbacks that
are due; give whether the handle moved. -/
def advanceToReady (c : CoordinatorId) (h : HandleId) : Action Bool := do
  let (moved, due) ← Step.settle c h
  due.forM callCallbacks
  return moved

/-- Let the queries deliver to a handle where it is, and call the callbacks that are due. -/
def processAvailable (c : CoordinatorId) (h : HandleId) : Action Unit := do
  let due ← Step.deliverHere c h
  due.forM callCallbacks

end Action

end SnapshotCoordination
