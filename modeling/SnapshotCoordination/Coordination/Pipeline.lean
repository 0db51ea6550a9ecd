import SnapshotCoordination.Coordination.Querying
import SnapshotCoordination.Replay.ChangeRecorder

/-!
# Keeping queries up to date

A new query waits, with its version held on the advancer cursor, until the next change cycle.
A cycle imports the waiting queries in the order of their versions: the advancer steps from one
version to the next and each query is attached to it there, then both cursors are brought to
one target. On its way there the query cursor replays the logs exactly once, to a recorder, so
every query of the cycle is run over the same changes. A query that is ahead of the latest
version goes on waiting.

A cycle that cannot go on captures its failure. Until it is cleared no cycle replays anything;
queries then just wait in main rotation for the failure to be delivered to them.
-/

namespace SnapshotCoordination

namespace Step

/-- The coordinator as it is. -/
def coordinator (c : CoordinatorId) : Step Coordinator := return (← world).coordinator c

/-- Change a coordinator. -/
def onCoordinator (c : CoordinatorId) (f : Coordinator → Coordinator) : Step Unit :=
  update (·.onCoordinator c f)

/-- Do a step; if it fails, capture that the background could not read. -/
def capturing (c : CoordinatorId) (s : Step Unit) : Step Unit := do
  match ← s.attempt with
  | .ok () => return
  | .error failure =>
    onCoordinator c fun s => { s with asyncError := some (s.backgroundFailure failure) }

/-! ## Cursors of the coordinator -/

/-- Start to read on the query cursor. -/
def beginQueryRead (c : CoordinatorId) (cursor : Cursor) (asked : Option Version) : Step Unit := do
  let cursor ← ofExcept (cursor.beginRead ((← world).fileOf cursor) asked)
  onCoordinator c fun s => { s with queryCursor := some cursor }

/-- Start to read on the advancer. -/
def beginAdvancerRead (c : CoordinatorId) (cursor : Cursor) (asked : Option Version) :
    Step Unit := do
  let cursor ← ofExcept (cursor.beginRead ((← world).fileOf cursor) asked)
  onCoordinator c fun s => { s with advancer := some cursor }

/-- Move the advancer silently, and give the version it reached. -/
def stepAdvancer (c : CoordinatorId) (asked : Option Version) : Step (Option Version) := do
  match (← coordinator c).advancer with
  | none => fail (.storage (.cursorNotOpen .advancer))
  | some cursor => do
    let cursor ← ofExcept (cursor.advance ((← world).fileOf cursor) asked)
    onCoordinator c fun s => { s with advancer := some cursor }
    return cursor.current

/-- Move the query cursor while a recorder is fed the logs, and give what the recorder saw. -/
def replayQueryCursor (c : CoordinatorId) (asked : Option Version) (recorder : ChangeRecorder) :
    Step Changes := do
  match (← coordinator c).queryCursor with
  | none => fail (.storage (.cursorNotOpen .query))
  | some cursor => do
    let replay := cursor.follow ((← world).fileOf cursor) asked recorder
    update (·.setFile cursor.file replay.file)
    let cursor ← ofExcept replay.outcome
    onCoordinator c fun s => { s with queryCursor := some cursor }
    return replay.reader.changes

/-! ## Dead queries -/

/-- Let go of the dead queries of both lists, in the order in which a sweep finds them. A cursor
whose list this empties stops reading. Once no query is left, a captured failure that is not a
consistency failure is forgotten: there is nobody left to report it to. -/
def cleanUp (c : CoordinatorId) : Step Unit := do
  let dead := fun (w : World) q => !(w.query q).alive
  let w ← world
  let (queries, gone) := sweep (dead w) (w.coordinator c).queries
  gone.forM releaseQuery
  onCoordinator c fun s =>
    { s with
      queries := queries
      queryCursor :=
        if !gone.isEmpty && queries.isEmpty then s.queryCursor.map (·.endRead) else s.queryCursor }
  let (newQueries, gone) := sweep (dead w) (w.coordinator c).newQueries
  gone.forM releaseQuery
  onCoordinator c fun s =>
    { s with
      newQueries := newQueries
      advancer :=
        if !gone.isEmpty && newQueries.isEmpty then s.advancer.map (·.endRead) else s.advancer }
  onCoordinator c fun s =>
    if s.queries.isEmpty && s.newQueries.isEmpty then
      { s with asyncError := s.asyncError.filter (·.isConsistency) }
    else s

/-! ## Registration -/

/-- Hold a version on the advancer: it has to read the earliest version that a waiting query
needs. -/
def pinVersion (c : CoordinatorId) (config : Config) (version : Version) : Step Unit := do
  let s ← coordinator c
  if s.asyncError.isSome then return
  else
    capturing c do
      match s.advancer with
      | none => do
        let cursor ← openCursorAt config (some version)
        onCoordinator c fun s => { s with advancer := some cursor }
      | some cursor =>
        if s.newQueries.isEmpty then beginAdvancerRead c cursor (some version)
        else if cursor.current.elim true (version < ·) then do
          onCoordinator c fun s => { s with advancer := some cursor.endRead }
          beginAdvancerRead c cursor.endRead (some version)
        else return

/-- Take a query in. It waits for the next change cycle; a failure to hold its version is
captured, and the query waits all the same. -/
def registerQuery (c : CoordinatorId) (q : QueryId) : Step Unit := do
  let config ← ofExcept (← coordinator c).config?
  let version := ((← world).query q).version
  cleanUp c
  pinVersion c config version
  onCoordinator c fun s => { s with newQueries := s.newQueries ++ [q] }

/-! ## The order of an import -/

end Step

namespace World

/-- Place a query behind those whose versions are not later than its own. -/
def placeByVersion (w : World) (q : QueryId) : List QueryId → List QueryId
  | [] => [q]
  | p :: rest =>
    if (w.query p).version ≤ (w.query q).version then p :: w.placeByVersion q rest
    else q :: p :: rest

/-- Queries by ascending version; queries of the same version keep their order. -/
def sortByVersion (w : World) (queries : List QueryId) : List QueryId :=
  queries.foldl (fun sorted q => w.placeByVersion q sorted) []

end World

namespace Step

/-! ## Change cycles -/

/-- Have the query cursor read: it is opened at the latest version if there is none, and started
again there if it does not read or no query depends on where it is. -/
def readyQueryCursor (c : CoordinatorId) (config : Config) : Step Unit :=
  capturing c do
    let s ← coordinator c
    match s.queryCursor with
    | none => do
      let cursor ← openCursorAt config none
      onCoordinator c fun s => { s with queryCursor := some cursor }
    | some cursor =>
      if s.queries.isEmpty || !cursor.isReading then beginQueryRead c cursor none else return

/-- All waiting queries join main rotation as they are. -/
def abandonImport (c : CoordinatorId) : Step Unit :=
  onCoordinator c fun s => { s with queries := s.queries ++ s.newQueries, newQueries := [] }

/-- Import the waiting queries that are not ahead of the latest version, and bring the query
cursor to the latest version while a recorder is fed the logs. -/
def importAndReplay (c : CoordinatorId) (config : Config) (recorder : ChangeRecorder) :
    Step Changes := do
  let s ← coordinator c
  if s.queryCursor.isNone then fail (.storage (.cursorNotOpen .query))
  else if s.newQueries.isEmpty then replayQueryCursor c none recorder
  else do
    let latest ← latestVersion config
    let w ← world
    let waiting := w.sortByVersion s.newQueries
    let ready := waiting.takeWhile fun q => (w.query q).version ≤ latest
    let deferred := waiting.dropWhile fun q => (w.query q).version ≤ latest
    onCoordinator c fun s => { s with newQueries := deferred }
    if s.advancer.isNone then fail (.storage (.cursorNotOpen .advancer))
    else do
      ready.forM fun q => do
        let version ← stepAdvancer c (some (w.query q).version)
        attach q version
      let target ← stepAdvancer c (some latest)
      let changes ← replayQueryCursor c target recorder
      ready.forM fun q => do
        detach q
        attach q ((← coordinator c).queryCursor.bind (·.current))
      onCoordinator c fun s =>
        { s with
          queries := s.queries ++ ready
          advancer := if deferred.isEmpty then s.advancer.map (·.endRead) else s.advancer }
      return changes

/-- The queries to run in a cycle, and the changes to run them over. -/
structure Cycle where
  queries : List QueryId
  changes : Changes

/-- Everything in a cycle up to the runs: none if there is nothing to run. -/
def beginCycle (c : CoordinatorId) : Step (Option Cycle) := do
  match (← coordinator c).config with
  | none => return none
  | some config => do
    cleanUp c
    let s ← coordinator c
    if s.queries.isEmpty && s.newQueries.isEmpty then return none
    else do
      if s.asyncError.isNone then readyQueryCursor c config
      if (← coordinator c).asyncError.isSome then do
        abandonImport c
        return none
      else do
        let w ← world
        let observed := (s.queries ++ s.newQueries).flatMap fun q => (w.query q).observed
        match ← (importAndReplay c config (.observing observed)).attempt with
        | .ok changes => return some ⟨(← coordinator c).queries, changes⟩
        | .error failure => do
          let captured := if failure.isConsistency then failure else s.backgroundFailure failure
          onCoordinator c fun s => { s with asyncError := some captured }
          abandonImport c
          fail captured

/-- Everything in a cycle after the runs. -/
def concludeCycle (c : CoordinatorId) (queries : List QueryId) : Step Unit := do
  queries.forM handOver
  cleanUp c

end Step

namespace Action

/-- One change cycle. -/
def runCycle (c : CoordinatorId) : Action Unit := do
  match ← Step.beginCycle c with
  | none => return
  | some cycle => do
    cycle.queries.forM (runQuery cycle.changes)
    Step.concludeCycle c cycle.queries

end Action

end SnapshotCoordination
