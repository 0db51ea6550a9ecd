import SnapshotCoordination.Coordination.Opening

/-!
# What is asked of a query

The requests a coordinator makes of a query. Each is noted in the trace; only a run and a call
of the callbacks hand control to client code.
-/

namespace SnapshotCoordination

namespace Step

/-- Attach a query to a cursor, which reads the given version. -/
def attach (q : QueryId) (version : Option Version) : Step Unit := note (.attach q version)

/-- Detach a query from whatever it is attached to. -/
def detach (q : QueryId) : Step Unit := note (.detach q)

/-- Let a query hand over the results of its last run. -/
def handOver (q : QueryId) : Step Unit := do
  update (·.onQuery q (·.handOver))
  note (.handOver q ((← world).query q).handedOver)

/-- Let a query deliver to a handle, and say whether its callbacks are due. A captured failure
is delivered in place of results. -/
def deliver (q : QueryId) (h : HandleId) (version : Version) (failure : Option Failure) :
    Step Bool := do
  let (query, due) := ((← world).query q).deliver h version failure
  update (·.onQuery q fun _ => query)
  note (.deliver q h version failure due)
  return due

/-- Let go of a query that is dead. -/
def releaseQuery (q : QueryId) : Step Unit := note (.release q)

/-- A query has run: its results are for the latest version of its file, if it has one. -/
def concludeRun (q : QueryId) : Step Unit := do
  let ranAt ←
    match ((← world).query q).config with
    | some config => (latestVersion config).attempt
    | none => pure (.error (.storage .noActiveRead))
  update (·.onQuery q fun x => { x with ranAt := ranAt.toOption })

end Step

namespace Action

/-- Run a query over changes. -/
def runQuery (changes : Changes) (q : QueryId) : Action Unit := do
  Step.note (.run q changes)
  callOut (.run q)
  Step.concludeRun q

/-- Let a query call its callbacks. -/
def callCallbacks (q : QueryId) : Action Unit := do
  Step.note (.callbacks q)
  callOut (.callbacks q)

end Action

end SnapshotCoordination
