import SnapshotCoordination.Coordination.World

/-!
# Steps and actions

A `Step` is an operation on the world that runs to its end undisturbed: it gives the new world
and a value or a failure. What it did before it failed stays done.

An `Action` can in between hand control to client code, which may do anything it likes with
the world before the action goes on. An action that has begun is a `Run`: it is over, or it
waits for a callback to return and says how it goes on with the world it finds then. A step is
an action that never waits (`Action.ofStep`).

This is what a process does while one thread at a time has control. What threads that run at the
same time do between two locks of a step is left out.
-/

namespace SnapshotCoordination

/-! ## Steps -/

/-- An operation that runs to its end undisturbed. -/
def Step (α : Type) : Type := World → World × Except Failure α

namespace Step

variable {α β : Type}

def run (s : Step α) (w : World) : World × Except Failure α := s w

instance : Monad Step where
  pure a := fun w => (w, .ok a)
  bind s f := fun w =>
    match s w with
    | (w, .ok a) => f a w
    | (w, .error failure) => (w, .error failure)

/-- The world as it is. -/
def world : Step World := fun w => (w, .ok w)

/-- Change the world. -/
def update (f : World → World) : Step Unit := fun w => (f w, .ok ())

/-- Fail. -/
def fail (failure : Failure) : Step α := fun w => (w, .error failure)

/-- Give a value or fail, as told. -/
def ofExcept (r : Except Failure α) : Step α := fun w => (w, r)

/-- Do a step and go on, whether or not it failed. -/
def attempt (s : Step α) : Step (Except Failure α) := fun w => ((s w).1, .ok (s w).2)

/-- Append to the trace. -/
def note (e : Event) : Step Unit := update (·.note e)

end Step

/-! ## Actions -/

/-- The four places where client code gets control. -/
inductive Callback where
  /-- A query runs. -/
  | run (query : QueryId)
  /-- A query calls its callbacks. -/
  | callbacks (query : QueryId)
  /-- A binding context hears that there is something new. -/
  | available (context : ContextId)
  /-- A binding context hears that its handle moved. -/
  | didChange (context : ContextId)
  deriving DecidableEq

/-- An action that has begun. -/
inductive Run (α : Type) where
  /-- It is over, in this world and with this outcome. -/
  | over (world : World) (outcome : Except Failure α)
  /-- It waits for a callback; once that returns, it goes on in the world it finds. -/
  | waiting (callback : Callback) (world : World) (resume : World → Run α)

namespace Run

variable {α β : Type}

/-- Go on with another action once a run is over without failure. -/
def andThen : Run α → (α → World → Run β) → Run β
  | .over w (.ok a), f => f a w
  | .over w (.error failure), _ => .over w (.error failure)
  | .waiting callback w resume, f => .waiting callback w fun w' => (resume w').andThen f

/-- Turn the outcome of a run into its value. -/
def attempt : Run α → Run (Except Failure α)
  | .over w outcome => .over w (.ok outcome)
  | .waiting callback w resume => .waiting callback w fun w' => (resume w').attempt

/-- Let every callback be answered by `client`, and give the world and the outcome at the end. -/
def finish (client : Callback → World → World) : Run α → World × Except Failure α
  | .over w outcome => (w, outcome)
  | .waiting callback w resume => (resume (client callback w)).finish client

end Run

/-- An operation that can hand control to client code in between. -/
def Action (α : Type) : Type := World → Run α

namespace Action

variable {α : Type}

def begin (a : Action α) (w : World) : Run α := a w

instance : Monad Action where
  pure a := fun w => .over w (.ok a)
  bind a f := fun w => (a w).andThen f

/-- A step as an action. -/
def ofStep (s : Step α) : Action α := fun w => .over (s w).1 (s w).2

instance : MonadLift Step Action := ⟨ofStep⟩

/-- Do an action and go on, whether or not it failed. -/
def attempt (a : Action α) : Action (Except Failure α) := fun w => (a w).attempt

/-- Hand control to client code. -/
def callOut (callback : Callback) : Action Unit := fun w =>
  .waiting callback w fun w' => .over w' (.ok ())

/-- Do an action, and after it a change of the world, whether or not the action failed. -/
def ensuring (a : Action α) (after : World → World) : Action α := do
  let outcome ← a.attempt
  ofStep (.update after)
  ofStep (.ofExcept outcome)

/-- Run an action whose callbacks do nothing. -/
def quietly (a : Action α) (w : World) : World × Except Failure α :=
  (a w).finish fun _ w => w

end Action

end SnapshotCoordination
