import SnapshotCoordination.Proofs.Coordination.Undisturbed

/-!
# Counting references

An action on a handle keeps the coordinator of the handle alive meanwhile: it takes a reference to
it first and gives that up at the end. Even where that was the last one, so that the coordinator
goes and its registrations are taken off the file, no handle, no query and no commit is touched and
nobody is told (`recounted_retainCoordinator`, `recounted_releaseCoordinator`).

* **`Action.finish_withCoordinator`** — so an action on an open handle comes to what is done with
  its coordinator, however its callbacks are answered.
-/

namespace SnapshotCoordination

/-- References to coordinators and notifiers were taken or given up, and nothing else happened that
a handle or a query would notice. -/
structure Recounted (w w' : World) : Prop where
  handles : w'.handles = w.handles
  queries : w'.queries = w.queries
  trace : w'.trace = w.trace
  commits : ∀ f, (w'.file f).commits = (w.file f).commits
  config : ∀ c, (w'.coordinator c).config = (w.coordinator c).config
  background : ∀ c, (w'.coordinator c).background = (w.coordinator c).background

namespace Recounted

variable {w w' w'' : World}

theorem refl (w : World) : Recounted w w :=
  ⟨rfl, rfl, rfl, fun _ => rfl, fun _ => rfl, fun _ => rfl⟩

theorem trans (h : Recounted w w') (h' : Recounted w' w'') : Recounted w w'' where
  handles := h'.handles.trans h.handles
  queries := h'.queries.trans h.queries
  trace := h'.trace.trans h.trace
  commits f := (h'.commits f).trans (h.commits f)
  config c := (h'.config c).trans (h.config c)
  background c := (h'.background c).trans (h.background c)

theorem handle (h : Recounted w w') (i : HandleId) : w'.handle i = w.handle i :=
  World.handle_congr h.handles i

theorem query (h : Recounted w w') (q : QueryId) : w'.query q = w.query q := by
  unfold World.query
  rw [h.queries]

end Recounted

section References

variable (w : World)

theorem recounted_onCoordinator (c : CoordinatorId) {f : Coordinator → Coordinator}
    (hconfig : ∀ s, (f s).config = s.config) (hbackground : ∀ s, (f s).background = s.background) :
    Recounted w (w.onCoordinator c f) := by
  refine ⟨rfl, rfl, rfl, fun _ => rfl, fun d => ?_, fun d => ?_⟩ <;>
    rw [World.coordinator_onCoordinator] <;> split
  · next hd => rw [hconfig, hd]
  · rfl
  · next hd => rw [hbackground, hd]
  · rfl

theorem recounted_retireNotifier (n : NotifierId) : Recounted w (w.retireNotifier n) := by
  refine ⟨rfl, rfl, rfl, fun f => ?_, fun _ => rfl, fun _ => rfl⟩
  unfold World.retireNotifier
  rw [World.file_setFile]
  split
  · next hf => rw [hf]; rfl
  · rfl

theorem recounted_releaseNotifier (n : NotifierId) : Recounted w (w.releaseNotifier n) := by
  have hcount : Recounted w (w.onNotifier n fun x => { x with refs := x.refs - 1 }) :=
    ⟨rfl, rfl, rfl, fun _ => rfl, fun _ => rfl, fun _ => rfl⟩
  dsimp only [World.releaseNotifier]
  split
  · exact hcount.trans (recounted_retireNotifier _ n)
  · exact hcount

theorem recounted_dropNotifier (c : CoordinatorId) : Recounted w (w.dropNotifier c) := by
  unfold World.dropNotifier
  split
  · have hforgotten : Recounted w (w.onCoordinator c fun s => { s with notifier := none }) :=
      recounted_onCoordinator w c (fun _ => rfl) fun _ => rfl
    exact hforgotten.trans (recounted_releaseNotifier _ _)
  · exact .refl w

theorem recounted_retainCoordinator (c : CoordinatorId) : Recounted w (w.retainCoordinator c) :=
  recounted_onCoordinator w c (fun _ => rfl) fun _ => rfl

theorem recounted_releaseCoordinator (c : CoordinatorId) : Recounted w (w.releaseCoordinator c) := by
  have hcount : Recounted w (w.onCoordinator c fun s => { s with refs := s.refs - 1 }) :=
    recounted_onCoordinator w c (fun _ => rfl) fun _ => rfl
  have hsweep : ∀ (w : World) r, Recounted w (w.sweepRegistry r) := fun w r =>
    ⟨rfl, rfl, rfl, fun _ => rfl, fun _ => rfl, fun _ => rfl⟩
  dsimp only [World.releaseCoordinator]
  split
  · exact (hcount.trans (hsweep _ _)).trans (recounted_dropNotifier _ c)
  · exact hcount

end References

/-! ## Actions on a handle -/

namespace Step

theorem run_coordinatorOf (h : HandleId) (w : World) :
    (coordinatorOf h).run w =
      match (w.handle h).coordinator with
      | some c => (w.retainCoordinator c, .ok c)
      | none => (w, .error (.closed (w.handle h).config.path)) := by
  unfold coordinatorOf
  rw [run_bind_ok (run_world w)]
  dsimp only
  cases (w.handle h).coordinator <;> rfl

end Step

theorem Run.finish_attempt {α : Type} (client : Callback → World → World) (r : Run α) :
    r.attempt.finish client = ((r.finish client).1, .ok (r.finish client).2) := by
  induction r with
  | «over» w outcome => rfl
  | waiting callback w resume ih => exact ih (client callback w)

namespace Action

variable {α β : Type} (client : Callback → World → World)

theorem finish_bind (a : Action α) (f : α → Action β) (w : World) :
    ((a >>= f).begin w).finish client =
      match (a.begin w).finish client with
      | (w', .ok x) => ((f x).begin w').finish client
      | (w', .error failure) => (w', .error failure) :=
  Run.finish_andThen client (a.begin w) f

theorem finish_bind_ok {a : Action α} {f : α → Action β} {w w' : World} {x : α}
    (h : (a.begin w).finish client = (w', .ok x)) :
    ((a >>= f).begin w).finish client = ((f x).begin w').finish client := by
  rw [finish_bind, h]

theorem finish_bind_error {a : Action α} {f : α → Action β} {w w' : World} {failure : Failure}
    (h : (a.begin w).finish client = (w', .error failure)) :
    ((a >>= f).begin w).finish client = (w', .error failure) := by
  rw [finish_bind, h]

theorem finish_step_ok {s : Step α} {f : α → Action β} {w w' : World} {x : α}
    (h : s.run w = (w', .ok x)) :
    ((ofStep s >>= f).begin w).finish client = ((f x).begin w').finish client :=
  finish_bind_ok client (a := ofStep s) h

theorem finish_step_error {s : Step α} {f : α → Action β} {w w' : World} {failure : Failure}
    (h : s.run w = (w', .error failure)) :
    ((ofStep s >>= f).begin w).finish client = (w', .error failure) :=
  finish_bind_error client (a := ofStep s) h

theorem finish_ensuring (a : Action α) (after : World → World) (w : World) :
    ((a.ensuring after).begin w).finish client =
      (after ((a.begin w).finish client).1, ((a.begin w).finish client).2) := by
  have hattempt : (a.attempt.begin w).finish client =
      (((a.begin w).finish client).1, .ok ((a.begin w).finish client).2) :=
    Run.finish_attempt client (a.begin w)
  exact finish_bind_ok client hattempt

theorem finish_withCoordinator_of_closed {h : HandleId} {w : World}
    (hclosed : (w.handle h).coordinator = none) (act : CoordinatorId → Action α) :
    ((withCoordinator h act).begin w).finish client =
      (w, .error (.closed (w.handle h).config.path)) := by
  have hfailed : (Step.coordinatorOf h).run w = (w, .error (.closed (w.handle h).config.path)) := by
    rw [Step.run_coordinatorOf, hclosed]
  exact finish_step_error client hfailed

/-- **An action on an open handle** comes to what is done with its coordinator. -/
theorem finish_withCoordinator {h : HandleId} {w : World} {c : CoordinatorId}
    (hopen : (w.handle h).coordinator = some c) (act : CoordinatorId → Action α) :
    ((withCoordinator h act).begin w).finish client =
      let result := ((act c).begin (w.retainCoordinator c)).finish client
      (result.1.releaseCoordinator c, result.2) := by
  have hfound : (Step.coordinatorOf h).run w = (w.retainCoordinator c, .ok c) := by
    rw [Step.run_coordinatorOf, hopen]
  exact (finish_step_ok client hfound).trans (finish_ensuring client (act c) _ _)

end Action

end SnapshotCoordination
