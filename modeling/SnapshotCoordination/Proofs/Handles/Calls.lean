import SnapshotCoordination.Proofs.Handles.Borrowing
import SnapshotCoordination.Proofs.Handles.Linking

/-!
# One call at a time

Client code asks for one thing at a time (`Call`), and its callbacks do nothing. It holds on to
handles and coordinators, and gives up no reference that it does not have; of notifiers it knows
nothing (`Call.Allowed`). Then, between any two calls, all references are counted, all handles agree,
and whoever is registered is alive:

* **`Orderly.perform`** — every call keeps a process orderly;
* **`Orderly.after`** — so does every row of calls.
-/

namespace SnapshotCoordination

/-! ## Calls -/

/-- Something that client code can ask for. -/
inductive Call where
  | chore (x : Chore)
  | kill (q : QueryId)
  | setVersion (q : QueryId) (version : Version)
  | register (c : CoordinatorId) (q : QueryId)
  | onChange (c : CoordinatorId)
  | sendNotifications (c : CoordinatorId)
  | advanceToReady (c : CoordinatorId) (h : HandleId)
  | processAvailable (c : CoordinatorId) (h : HandleId)
  | openFile (r : RegistryId) (thread : Thread) (config : Config)
  | getCanonicalHandle (c : CoordinatorId) (thread : Thread)
  | commit (h : HandleId) (log : Log)
  | refresh (h : HandleId)
  | deliverAvailable (h : HandleId)
  | registerQuery (h : HandleId) (q : QueryId)
  deriving DecidableEq

namespace Call

/-- The world after a call whose callbacks do nothing. -/
def perform (w : World) : Call → World
  | chore x => x.perform w
  | kill q => w.onQuery q ({ · with alive := false })
  | setVersion q version => w.onQuery q ({ · with version := version })
  | register c q => ((Step.registerQuery c q).run w).1
  | onChange c => ((Action.onChange c).quietly w).1
  | sendNotifications c => ((Action.sendNotifications c).quietly w).1
  | advanceToReady c h => ((Action.advanceToReady c h).quietly w).1
  | processAvailable c h => ((Action.processAvailable c h).quietly w).1
  | openFile r thread config => ((Step.openFile r thread config).run w).1
  | getCanonicalHandle c thread => ((Step.getCanonicalHandle c thread).run w).1
  | commit h log => ((Action.commit h log).quietly w).1
  | refresh h => ((Action.refresh h).quietly w).1
  | deliverAvailable h => ((Action.deliverAvailable h).quietly w).1
  | registerQuery h q => ((Action.registerQuery h q).quietly w).1

/-- Client code gives up no reference that an open handle has, and it has no notifiers. -/
def Allowed (w : World) : Call → Prop
  | chore (.retainNotifier _) | chore (.releaseNotifier _) => False
  | chore x => x.Spares [] w
  | _ => True

instance (w : World) (x : Call) : Decidable (x.Allowed w) := by
  unfold Allowed
  split <;> infer_instance

/-- Whether every call of a row is allowed where it is made. -/
def AllAllowed : World → List Call → Prop
  | _, [] => True
  | w, x :: calls => x.Allowed w ∧ AllAllowed (x.perform w) calls

instance decideAllAllowed : ∀ (w : World) (calls : List Call), Decidable (AllAllowed w calls)
  | _, [] => .isTrue trivial
  | w, x :: calls =>
    have := decideAllAllowed (x.perform w) calls
    inferInstanceAs (Decidable (_ ∧ _))

end Call

/-- The world after a row of calls. -/
def World.afterCalls (w : World) (calls : List Call) : World := calls.foldl Call.perform w

/-! ## Order -/

/-- All references are counted, all handles agree, and whoever is registered is alive. -/
structure Orderly (w : World) : Prop where
  concord : Concord [] w
  linked : Linked w

namespace Orderly

variable {w w' : World}

theorem start : Orderly .start := ⟨⟨.start, .start⟩, .start⟩

theorem supported (h : Orderly w) : Supported w where
  coordinator _ _ hopen := h.concord.counted.isAlive_of_open hopen
  notifier c n hc := by
    rw [(h.linked.tuned.owned c n hc).2]
    exact Nat.one_pos

theorem sameHoldings (h : Orderly w) (hsame : SameHoldings w w') : Orderly w' :=
  ⟨h.concord.sameHoldings hsame, h.linked.sameHoldings hsame⟩

theorem retains (h : Orderly w) (hretains : Retains w w') : Orderly w' :=
  h.sameHoldings (hretains h.supported)

theorem chore (h : Orderly w) {x : Chore} (hx : Call.Allowed w (.chore x)) :
    Orderly (x.perform w) := by
  have hspares : x.Spares [] w := by
    cases x <;> first | exact hx | exact hx.elim
  refine ⟨h.concord.chore hspares, h.linked.chore h.concord ?_ ?_⟩
  · rintro n rfl
    exact hx
  · rintro n rfl
    exact hx

/-- A handle is asked for while references to these coordinators are held. -/
theorem getHandle {cs : List CoordinatorId} (hconcord : Concord cs w) (hlinked : Linked w)
    (c : CoordinatorId) (thread : Thread) (config : Config) :
    Concord cs ((Step.getHandle c thread config).run w).1 ∧
      Linked ((Step.getHandle c thread config).run w).1 := by
  obtain ⟨w', outcome, hrun, hasked, hconcord'⟩ := hconcord.getHandle c thread config
  rw [hrun]
  exact ⟨hconcord', hlinked.asked hconcord hasked⟩

end Orderly

/-- A configuration that can be opened is opened with the coordinator of its path. -/
theorem Step.run_openFile {config : Config} (hfault : config.fault? = none) (r : RegistryId)
    (thread : Thread) (w : World) :
    (openFile r thread config).run w =
      let found := w.getCoordinator r config.path
      let asked := (getHandle found.2 thread config).run found.1
      (asked.1.releaseCoordinator found.2, asked.2) := by
  unfold openFile
  rw [hfault]
  rfl

namespace Orderly

variable {w : World}

theorem openFile (h : Orderly w) (r : RegistryId) (thread : Thread) (config : Config) :
    Orderly ((Step.openFile r thread config).run w).1 := by
  cases hfault : config.fault? with
  | some fault =>
    unfold Step.openFile
    rw [hfault]
    exact h
  | none =>
    rw [Step.run_openFile hfault]
    let found := w.getCoordinator r config.path
    -- the reference to the coordinator is held until the open is over
    have hfound : Concord [found.2] found.1 :=
      ⟨h.concord.counted.getCoordinator r config.path, h.concord.agreed.getCoordinator r config.path⟩
    obtain ⟨hconcord, hlinked⟩ := getHandle hfound (h.linked.getCoordinator r config.path)
      found.2 thread config
    exact ⟨hconcord.wanes (wanes_releaseCoordinator _ _) hconcord.counted.releaseCoordinator,
      hlinked.releaseCoordinator _⟩

theorem getCanonicalHandle (h : Orderly w) (c : CoordinatorId) (thread : Thread) :
    Orderly ((Step.getCanonicalHandle c thread).run w).1 := by
  unfold Step.getCanonicalHandle
  rw [Step.run_bind_ok (Step.run_world w)]
  cases hconfig : (w.coordinator c).config? with
  | error failure => exact h
  | ok config =>
    obtain ⟨hconcord, hlinked⟩ := getHandle h.concord h.linked c thread config
    exact ⟨hconcord, hlinked⟩

/-- **Every call keeps a process orderly.** -/
theorem perform (h : Orderly w) {x : Call} (hx : x.Allowed w) : Orderly (x.perform w) := by
  cases x with
  | chore x => exact h.chore hx
  | kill q => exact h.sameHoldings (.onQuery w q _)
  | setVersion q version => exact h.sameHoldings (.onQuery w q _)
  | register c q => exact h.sameHoldings ((covers_sameHoldings c).registerQuery q w)
  | onChange c => exact h.retains (Action.retains_onChange c w)
  | sendNotifications c => exact h.retains (Action.retains_sendNotifications c w)
  | advanceToReady c i => exact h.retains (Action.retains_advanceToReady c i w)
  | processAvailable c i => exact h.retains (Action.retains_processAvailable c i w)
  | openFile r thread config => exact h.openFile r thread config
  | getCanonicalHandle c thread => exact h.getCanonicalHandle c thread
  | commit i log => exact h.retains (Action.retains_commit i log w)
  | refresh i => exact h.retains (Action.retains_refresh i w)
  | deliverAvailable i => exact h.retains (Action.retains_deliverAvailable i w)
  | registerQuery i q => exact h.retains (Action.retains_registerQuery i q w)

/-- **So does every row of calls.** -/
theorem after {calls : List Call} (h : Orderly w) (hallowed : Call.AllAllowed w calls) :
    Orderly (w.afterCalls calls) := by
  induction calls generalizing w with
  | nil => exact h
  | cons x calls ih => exact ih (h.perform hallowed.1) hallowed.2

end Orderly

end SnapshotCoordination
