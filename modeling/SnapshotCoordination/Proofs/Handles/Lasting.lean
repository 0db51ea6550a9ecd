import SnapshotCoordination.Proofs.Coordination.Chores
import SnapshotCoordination.Proofs.Coordination.Reentrancy
import SnapshotCoordination.Proofs.Handles.Calls

/-!
# No coordinator is unmade

Identities are never used again: whatever happens to a process, the coordinators it has made are
counted still (`World.Lasts`), so a coordinator that is made now is unlike all those that were made
before, be they alive or not.

* **`Moment.lasts_perform`** — one section;
* **`Call.perform_of_sections`** — what holds across every section holds across every call, which is a
  row of sections, and so does this (**`Call.lasts_perform`**).
-/

namespace SnapshotCoordination

/-- No coordinator was unmade on the way from one world to the other. -/
def World.Lasts (w w' : World) : Prop := w.coordinators.size ≤ w'.coordinators.size

namespace World

instance : IsPreorder World World.Lasts where
  refl _ := Nat.le_refl _
  trans _ _ _ := Nat.le_trans

theorem lasts_of_eq {w w' : World} (h : w'.coordinators = w.coordinators) : w.Lasts w' :=
  Nat.le_of_eq (by rw [h])

variable (w : World)

theorem lasts_onCoordinator (c : CoordinatorId) (f : Coordinator → Coordinator) :
    w.Lasts (w.onCoordinator c f) := w.coordinators.size_le_modify c f

end World

theorem bears_lasts : Bears World.Lasts where
  elsewhere h _ := World.lasts_of_eq h
  changed w c f _ := w.lasts_onCoordinator c f
  made w key r := by
    show w.coordinators.size ≤ (w.coordinators.push (.made key r)).size
    rw [Table.size_push]
    exact Nat.le_succ _
  adopted w c _ _ := w.lasts_onCoordinator c _

theorem covers_lasts (c : CoordinatorId) : Covers c World.Lasts where
  looked h := World.lasts_of_eq (by rw [h.eq])
  file _ _ _ _ _ := World.lasts_of_eq rfl
  coordinator w f _ := w.lasts_onCoordinator c f
  query _ _ _ := World.lasts_of_eq rfl
  told _ _ _ := World.lasts_of_eq rfl

theorem Chore.lasts_perform (w : World) (x : Chore) : w.Lasts (x.perform w) :=
  x.perform_of_changes covers_lasts (fun _ _ => World.lasts_of_eq rfl) bears_lasts w

theorem Moment.lasts_perform (m : Moment) (s : Section) : m.world.Lasts (m.perform s).world :=
  m.perform_of_changes covers_lasts (fun _ _ => World.lasts_of_eq rfl) bears_lasts s

/-! ## Calls are rows of sections -/

section Calls

variable {R : World → World → Prop} [IsPreorder World R]

/-- An action whose callbacks do nothing is a row of sections. -/
theorem Action.quietly_of_sections (hR : ∀ m s, R m.world (Moment.perform m s).world) {α : Type}
    {a : Action α} (h : ∀ m, a.Sectioned m) (w : World) : R w (a.quietly w).1 := by
  let m : Moment := { Moment.start with world := w }
  let silent : Callback → World → World := fun _ w => w
  have hsilent : ∀ callback (m : Moment), ∃ m', m.Precedes m' ∧
      m'.world = silent callback m.world := fun _ m => ⟨m, .refl m, rfl⟩
  obtain ⟨m', ⟨sections, -, rfl⟩, hworld⟩ := (h m).finish hsilent
  have hrow : R m.world (m.after sections).world :=
    Moment.preserved_after (I := fun m' => R m.world m'.world)
      (fun m' s hm => trans_of R hm (hR m' s)) (refl_of R m.world) sections
  rw [hworld] at hrow
  exact hrow

/-- **What holds across every section** holds across every call. -/
theorem Call.perform_of_sections (hR : ∀ m s, R m.world (Moment.perform m s).world) (w : World)
    (x : Call) : R w (x.perform w) := by
  have hchore : ∀ w (x : Chore), R w (x.perform w) := fun w x =>
    hR { Moment.start with world := w } (.chore x)
  have hregister : ∀ w c q, R w ((Step.registerQuery c q).run w).1 := by
    intro w c q
    have hsection := hR { Moment.start with world := w } (.register c q)
    dsimp only [Moment.perform] at hsection
    split at hsection <;> next hrun =>
      rw [hrun]
      exact hsection
  cases x with
  | chore x => exact hchore w x
  | kill q => exact hR { Moment.start with world := w } (.kill q)
  | setVersion q version => exact hR { Moment.start with world := w } (.setVersion q version)
  | register c q => exact hregister w c q
  | onChange c => exact Action.quietly_of_sections hR (Action.sectioned_onChange c) w
  | sendNotifications c =>
    exact Action.quietly_of_sections hR (Action.sectioned_sendNotifications c) w
  | advanceToReady c h =>
    exact Action.quietly_of_sections hR (Action.sectioned_advanceToReady c h) w
  | processAvailable c h =>
    exact Action.quietly_of_sections hR (Action.sectioned_processAvailable c h) w
  | openFile r thread config =>
    exact Action.quietly_of_sections hR (Action.sectioned_openFile r thread config) w
  | getCanonicalHandle c thread =>
    exact Action.quietly_of_sections hR (Action.sectioned_getCanonicalHandle c thread) w
  | commit h log => exact Action.quietly_of_sections hR (Action.sectioned_commit h log) w
  | refresh h => exact Action.quietly_of_sections hR (Action.sectioned_refresh h) w
  | deliverAvailable h => exact Action.quietly_of_sections hR (Action.sectioned_deliverAvailable h) w
  | registerQuery h q =>
    let act : CoordinatorId → Action Unit := fun c => Step.registerQuery c q
    show R w (((Action.withCoordinator h act).begin w).finish fun _ w => w).1
    cases hcoordinator : (w.handle h).coordinator with
    | none =>
      rw [Action.finish_withCoordinator_of_closed (fun _ w => w) hcoordinator act]
      exact refl_of R w
    | some c =>
      rw [Action.finish_withCoordinator (fun _ w => w) hcoordinator act]
      exact trans_of R (hchore w (.retainCoordinator c))
        (trans_of R (hregister _ c q) (hchore _ (.releaseCoordinator c)))

end Calls

/-- **No call unmakes a coordinator.** -/
theorem Call.lasts_perform (w : World) (x : Call) : w.Lasts (x.perform w) :=
  perform_of_sections Moment.lasts_perform w x

end SnapshotCoordination
