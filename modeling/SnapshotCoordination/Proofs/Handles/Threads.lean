import SnapshotCoordination.Proofs.Handles.Counting
import SnapshotCoordination.Proofs.Handles.Lasting

/-!
# Handles stay on their threads

Whatever happens to a handle, it is on the thread on which it was made.

* **`Moment.sameThreads_perform`** — no section takes a handle to another thread;
* **`Call.sameThreads_perform`** — nor does any call.
-/

namespace SnapshotCoordination

/-- Every handle that was made before is on the thread on which it was then. -/
def World.SameThreads (w w' : World) : Prop :=
  ∀ h < w.handles.size, h < w'.handles.size ∧ (w'.handle h).thread = (w.handle h).thread

namespace World

instance : IsPreorder World SameThreads where
  refl _ _ hmade := ⟨hmade, rfl⟩
  trans _ _ _ h h' i hmade :=
    ⟨(h' i (h i hmade).1).1, (h' i (h i hmade).1).2.trans (h i hmade).2⟩

theorem sameThreads_of_handles {w w' : World} (h : w'.handles = w.handles) : w.SameThreads w' := by
  intro i hmade
  rw [handle_congr h, h]
  exact ⟨hmade, rfl⟩

variable (w : World)

theorem sameThreads_onHandle (h : HandleId) {f : Handle → Handle}
    (hf : ∀ x : Handle, (f x).thread = x.thread) : w.SameThreads (w.onHandle h f) := fun i hmade =>
  ⟨Nat.lt_of_lt_of_le hmade (w.handles.size_le_modify h f), w.read_onHandle (·.thread) hf h i⟩

/-! ## References -/

theorem sameThreads_retainHandle (h : HandleId) : w.SameThreads (w.retainHandle h) :=
  w.sameThreads_onHandle h fun _ => rfl

theorem sameThreads_closeHandle (h : HandleId) : w.SameThreads (w.closeHandle h) := by
  refine fun i hmade => ⟨Nat.lt_of_lt_of_le hmade (w.onward_closeHandle h).made, ?_⟩
  rw [handle_closeHandle]
  split
  · next hi => rw [hi]; rfl
  · rfl

theorem sameThreads_releaseHandle (h : HandleId) : w.SameThreads (w.releaseHandle h) := by
  have hcount := w.sameThreads_onHandle h (f := fun x => { x with refs := x.refs - 1 }) fun _ => rfl
  dsimp only [releaseHandle]
  split
  · exact trans_of SameThreads hcount (sameThreads_closeHandle _ h)
  · exact hcount

theorem sameThreads_resetRegistry (r : RegistryId) : w.SameThreads (w.resetRegistry r) :=
  w.rel_resetRegistry r
    (fun w c => sameThreads_of_handles
      ((recounted_retainCoordinator w c).trans (recounted_dropNotifier _ c)).handles)
    sameThreads_retainHandle (fun _ => sameThreads_of_handles rfl)
    (fun w c => sameThreads_of_handles (recounted_releaseCoordinator w c).handles)
    fun w h => trans_of SameThreads (sameThreads_closeHandle w h) (sameThreads_releaseHandle _ h)

end World

/-! ## Opening and moving -/

namespace Step

/-- A handle that is made is a new one. -/
theorem sameThreads_getHandle (c : CoordinatorId) (thread : Thread) (config : Config) :
    (getHandle c thread config).Stays World.SameThreads := by
  intro w
  rcases handles_getHandle c thread config w with hsame | ⟨h, hretained⟩ | ⟨f, -, hpushed⟩
  · exact World.sameThreads_of_handles hsame
  · exact trans_of World.SameThreads (w.sameThreads_retainHandle h)
      (World.sameThreads_of_handles hretained)
  · intro i hmade
    rw [World.handle_push hpushed, if_neg (Nat.ne_of_lt hmade), hpushed, Table.size_push]
    exact ⟨Nat.lt_add_right 1 hmade, rfl⟩

theorem sameThreads_moveHandle (h : HandleId) (asked : Option Version) :
    (moveHandle h asked).Stays World.SameThreads := by
  refine .bind .world fun w => ?_
  dsimp only
  split
  · exact .fail _
  · exact .bind (.update fun _ => World.sameThreads_of_handles rfl) fun _ =>
      .bind (.ofExcept _) fun _ =>
        .bind (.update fun w => w.sameThreads_onHandle h fun _ => rfl) fun _ => .pure _

end Step

/-! ## Sections and calls -/

theorem covers_sameThreads (c : CoordinatorId) : Covers c World.SameThreads where
  looked h := World.sameThreads_of_handles h.handles
  file _ _ _ _ _ := World.sameThreads_of_handles rfl
  coordinator _ _ _ := World.sameThreads_of_handles rfl
  query _ _ _ := World.sameThreads_of_handles rfl
  told _ _ _ := World.sameThreads_of_handles rfl

theorem Chore.sameThreads_perform (w : World) (x : Chore) : w.SameThreads (x.perform w) := by
  have hsame : (x.perform w).handles = w.handles → w.SameThreads (x.perform w) :=
    World.sameThreads_of_handles
  cases x with
  | getCoordinator r path => exact hsame (w.handles_getCoordinator r path)
  | releaseCoordinator c => exact hsame (recounted_releaseCoordinator w c).handles
  | retainHandle h => exact w.sameThreads_retainHandle h
  | releaseHandle h => exact w.sameThreads_releaseHandle h
  | closeHandle h => exact w.sameThreads_closeHandle h
  | releaseNotifier n => exact hsame (w.handles_releaseNotifier n)
  | resetRegistry r => exact w.sameThreads_resetRegistry r
  | getHandle c thread config => exact Step.sameThreads_getHandle c thread config w
  | commit config log =>
    exact hsame (Step.stays_askEngine (R := World.SameHandles) config _ (fun _ _ => rfl) w)
  | moveHandle h asked => exact Step.sameThreads_moveHandle h asked w
  | settle c h =>
    exact Step.stays_settle_of (Step.sameThreads_moveHandle h)
      ((covers_sameThreads c).deliverAll h) c w
  | deliverHere c h =>
    exact Step.stays_deliverHere_of ((covers_sameThreads c).deliverAll h) c w
  | setPending h pending => exact w.sameThreads_onHandle h fun _ => rfl
  | setContext h context => exact w.sameThreads_onHandle h fun _ => rfl
  | concludeRun q => exact (covers_sameThreads 0).concludeRun q w
  | _ => exact hsame rfl

/-- **No section** takes a handle to another thread. -/
theorem Moment.sameThreads_perform (m : Moment) (s : Section) :
    m.world.SameThreads (m.perform s).world :=
  m.perform_of_covers covers_sameThreads s fun x _ => x.sameThreads_perform m.world

/-- **Nor does any call.** -/
theorem Call.sameThreads_perform (w : World) (x : Call) : w.SameThreads (x.perform w) :=
  perform_of_sections Moment.sameThreads_perform w x

end SnapshotCoordination
