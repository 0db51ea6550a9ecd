import SnapshotCoordination.Coordination.World

/-!
# What is seen after a change of the world

One lemma for each kind of object and each change that touches objects of that kind; that a change
leaves every other kind alone holds by definition. A file is seen through its engine, so a change
of one file is seen at that file only (`file_setFile`).
-/

namespace SnapshotCoordination

namespace Table

variable {α : Type} [Inhabited α]

theorem length_modifyAt (i : Nat) (f : α → α) (as : List α) :
    as.length ≤ (modifyAt i f as).length := by
  induction i generalizing as with
  | zero => cases as <;> simp [modifyAt]
  | succ i ih =>
    cases as with
    | nil => simp
    | cons a as => simpa [modifyAt] using ih as

/-- A change takes no object away. -/
theorem size_le_modify (t : Table α) (i : Nat) (f : α → α) : t.size ≤ (t.modify i f).size :=
  length_modifyAt i f t.rows

/-- Where there is no object yet, the default one is seen. -/
theorem get_of_size_le (t : Table α) {i : Nat} (h : t.size ≤ i) : t.get i = default := by
  simp only [size] at h
  simp [get, h]

/-- So whatever is seen to be unlike it was made. -/
theorem lt_size_of_ne {β : Type} (read : α → β) {t : Table α} {i : Nat}
    (h : read (t.get i) ≠ read default) : i < t.size :=
  Nat.lt_of_not_le fun hle => h (congrArg read (t.get_of_size_le hle))

theorem get_size (t : Table α) : t.get t.size = default := t.get_of_size_le (Nat.le_refl _)

omit [Inhabited α] in
theorem size_push (t : Table α) (a : α) : (t.push a).size = t.size + 1 := List.length_append

theorem get_push_of_lt (t : Table α) (a : α) {i : Nat} (h : i < t.size) :
    (t.push a).get i = t.get i := by
  rw [get_push, if_neg (Nat.ne_of_lt h)]

/-- An object like the default one makes no difference. -/
theorem get_push_default (t : Table α) (i : Nat) : (t.push default).get i = t.get i := by
  rw [get_push]
  split
  · next h => rw [h, get_size]
  · rfl

end Table

namespace World

variable (w : World)

theorem coordinator_onCoordinator (c d : CoordinatorId) (f : Coordinator → Coordinator) :
    (w.onCoordinator c f).coordinator d = if d = c then f (w.coordinator c) else w.coordinator d :=
  Table.get_modify ..

@[simp] theorem coordinator_onCoordinator_self (c : CoordinatorId) (f : Coordinator → Coordinator) :
    (w.onCoordinator c f).coordinator c = f (w.coordinator c) := by
  rw [coordinator_onCoordinator, if_pos rfl]

theorem coordinator_onCoordinator_of_ne {c d : CoordinatorId} (h : d ≠ c)
    (f : Coordinator → Coordinator) : (w.onCoordinator c f).coordinator d = w.coordinator d := by
  rw [coordinator_onCoordinator, if_neg h]

/-- A change of one coordinator is not seen in what it leaves alone. -/
theorem read_onCoordinator {α : Type} (read : Coordinator → α) {f : Coordinator → Coordinator}
    (h : ∀ s, read (f s) = read s) (c d : CoordinatorId) :
    read ((w.onCoordinator c f).coordinator d) = read (w.coordinator d) := by
  rw [coordinator_onCoordinator]
  split
  · next hd => rw [h, hd]
  · rfl

/-- Nor is a coordinator that is new, in what it has in common with one that was never made. -/
theorem read_pushCoordinator {α : Type} (read : Coordinator → α) {s : Coordinator}
    (h : read s = read default) (d : CoordinatorId) :
    read (({ w with coordinators := w.coordinators.push s } : World).coordinator d) =
      read (w.coordinator d) := by
  have hget : ({ w with coordinators := w.coordinators.push s } : World).coordinator d =
      if d = w.coordinators.size then s else w.coordinator d := Table.get_push ..
  rw [hget]
  split
  · next hd => rw [h, hd, coordinator, Table.get_size]
  · rfl

theorem query_onQuery (q p : QueryId) (f : Query → Query) :
    (w.onQuery q f).query p = if p = q then f (w.query q) else w.query p :=
  Table.get_modify ..

theorem handle_onHandle (h i : HandleId) (f : Handle → Handle) :
    (w.onHandle h f).handle i = if i = h then f (w.handle h) else w.handle i :=
  Table.get_modify ..

@[simp] theorem handle_onHandle_self (h : HandleId) (f : Handle → Handle) :
    (w.onHandle h f).handle h = f (w.handle h) := by
  rw [handle_onHandle, if_pos rfl]

theorem handle_onHandle_of_ne {h i : HandleId} (hne : i ≠ h) (f : Handle → Handle) :
    (w.onHandle h f).handle i = w.handle i := by
  rw [handle_onHandle, if_neg hne]

theorem read_onHandle {α : Type} (read : Handle → α) {f : Handle → Handle}
    (hread : ∀ x, read (f x) = read x) (h i : HandleId) :
    read ((w.onHandle h f).handle i) = read (w.handle i) := by
  rw [handle_onHandle]
  split
  · next hi => rw [hread, hi]
  · rfl

theorem notifier_onNotifier (n m : NotifierId) (f : Notifier → Notifier) :
    (w.onNotifier n f).notifier m = if m = n then f (w.notifier n) else w.notifier m :=
  Table.get_modify ..

theorem registry_setRegistry (r s : RegistryId) (x : Directory CoordinatorId) :
    (w.setRegistry r x).registry s = if s = r then x else w.registry s := Table.get_modify ..

theorem handle_congr {w w' : World} (h : w'.handles = w.handles) (i : HandleId) :
    w'.handle i = w.handle i := by
  unfold handle
  rw [h]

theorem handle_push {w w' : World} {x : Handle} (h : w'.handles = w.handles.push x) (i : HandleId) :
    w'.handle i = if i = w.handles.size then x else w.handle i := by
  unfold handle
  rw [h]
  exact w.handles.get_push x i

/-- A handle that has a coordinator was made. -/
theorem lt_size_of_coordinator {w : World} {h : HandleId} {c : CoordinatorId}
    (hopen : (w.handle h).coordinator = some c) : h < w.handles.size := by
  apply Table.lt_size_of_ne Handle.coordinator
  rw [show (w.handles.get h).coordinator = some c from hopen]
  exact nofun

theorem engine_setEngine (e d : EngineId) (x : Engine) :
    (w.setEngine e x).engine d = if d = e then x else w.engine d :=
  Table.get_modify ..

theorem file_congr {w w' : World} (h : w'.engines = w.engines) (f : FileId) :
    w'.file f = w.file f := by
  unfold file engine
  rw [h]

/-- The files after an engine was changed. -/
theorem file_setEngine (e : EngineId) (x : Engine) (f : FileId) :
    (w.setEngine e x).file f = if f.engine = e then x.file f.key else w.file f := by
  unfold file
  rw [engine_setEngine]
  split <;> rfl

/-- The files after one of them was changed. -/
theorem file_setFile (f g : FileId) (x : File) :
    (w.setFile f x).file g = if g = f then x else w.file g := by
  unfold setFile
  rw [file_setEngine, Engine.file_setFile]
  obtain ⟨e, key⟩ := f
  obtain ⟨d, k⟩ := g
  by_cases he : d = e
  · subst he
    by_cases hk : k = key <;> simp [hk, file]
  · simp [he]

/-- An engine that shows the same files changes none. -/
theorem file_setEngine_of_same {e : EngineId} {x : Engine}
    (h : ∀ key, x.file key = (w.engine e).file key) (f : FileId) :
    (w.setEngine e x).file f = w.file f := by
  rw [file_setEngine]
  split
  · next he => rw [h, file, he]
  · rfl

end World

end SnapshotCoordination
