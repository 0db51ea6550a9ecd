import SnapshotCoordination.Proofs.Handles.Asking
import SnapshotCoordination.Proofs.Lists.Sweeping

/-!
# Every reference is counted

A coordinator remembers exactly the handles that are open with it, each of them once, and has a
reference for each. Beside these there are references that running operations hold, each for a
coordinator that it works with (`Counted`). This module shows that whatever takes or gives up
references keeps that so:

* **`Counted.retainCoordinator`**, **`Counted.releaseCoordinator`** — an operation takes a reference
  to a coordinator, and gives it up;
* **`Counted.closeHandle`**, **`Counted.releaseHandle`** — a handle is closed, if only for want of
  references;
* **`Counted.getCoordinator`**, **`Counted.asked`** — a coordinator is found or made, and asked for a
  handle;
* **`Counted.resetRegistry`** — a registry is reset.
-/

namespace SnapshotCoordination

/-! ## What is seen after references were given up -/

namespace Coordinator

/-- One reference less; without any, the notifier is given up too. -/
def released (s : Coordinator) : Coordinator :=
  { s with refs := s.refs - 1, notifier := if s.refs - 1 = 0 then none else s.notifier }

end Coordinator

namespace Handle

/-- The handle, closed. -/
def closed (x : Handle) : Handle := { x with cursor := none, coordinator := none }

/-- One reference less; without any, the handle is closed. -/
def released (x : Handle) : Handle :=
  if x.refs - 1 = 0 then closed { x with refs := x.refs - 1 } else { x with refs := x.refs - 1 }

end Handle

namespace World

variable (w : World)

/-- The handles that a coordinator remembers. -/
def remembered (c : CoordinatorId) : List HandleId := (w.coordinator c).cached.map (·.handle)

/-- Whether a coordinator that forgets a handle forgets an entry of its cache. -/
def isForgotten (h : HandleId) (e : CacheEntry) : Bool :=
  !w.isAliveHandle e.handle || e.handle == h

theorem coordinators_releaseNotifier (n : NotifierId) :
    (w.releaseNotifier n).coordinators = w.coordinators := by
  dsimp only [releaseNotifier]
  split <;> rfl

theorem coordinator_releaseNotifier (n : NotifierId) (d : CoordinatorId) :
    (w.releaseNotifier n).coordinator d = w.coordinator d := by
  simp only [coordinator, coordinators_releaseNotifier]

theorem handles_releaseNotifier (n : NotifierId) : (w.releaseNotifier n).handles = w.handles := by
  dsimp only [releaseNotifier]
  split <;> rfl

theorem coordinator_dropNotifier (c d : CoordinatorId) :
    (w.dropNotifier c).coordinator d =
      if d = c then { w.coordinator c with notifier := none } else w.coordinator d := by
  unfold dropNotifier
  split
  · rw [coordinator_releaseNotifier, coordinator_onCoordinator]
  · next hnone =>
    split
    · next hd =>
      subst hd
      rw [← hnone]
    · rfl

theorem handles_dropNotifier (c : CoordinatorId) : (w.dropNotifier c).handles = w.handles :=
  (recounted_dropNotifier w c).handles

theorem coordinator_retainCoordinator (c d : CoordinatorId) :
    (w.retainCoordinator c).coordinator d =
      if d = c then { w.coordinator c with refs := (w.coordinator c).refs + 1 }
      else w.coordinator d := w.coordinator_onCoordinator ..

theorem coordinator_releaseCoordinator (c d : CoordinatorId) :
    (w.releaseCoordinator c).coordinator d =
      if d = c then (w.coordinator c).released else w.coordinator d := by
  dsimp only [releaseCoordinator, Coordinator.released]
  rw [coordinator_onCoordinator_self]
  dsimp only
  split
  · -- the sweep of the registry touches no coordinator
    unfold retireCoordinator
    rw [coordinator_dropNotifier]
    show (if d = c then { (w.onCoordinator c _).coordinator c with notifier := none }
      else (w.onCoordinator c _).coordinator d) = _
    rw [coordinator_onCoordinator, coordinator_onCoordinator, if_pos rfl]
    split <;> rfl
  · rw [coordinator_onCoordinator]

theorem handle_releaseCoordinator (c : CoordinatorId) (i : HandleId) :
    (w.releaseCoordinator c).handle i = w.handle i := (recounted_releaseCoordinator w c).handle i

theorem handle_retainHandle (h i : HandleId) :
    (w.retainHandle h).handle i =
      if i = h then { w.handle h with refs := (w.handle h).refs + 1 } else w.handle i :=
  w.handle_onHandle ..

theorem handle_closeHandle (h i : HandleId) :
    (w.closeHandle h).handle i = if i = h then (w.handle h).closed else w.handle i := by
  unfold closeHandle
  split
  · rw [handle_releaseCoordinator]
    exact w.handle_onHandle ..
  · exact w.handle_onHandle ..

theorem coordinator_closeHandle (h : HandleId) (d : CoordinatorId) :
    (w.closeHandle h).coordinator d =
      if (w.handle h).coordinator = some d then
        ({ w.coordinator d with
          cached := (sweep (w.isForgotten h) (w.coordinator d).cached).1 } : Coordinator).released
      else w.coordinator d := by
  have hsame : World.isForgotten (w.onHandle h Handle.closed) h = w.isForgotten h := by
    funext e
    unfold isForgotten isAliveHandle
    rw [handle_onHandle]
    split
    · next he => rw [he]; rfl
    · rfl
  unfold closeHandle
  cases hcoordinator : (w.handle h).coordinator with
  | none => rw [if_neg nofun]; rfl
  | some c =>
    dsimp only
    rw [coordinator_releaseCoordinator]
    unfold forgetHandle
    rw [coordinator_onCoordinator, coordinator_onCoordinator, if_pos rfl]
    by_cases hd : d = c
    · subst hd
      rw [if_pos rfl, if_pos rfl, ← hsame]
      rfl
    · rw [if_neg hd, if_neg hd, if_neg fun heq => hd (Option.some_inj.mp heq).symm]
      rfl

theorem handle_releaseHandle (h i : HandleId) :
    (w.releaseHandle h).handle i = if i = h then (w.handle h).released else w.handle i := by
  dsimp only [releaseHandle, Handle.released]
  rw [handle_onHandle_self]
  dsimp only
  split
  · rw [handle_closeHandle, handle_onHandle, handle_onHandle, if_pos rfl]
    split <;> rfl
  · rw [handle_onHandle]

/-- A handle without references is closed as any other. -/
theorem coordinator_releaseHandle (h : HandleId) (d : CoordinatorId) :
    (w.releaseHandle h).coordinator d =
      if (w.handle h).refs - 1 = 0 then (w.closeHandle h).coordinator d else w.coordinator d := by
  dsimp only [releaseHandle]
  rw [handle_onHandle_self]
  dsimp only
  split
  · have hsame : World.isForgotten (w.onHandle h fun x => { x with refs := x.refs - 1 }) h =
        w.isForgotten h := by
      funext e
      unfold isForgotten isAliveHandle
      rw [handle_onHandle]
      by_cases he : e.handle = h
      · simp [he]
      · simp [he]
    rw [coordinator_closeHandle, coordinator_closeHandle, hsame, handle_onHandle_self]
    rfl
  · rfl

end World

/-! ## Counted references -/

/-- Every coordinator remembers the handles that are open with it, and has a reference for each of
them and for each of its places in `cs`, the list of those that running operations hold. -/
structure Counted (cs : List CoordinatorId) (w : World) : Prop where
  member : ∀ c h, h ∈ w.remembered c ↔ (w.handle h).coordinator = some c
  once : ∀ c, (w.remembered c).Nodup
  held : ∀ c, (w.coordinator c).cached.length + cs.count c ≤ (w.coordinator c).refs
  alive : ∀ h, (w.handle h).coordinator.isSome → w.isAliveHandle h
  isOpen : ∀ h, (w.handle h).isOpen = (w.handle h).coordinator.isSome

namespace Counted

variable {cs : List CoordinatorId} {w w' : World}

theorem start : Counted [] .start where
  member _ _ := ⟨nofun, nofun⟩
  once _ := .nil
  held _ := Nat.le_refl _
  alive _ := nofun
  isOpen _ := rfl

/-- The references are counted still, if coordinators have as many as before and open handles have
some. -/
theorem congr (h : Counted cs w) (hcached : ∀ c, (w'.coordinator c).cached = (w.coordinator c).cached)
    (hrefs : ∀ c, (w'.coordinator c).refs = (w.coordinator c).refs)
    (hcoordinator : ∀ i, (w'.handle i).coordinator = (w.handle i).coordinator)
    (hopen : ∀ i, (w'.handle i).isOpen = (w.handle i).isOpen)
    (halive : ∀ i, (w.handle i).coordinator.isSome → w'.isAliveHandle i) : Counted cs w' where
  member c i := by
    unfold World.remembered
    rw [hcached, hcoordinator]
    exact h.member c i
  once c := by
    unfold World.remembered
    rw [hcached]
    exact h.once c
  held c := by
    rw [hcached, hrefs]
    exact h.held c
  alive i hi := halive i (hcoordinator i ▸ hi)
  isOpen i := by rw [hcoordinator, hopen, h.isOpen]

/-- The handles are as they were, and every coordinator remembers the same ones; it has a reference
for each of them and for each of its places in the new list. -/
theorem recount {ds : List CoordinatorId} (h : Counted cs w)
    (hhandle : ∀ i, w'.handle i = w.handle i)
    (hcached : ∀ c, (w'.coordinator c).cached = (w.coordinator c).cached)
    (hheld : ∀ c, (w.coordinator c).cached.length + ds.count c ≤ (w'.coordinator c).refs) :
    Counted ds w' where
  member c i := by
    unfold World.remembered
    rw [hcached, hhandle]
    exact h.member c i
  once c := by
    unfold World.remembered
    rw [hcached]
    exact h.once c
  held c := by
    rw [hcached]
    exact hheld c
  alive i hi := by
    unfold World.isAliveHandle
    rw [hhandle] at hi ⊢
    exact h.alive i hi
  isOpen i := by
    rw [hhandle]
    exact h.isOpen i

theorem of_handles (h : Counted cs w) (hhandles : w'.handles = w.handles)
    (hcached : ∀ c, (w'.coordinator c).cached = (w.coordinator c).cached)
    (hrefs : ∀ c, (w'.coordinator c).refs = (w.coordinator c).refs) : Counted cs w' :=
  h.recount (World.handle_congr hhandles) hcached fun c => by
    rw [hrefs]
    exact h.held c

theorem sameHoldings (h : Counted cs w) (hsame : SameHoldings w w') : Counted cs w' := by
  refine h.congr hsame.cached hsame.refs (fun i => congrArg Tie.coordinator (hsame.handle i))
    (fun i => congrArg Tie.isOpen (hsame.handle i)) fun i hi => ?_
  have hrefs : (w'.handle i).refs = (w.handle i).refs := congrArg Tie.refs (hsame.handle i)
  unfold World.isAliveHandle
  rw [hrefs]
  exact h.alive i hi

/-- Nobody needs to know of all the references that are held. -/
theorem mono {ds : List CoordinatorId} (h : Counted cs w) (hle : ∀ c, ds.count c ≤ cs.count c) :
    Counted ds w :=
  { h with held := fun c => Nat.le_trans (Nat.add_le_add_left (hle c) _) (h.held c) }

theorem of_cons {c : CoordinatorId} (h : Counted (c :: cs) w) : Counted cs w :=
  h.mono fun _ => List.count_le_count_cons

theorem isAlive_of_mem (h : Counted cs w) {c : CoordinatorId} (hc : c ∈ cs) :
    w.isAliveCoordinator c := by
  have hcount := List.count_pos_iff.mpr hc
  have hheld := h.held c
  simp only [World.isAliveCoordinator, decide_eq_true_eq]
  omega

/-- A coordinator without references remembers no handle. -/
theorem cached_of_dead (h : Counted cs w) {c : CoordinatorId} (hdead : (w.coordinator c).refs = 0) :
    (w.coordinator c).cached = [] := by
  have hheld := h.held c
  exact List.length_eq_zero_iff.mp (by omega)

/-- All handles that are remembered are alive. -/
theorem liveHandles (h : Counted cs w) (c : CoordinatorId) : w.liveHandles c = w.remembered c := by
  apply List.filter_eq_self.mpr
  intro i hi
  exact h.alive i (by rw [(h.member c i).mp hi]; rfl)

/-- The coordinator of an open handle is alive. -/
theorem isAlive_of_open (h : Counted cs w) {i : HandleId} {c : CoordinatorId}
    (hopen : (w.handle i).coordinator = some c) : w.isAliveCoordinator c := by
  have hlength : 0 < (w.remembered c).length := List.length_pos_of_mem ((h.member c i).mpr hopen)
  have hheld := h.held c
  simp only [World.remembered, List.length_map] at hlength
  simp only [World.isAliveCoordinator, decide_eq_true_eq]
  omega

/-! ## Coordinators -/

theorem retainCoordinator (h : Counted cs w) (c : CoordinatorId) :
    Counted (c :: cs) (w.retainCoordinator c) := by
  refine h.recount (fun _ => rfl) (w.read_onCoordinator (·.cached) (fun _ => by rfl) c) fun d => ?_
  have hheld := h.held d
  rw [World.coordinator_retainCoordinator, List.count_cons]
  by_cases hd : d = c
  · subst hd
    simp only [beq_self_eq_true, if_true]
    omega
  · simp only [beq_iff_eq, Ne.symm hd, hd, if_false]
    omega

theorem releaseCoordinator {c : CoordinatorId} (h : Counted (c :: cs) w) :
    Counted cs (w.releaseCoordinator c) := by
  refine h.recount (w.handle_releaseCoordinator c) (fun d => ?_) fun d => ?_
  · rw [World.coordinator_releaseCoordinator]
    split
    · next hd => rw [hd]; rfl
    · rfl
  · have hheld := h.held d
    rw [List.count_cons] at hheld
    rw [World.coordinator_releaseCoordinator]
    by_cases hd : d = c
    · subst hd
      simp only [beq_self_eq_true, if_true] at hheld
      simp only [if_true, Coordinator.released]
      omega
    · simp only [beq_iff_eq, Ne.symm hd, if_false] at hheld
      simp only [hd, if_false]
      omega

theorem dropNotifier (h : Counted cs w) (c : CoordinatorId) : Counted cs (w.dropNotifier c) := by
  refine h.of_handles (w.handles_dropNotifier c) (fun d => ?_) fun d => ?_ <;>
  · rw [World.coordinator_dropNotifier]
    split
    · next hd => rw [hd]
    · rfl

theorem setRegistry (h : Counted cs w) (r : RegistryId) (x : Directory CoordinatorId) :
    Counted cs (w.setRegistry r x) := h.of_handles rfl (fun _ => rfl) fun _ => rfl

theorem releaseNotifier (h : Counted cs w) (n : NotifierId) :
    Counted cs (w.releaseNotifier n) :=
  h.of_handles (w.handles_releaseNotifier n) (fun d => by rw [World.coordinator_releaseNotifier])
    fun d => by rw [World.coordinator_releaseNotifier]

/-- A coordinator that nobody ever made has no references. -/
theorem not_mem_of_fresh (h : Counted cs w) : w.coordinators.size ∉ cs := by
  intro hmem
  have halive := h.isAlive_of_mem hmem
  rw [World.isAliveCoordinator, show w.coordinator w.coordinators.size = default from
    w.coordinators.get_size] at halive
  cases halive

/-- The coordinator of a path is found or made, and the caller gets a reference. -/
theorem getCoordinator (h : Counted cs w) (r : RegistryId) (path : String) :
    Counted ((w.getCoordinator r path).2 :: cs) (w.getCoordinator r path).1 := by
  unfold World.getCoordinator
  split
  · exact h.retainCoordinator _
  · apply Counted.setRegistry
    -- the new coordinator is like one that was never made, but for its reference
    let w' : World := { w with coordinators := w.coordinators.push (.made (FilePath.key path) r) }
    have hget : ∀ d, w'.coordinator d = if d = w.coordinators.size then
        .made (FilePath.key path) r else w.coordinator d := w.coordinators.get_push _
    have hfresh : w.coordinator w.coordinators.size = default := w.coordinators.get_size
    show Counted (w.coordinators.size :: cs) w'
    refine h.recount (fun _ => rfl) (w.read_pushCoordinator (·.cached) rfl) fun d => ?_
    have hheld := h.held d
    rw [hget, List.count_cons]
    by_cases hd : d = w.coordinators.size
    · subst hd
      have hzero : cs.count w.coordinators.size = 0 := List.count_eq_zero.mpr h.not_mem_of_fresh
      rw [hfresh]
      simp only [beq_self_eq_true, if_true, hzero]
      exact Nat.le_refl _
    · simp only [beq_iff_eq, Ne.symm hd, hd, if_false]
      exact hheld

/-! ## Handles -/

/-- A change of one handle that leaves it with its coordinator, and with references if it is open. -/
theorem onHandle (h : Counted cs w) {i : HandleId} {f : Handle → Handle}
    (hcoordinator : (f (w.handle i)).coordinator = (w.handle i).coordinator)
    (hopen : (f (w.handle i)).isOpen = (w.handle i).isOpen)
    (hrefs : (w.handle i).coordinator.isSome → 0 < (f (w.handle i)).refs) :
    Counted cs (w.onHandle i f) := by
  refine h.congr (fun _ => rfl) (fun _ => rfl) (fun j => ?_) (fun j => ?_) fun j hj => ?_
  · rw [World.handle_onHandle]
    split
    · next hji => rw [hcoordinator, hji]
    · rfl
  · rw [World.handle_onHandle]
    split
    · next hji => rw [hopen, hji]
    · rfl
  · unfold World.isAliveHandle
    rw [World.handle_onHandle]
    split
    · next hji =>
      rw [hji] at hj
      exact decide_eq_true (hrefs hj)
    · exact h.alive j hj

theorem retainHandle (h : Counted cs w) (i : HandleId) : Counted cs (w.retainHandle i) :=
  h.onHandle rfl rfl fun _ => Nat.succ_pos _

/-- A coordinator that forgets a handle goes on remembering all others. -/
theorem mem_kept (h : Counted cs w) {i : HandleId} {c : CoordinatorId} (j : HandleId) :
    j ∈ (sweep (w.isForgotten i) (w.coordinator c).cached).1.map (·.handle) ↔
      j ∈ w.remembered c ∧ j ≠ i := by
  simp only [List.mem_map, mem_sweep_kept, World.remembered]
  constructor
  · rintro ⟨e, ⟨he, hkept⟩, rfl⟩
    refine ⟨⟨e, he, rfl⟩, ?_⟩
    simp only [World.isForgotten, Bool.or_eq_false_iff, beq_eq_false_iff_ne] at hkept
    exact hkept.2
  · rintro ⟨⟨e, he, rfl⟩, hne⟩
    refine ⟨e, ⟨he, ?_⟩, rfl⟩
    have halive := h.alive e.handle
      (by rw [(h.member c e.handle).mp (List.mem_map_of_mem he)]; rfl)
    simp only [World.isForgotten, halive, Bool.not_true, Bool.false_or, beq_eq_false_iff_ne]
    exact hne

theorem nodup_kept (h : Counted cs w) (i : HandleId) (c : CoordinatorId) :
    ((sweep (w.isForgotten i) (w.coordinator c).cached).1.map (·.handle)).Nodup := by
  rw [((sweep_kept_perm _ _).map _).nodup_iff]
  exact (h.once c).sublist (List.filter_sublist.map _)

theorem length_kept_lt (h : Counted cs w) {i : HandleId} {c : CoordinatorId}
    (hopen : (w.handle i).coordinator = some c) :
    (sweep (w.isForgotten i) (w.coordinator c).cached).1.length <
      (w.coordinator c).cached.length := by
  rw [(sweep_kept_perm _ _).length_eq]
  obtain ⟨e, he, rfl⟩ := List.mem_map.mp ((h.member c i).mpr hopen)
  apply List.length_filter_lt_length_iff_exists.mpr
  exact ⟨e, he, by simp [World.isForgotten]⟩

theorem closeHandle (h : Counted cs w) (i : HandleId) : Counted cs (w.closeHandle i) := by
  have hother : ∀ {j}, j ≠ i → (w.closeHandle i).handle j = w.handle j := fun hj => by
    rw [World.handle_closeHandle, if_neg hj]
  have hself : (w.closeHandle i).handle i = (w.handle i).closed := by
    rw [World.handle_closeHandle, if_pos rfl]
  have hmember : ∀ d j, j ∈ (w.closeHandle i).remembered d ↔ j ∈ w.remembered d ∧ j ≠ i := by
    intro d j
    unfold World.remembered
    rw [World.coordinator_closeHandle]
    split
    · exact h.mem_kept j
    · next hd =>
      refine ⟨fun hj => ⟨hj, ?_⟩, And.left⟩
      rintro rfl
      exact hd ((h.member d j).mp hj)
  constructor
  case member =>
    intro d j
    rw [hmember, h.member]
    by_cases hj : j = i
    · rw [hj, hself]
      exact ⟨fun hboth => absurd rfl hboth.2, nofun⟩
    · rw [hother hj]
      exact and_iff_left hj
  case once =>
    intro d
    unfold World.remembered
    rw [World.coordinator_closeHandle]
    split
    · exact h.nodup_kept i d
    · exact h.once d
  case held =>
    intro d
    have hheld := h.held d
    rw [World.coordinator_closeHandle]
    split
    · next hopen =>
      have hlt := h.length_kept_lt hopen
      simp only [Coordinator.released]
      omega
    · exact hheld
  case alive =>
    intro j hj
    by_cases hji : j = i
    · rw [hji, hself] at hj
      cases hj
    · unfold World.isAliveHandle
      rw [hother hji] at hj ⊢
      exact h.alive j hj
  case isOpen =>
    intro j
    by_cases hji : j = i
    · rw [hji, hself]
      rfl
    · rw [hother hji]
      exact h.isOpen j

theorem releaseHandle (h : Counted cs w) (i : HandleId) : Counted cs (w.releaseHandle i) := by
  by_cases hlast : (w.handle i).refs - 1 = 0
  · -- the last reference is given up, so the handle is closed
    have hclosed := h.closeHandle i
    have hhandle : ∀ j, ((w.releaseHandle i).handle j).cursor = ((w.closeHandle i).handle j).cursor ∧
        ((w.releaseHandle i).handle j).coordinator = ((w.closeHandle i).handle j).coordinator := by
      intro j
      rw [World.handle_releaseHandle, World.handle_closeHandle, Handle.released, if_pos hlast]
      split
      · exact ⟨rfl, rfl⟩
      · exact ⟨rfl, rfl⟩
    refine hclosed.congr (fun d => ?_) (fun d => ?_) (fun j => (hhandle j).2) (fun j => ?_)
      fun j hj => ?_
    · rw [World.coordinator_releaseHandle, if_pos hlast]
    · rw [World.coordinator_releaseHandle, if_pos hlast]
    · unfold Handle.isOpen
      rw [(hhandle j).1]
    · rw [World.handle_closeHandle] at hj
      unfold World.isAliveHandle
      rw [World.handle_releaseHandle]
      split at hj
      · cases hj
      · next hji =>
        rw [if_neg hji]
        exact h.alive j hj
  · have hsame : w.releaseHandle i = w.onHandle i fun x => { x with refs := x.refs - 1 } := by
      dsimp only [World.releaseHandle]
      rw [World.handle_onHandle_self, if_neg hlast]
    rw [hsame]
    exact h.onHandle rfl rfl fun _ => Nat.pos_of_ne_zero hlast

/-! ## Asking for a handle -/

/-- A coordinator that makes a handle has a reference for it. -/
theorem admitted (h : Counted cs w) {c : CoordinatorId} {x : Handle} {adoption : Option Adoption}
    (hadmitted : Admitted c x adoption w w') (hcoordinator : x.coordinator = some c)
    (hopen : x.isOpen) (hrefs : 0 < x.refs) : Counted cs w' := by
  have hfresh : w.handle w.handles.size = default := w.handles.get_size
  have hhandle := hadmitted.handle
  obtain ⟨reusable, hself⟩ := hadmitted.self
  have hremembered : ∀ d, w'.remembered d =
      w.remembered d ++ if d = c then [w.handles.size] else [] := by
    intro d
    unfold World.remembered
    split
    · next hd =>
      rw [hd, hself, List.map_append]
      rfl
    · next hd => rw [hadmitted.others d hd, List.append_nil]
  -- nobody remembers a handle that was never made
  have hunknown : ∀ d, w.handles.size ∉ w.remembered d := by
    intro d hmem
    rw [h.member, hfresh] at hmem
    cases hmem
  constructor
  case member =>
    intro d i
    rw [hremembered, List.mem_append, h.member, hhandle]
    by_cases hi : i = w.handles.size
    · subst hi
      rw [if_pos rfl, hcoordinator, hfresh]
      by_cases hd : d = c
      · simp [hd]
      · simp [hd, Ne.symm hd]
    · rw [if_neg hi]
      split
      · simp [hi]
      · simp
  case once =>
    intro d
    rw [hremembered]
    split
    · exact List.nodup_append.mpr ⟨h.once d, by simp, fun i hi j hj heq =>
        hunknown d (List.mem_singleton.mp hj ▸ heq ▸ hi)⟩
    · rw [List.append_nil]
      exact h.once d
  case held =>
    intro d
    have hheld := h.held d
    by_cases hd : d = c
    · rw [hd] at hheld ⊢
      rw [hself]
      simp only [List.length_append, List.length_singleton]
      omega
    · rw [hadmitted.others d hd]
      exact hheld
  case alive =>
    intro i hi
    unfold World.isAliveHandle
    rw [hhandle] at hi ⊢
    split
    · exact decide_eq_true hrefs
    · next hne =>
      rw [if_neg hne] at hi
      exact h.alive i hi
  case isOpen =>
    intro i
    rw [hhandle]
    split
    · rw [hcoordinator, hopen]
      rfl
    · exact h.isOpen i

theorem prepared (h : Counted cs w) {c : CoordinatorId} {config : Config}
    {adoption : Option Adoption} (hprepared : Prepared c config w w' adoption) : Counted cs w' :=
  h.of_handles hprepared.handles (fun d => by rw [hprepared.coordinator])
    fun d => by rw [hprepared.coordinator]

theorem asked (h : Counted cs w) {c : CoordinatorId} {thread : Thread} {config : Config}
    {outcome : Except Failure HandleId} (hasked : Asked c thread config w w' outcome) :
    Counted cs w' := by
  cases hasked with
  | refused _ failure hlooked => exact h.sameHoldings (.of_looked hlooked)
  | abandoned f w₁ failure hf hnone hlooked =>
    have hheard : Counted cs (w.listening c f) := h.of_handles rfl (fun _ => rfl) fun _ => rfl
    exact (hheard.sameHoldings (.of_looked hlooked)).releaseNotifier _
  | reused i canonical hmem halive hcanonical hkept => exact h.retainHandle i
  | made adoption cursor w₁ _ hprepared hf hadmitted =>
    exact (h.prepared hprepared).admitted hadmitted rfl rfl Nat.one_pos

/-! ## Resetting a registry -/

theorem foldl_releaseCoordinator (ds : List CoordinatorId) (h : Counted (ds ++ cs) w) :
    Counted cs (ds.foldl World.releaseCoordinator w) := by
  induction ds generalizing w with
  | nil => exact h
  | cons d ds ih => exact ih (releaseCoordinator h)

/-- A reset holds on to every coordinator of the registry while their notifiers are given up. -/
theorem foldl_dropNotifier (ds : List CoordinatorId) (h : Counted cs w) :
    Counted (ds ++ cs) (ds.foldl (fun w c => (w.retainCoordinator c).dropNotifier c) w) := by
  induction ds generalizing w cs with
  | nil => exact h
  | cons d ds ih =>
    refine (ih ((h.retainCoordinator d).dropNotifier d)).mono fun c => ?_
    simp only [List.cons_append, List.count_cons, List.count_append]
    omega

theorem resetRegistry (h : Counted cs w) (r : RegistryId) : Counted cs (w.resetRegistry r) := by
  refine List.foldlRecOn _ _ ?_ fun w hw i _ => (hw.closeHandle i).releaseHandle i
  apply foldl_releaseCoordinator
  apply Counted.setRegistry
  exact List.foldlRecOn _ _ (h.foldl_dropNotifier _) fun w hw i _ => hw.retainHandle i

end Counted

end SnapshotCoordination
