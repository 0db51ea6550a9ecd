import SnapshotCoordination.Proofs.Handles.Linking

/-!
# No reference too many

`Counted` says that a coordinator has a reference for whoever holds on to it. Here it is shown that
it has no other: if all references that anybody holds are listed, then the references of a
coordinator are its open handles and its places in the list, and those of a handle are its places in
the other list (`Balanced`). So

* **`Balanced.isAliveCoordinator_iff`** — a coordinator is alive as long as somebody holds it or holds
  a handle that is open with it.

Every operation that takes or gives up references keeps the balance:

* **`Balanced.releaseCoordinator`**, **`Balanced.closeHandle`**, **`Balanced.releaseHandle`** —
  references are given up one at a time;
* **`Balanced.getCoordinator`**, **`Balanced.asked`** — a coordinator is found or made, and asked for a
  handle;
* **`Balanced.resetRegistry`** — a registry is reset.
-/

namespace SnapshotCoordination

/-- Beside its open handles a coordinator has the references listed in `cs`, and a handle those that
are listed in `hs`. -/
structure Balanced (cs : List CoordinatorId) (hs : List HandleId) (w : World) : Prop where
  coordinator : ∀ c, (w.coordinator c).refs = (w.coordinator c).cached.length + cs.count c
  handle : ∀ h, (w.handle h).refs = hs.count h

/-- A coordinator that forgets an open handle has one handle less. -/
theorem Counted.length_kept {cs : List CoordinatorId} {w : World} (h : Counted cs w) {i : HandleId}
    {c : CoordinatorId} (hopen : (w.handle i).coordinator = some c) :
    (sweep (w.isForgotten i) (w.coordinator c).cached).1.length + 1 =
      (w.coordinator c).cached.length := by
  have hmem : i ∈ w.remembered c := (h.member c i).mpr hopen
  have hperm : ((sweep (w.isForgotten i) (w.coordinator c).cached).1.map (·.handle)).Perm
      ((w.remembered c).erase i) := by
    rw [List.perm_ext_iff_of_nodup (h.nodup_kept i c) ((h.once c).erase i)]
    intro j
    rw [h.mem_kept j, (h.once c).mem_erase_iff]
    exact and_comm
  have hlength := hperm.length_eq
  have hpos := List.length_pos_of_mem hmem
  rw [List.length_map, List.length_erase_of_mem hmem] at hlength
  rw [hlength, Nat.sub_add_cancel hpos, World.remembered, List.length_map]

namespace Balanced

variable {cs ds : List CoordinatorId} {hs is : List HandleId} {w w' : World}

theorem start : Balanced [] [] .start := ⟨fun _ => rfl, fun _ => rfl⟩

theorem of_perm (h : Balanced cs hs w) (hcs : cs.Perm ds) (hhs : hs.Perm is) : Balanced ds is w where
  coordinator c := by rw [h.coordinator, hcs.count_eq]
  handle i := by rw [h.handle, hhs.count_eq]

/-- What is counted is as it was. -/
theorem congr (h : Balanced cs hs w) (hrefs : ∀ c, (w'.coordinator c).refs = (w.coordinator c).refs)
    (hcached : ∀ c, (w'.coordinator c).cached = (w.coordinator c).cached)
    (hhandle : ∀ i, (w'.handle i).refs = (w.handle i).refs) : Balanced cs hs w' where
  coordinator c := by rw [hrefs, hcached, h.coordinator]
  handle i := by rw [hhandle, h.handle]

theorem sameHoldings (h : Balanced cs hs w) (hsame : SameHoldings w w') : Balanced cs hs w' :=
  h.congr hsame.refs hsame.cached fun i => congrArg Tie.refs (hsame.handle i)

/-- **Who is alive.** -/
theorem isAliveCoordinator_iff (h : Balanced cs hs w) (hcounted : Counted ds w) (c : CoordinatorId) :
    w.isAliveCoordinator c ↔
      c ∈ cs ∨ ∃ i ∈ hs, (w.handle i).isOpen ∧ (w.handle i).coordinator = some c := by
  have hrefs := h.coordinator c
  constructor
  · intro halive
    by_cases hheld : c ∈ cs
    · exact .inl hheld
    -- nobody holds it, so it has a handle
    rw [List.count_eq_zero.mpr hheld] at hrefs
    simp only [World.isAliveCoordinator, decide_eq_true_eq] at halive
    obtain ⟨e, he⟩ := List.exists_mem_of_length_pos (l := (w.coordinator c).cached) (by omega)
    have hopen := (hcounted.member c e.handle).mp (List.mem_map_of_mem he)
    refine .inr ⟨e.handle, ?_, ?_, hopen⟩
    · have halive := hcounted.alive e.handle (by rw [hopen]; rfl)
      simp only [World.isAliveHandle, decide_eq_true_eq, h.handle] at halive
      exact List.count_pos_iff.mp halive
    · rw [hcounted.isOpen, hopen]
      rfl
  · rintro (hheld | ⟨i, -, -, hopen⟩)
    · have hpos := List.count_pos_iff.mpr hheld
      simp only [World.isAliveCoordinator, decide_eq_true_eq]
      omega
    · exact hcounted.isAlive_of_open hopen

/-! ## Coordinators -/

theorem retainCoordinator (h : Balanced cs hs w) (c : CoordinatorId) :
    Balanced (c :: cs) hs (w.retainCoordinator c) where
  coordinator d := by
    have hrefs := h.coordinator d
    rw [World.coordinator_retainCoordinator, List.count_cons]
    by_cases hd : d = c
    · subst hd
      simp only [if_true, beq_self_eq_true]
      omega
    · simp only [hd, if_false, beq_iff_eq, Ne.symm hd]
      exact hrefs
  handle := h.handle

theorem releaseCoordinator {c : CoordinatorId} (h : Balanced (c :: cs) hs w) :
    Balanced cs hs (w.releaseCoordinator c) where
  coordinator d := by
    have hrefs := h.coordinator d
    rw [List.count_cons] at hrefs
    rw [World.coordinator_releaseCoordinator]
    by_cases hd : d = c
    · subst hd
      simp only [if_true, beq_self_eq_true] at hrefs
      simp only [if_true, Coordinator.released]
      omega
    · simp only [beq_iff_eq, Ne.symm hd, if_false] at hrefs
      simp only [hd, if_false]
      exact hrefs
  handle i := by rw [World.handle_releaseCoordinator, h.handle]

theorem dropNotifier (h : Balanced cs hs w) (c : CoordinatorId) :
    Balanced cs hs (w.dropNotifier c) := by
  refine h.congr (fun d => ?_) (fun d => ?_) fun i => by
    rw [World.handle_congr (w.handles_dropNotifier c)]
  all_goals
    rw [World.coordinator_dropNotifier]
    split
    · next hd => rw [hd]
    · rfl

theorem setRegistry (h : Balanced cs hs w) (r : RegistryId) (x : Directory CoordinatorId) :
    Balanced cs hs (w.setRegistry r x) := ⟨h.coordinator, h.handle⟩

/-- The coordinator of a path is found or made, and the caller gets a reference. -/
theorem getCoordinator (h : Balanced cs hs w) (r : RegistryId) (path : String) :
    Balanced ((w.getCoordinator r path).2 :: cs) hs (w.getCoordinator r path).1 := by
  unfold World.getCoordinator
  split
  · exact h.retainCoordinator _
  · apply Balanced.setRegistry
    let w' : World := { w with coordinators := w.coordinators.push (.made (FilePath.key path) r) }
    have hget : ∀ d, w'.coordinator d = if d = w.coordinators.size then
        .made (FilePath.key path) r else w.coordinator d := w.coordinators.get_push _
    have hfresh : w.coordinator w.coordinators.size = default := w.coordinators.get_size
    show Balanced (w.coordinators.size :: cs) hs w'
    refine ⟨fun d => ?_, h.handle⟩
    have hrefs := h.coordinator d
    rw [hget, List.count_cons]
    by_cases hd : d = w.coordinators.size
    · -- nobody has a reference to a coordinator that was never made
      subst hd
      rw [hfresh] at hrefs
      have hzero : 0 = 0 + cs.count w.coordinators.size := hrefs
      rw [Nat.zero_add] at hzero
      simp only [if_true, beq_self_eq_true, ← hzero]
      rfl
    · simp only [hd, if_false, beq_iff_eq, Ne.symm hd]
      exact hrefs

/-! ## Handles -/

theorem retainHandle (h : Balanced cs hs w) (i : HandleId) :
    Balanced cs (i :: hs) (w.retainHandle i) where
  coordinator := h.coordinator
  handle j := by
    have hrefs := h.handle j
    rw [World.handle_retainHandle, List.count_cons]
    by_cases hj : j = i
    · subst hj
      simp only [if_true, beq_self_eq_true]
      omega
    · simp only [hj, if_false, beq_iff_eq, Ne.symm hj]
      exact hrefs

/-- The references of a handle that is closed are left to those who hold them. -/
theorem closeHandle (h : Balanced cs hs w) (hcounted : Counted ds w) (i : HandleId) :
    Balanced cs hs (w.closeHandle i) where
  coordinator d := by
    have hrefs := h.coordinator d
    rw [World.coordinator_closeHandle]
    split
    · next hopen =>
      have hlength := hcounted.length_kept hopen
      simp only [Coordinator.released]
      omega
    · exact hrefs
  handle j := by
    rw [World.handle_closeHandle]
    split
    · next hj =>
      rw [hj]
      exact h.handle i
    · exact h.handle j

theorem releaseHandle {i : HandleId} (h : Balanced cs (i :: hs) w) (hcounted : Counted ds w) :
    Balanced cs hs (w.releaseHandle i) where
  coordinator d := by
    rw [World.coordinator_releaseHandle]
    split
    · exact (h.closeHandle hcounted i).coordinator d
    · exact h.coordinator d
  handle j := by
    have hrefs := h.handle j
    rw [List.count_cons] at hrefs
    rw [World.handle_releaseHandle]
    by_cases hj : j = i
    · subst hj
      have hless : (w.handle j).released.refs = (w.handle j).refs - 1 := by
        unfold Handle.released
        split <;> rfl
      simp only [if_true, beq_self_eq_true] at hrefs
      simp only [if_true]
      omega
    · simp only [beq_iff_eq, Ne.symm hj, if_false] at hrefs
      simp only [hj, if_false]
      exact hrefs

/-! ## Asking for a handle -/

/-- A coordinator that makes a handle has a reference for it, and so has the caller to the handle. -/
theorem admitted (h : Balanced cs hs w) {c : CoordinatorId} {x : Handle} {adoption : Option Adoption}
    (hadmitted : Admitted c x adoption w w') (hrefs : x.refs = 1) :
    Balanced cs (w.handles.size :: hs) w' where
  coordinator d := by
    have hbefore := h.coordinator d
    by_cases hd : d = c
    · obtain ⟨reusable, hself⟩ := hadmitted.self
      rw [hd] at hbefore ⊢
      rw [hself]
      simp only [List.length_append, List.length_singleton]
      omega
    · rw [hadmitted.others d hd]
      exact hbefore
  handle i := by
    have hbefore := h.handle i
    rw [hadmitted.handle, List.count_cons]
    by_cases hi : i = w.handles.size
    · -- nobody has a reference to a handle that was never made
      subst hi
      rw [show w.handle w.handles.size = default from w.handles.get_size] at hbefore
      have hzero : 0 = hs.count w.handles.size := hbefore
      simp only [if_true, beq_self_eq_true, ← hzero]
      exact hrefs
    · simp only [hi, if_false, beq_iff_eq, Ne.symm hi]
      exact hbefore

theorem asked (h : Balanced cs hs w) (hlinked : Linked w) {c : CoordinatorId} {thread : Thread}
    {config : Config} {outcome : Except Failure HandleId}
    (hasked : Asked c thread config w w' outcome) :
    Balanced cs (outcome.toOption.toList ++ hs) w' := by
  cases hasked with
  | refused _ failure hlooked => exact h.sameHoldings (.of_looked hlooked)
  | abandoned f w₁ failure hf hnone hlooked => exact h.sameHoldings (hlinked.abandoned hnone hlooked)
  | reused i canonical hmem halive hcanonical hkept => exact h.retainHandle i
  | made adoption cursor w₁ _ hprepared hf hadmitted =>
    have hbefore : Balanced cs hs w₁ := h.congr (fun d => by rw [hprepared.coordinator])
      (fun d => by rw [hprepared.coordinator]) fun i => by rw [World.handle_congr hprepared.handles]
    rw [← hprepared.handles]
    exact hbefore.admitted hadmitted rfl

/-! ## Resetting a registry -/

theorem foldl_dropNotifier (h : Balanced cs hs w) (ds : List CoordinatorId) :
    Balanced (ds ++ cs) hs (ds.foldl (fun w c => (w.retainCoordinator c).dropNotifier c) w) := by
  induction ds generalizing w cs with
  | nil => exact h
  | cons d ds ih =>
    exact (ih ((h.retainCoordinator d).dropNotifier d)).of_perm List.perm_middle (.refl _)

theorem foldl_retainHandle (h : Balanced cs hs w) (is : List HandleId) :
    Balanced cs (is ++ hs) (is.foldl World.retainHandle w) := by
  induction is generalizing w hs with
  | nil => exact h
  | cons i is ih => exact (ih (h.retainHandle i)).of_perm (.refl _) List.perm_middle

theorem foldl_releaseCoordinator (ds : List CoordinatorId) (h : Balanced (ds ++ cs) hs w) :
    Balanced cs hs (ds.foldl World.releaseCoordinator w) := by
  induction ds generalizing w with
  | nil => exact h
  | cons d ds ih => exact ih (releaseCoordinator h)

theorem foldl_closeHandle (is : List HandleId) (h : Balanced cs (is ++ hs) w)
    (hcounted : Counted ds w) :
    Balanced cs hs (is.foldl (fun w i => (w.closeHandle i).releaseHandle i) w) := by
  induction is generalizing w with
  | nil => exact h
  | cons i is ih =>
    have hclosed := hcounted.closeHandle i
    exact ih (releaseHandle (h.closeHandle hcounted i) hclosed) (hclosed.releaseHandle i)

/-- Whatever a reset holds on to meanwhile it gives up again. -/
theorem resetRegistry (h : Balanced cs hs w) (hcounted : Counted cs w) (r : RegistryId) :
    Balanced cs hs (w.resetRegistry r) := by
  have hdropped := h.foldl_dropNotifier (w.listed r)
  have hretained := hdropped.foldl_retainHandle ((w.listed r).flatMap w.liveHandles)
  have hreleased := foldl_releaseCoordinator _ (hretained.setRegistry r .empty)
  have hleft : Counted cs ((w.listed r).foldl World.releaseCoordinator
      ((((w.listed r).flatMap w.liveHandles).foldl World.retainHandle
        ((w.listed r).foldl (fun w c => (w.retainCoordinator c).dropNotifier c) w)).setRegistry r
          .empty)) := by
    apply Counted.foldl_releaseCoordinator
    apply Counted.setRegistry
    exact List.foldlRecOn _ _ (hcounted.foldl_dropNotifier _) fun w hw i _ => hw.retainHandle i
  exact foldl_closeHandle _ hreleased hleft

end Balanced

end SnapshotCoordination
