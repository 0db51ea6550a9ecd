import SnapshotCoordination.Proofs.Handles.Counting

/-!
# What is left when references are given up

Where references are only given up, coordinators keep their configurations and remember no new
handles, handles are closed at most, and a coordinator loses its notifier with its last reference
only (`Wanes`). A reset does more than that: the coordinators of the registry lose their notifiers
first, but then they lose all their handles as well.

* **`wanes_releaseCoordinator`**, **`wanes_closeHandle`**, **`wanes_releaseHandle`** — references are
  given up one at a time;
* **`reset_resetRegistry`** — a registry is reset.
-/

namespace SnapshotCoordination

/-- From one world to the other references were given up. -/
structure Wanes (w w' : World) : Prop where
  config : ∀ c, (w'.coordinator c).config = (w.coordinator c).config
  remembered : ∀ c, w'.remembered c ⊆ w.remembered c
  refs : ∀ c, (w'.coordinator c).refs ≤ (w.coordinator c).refs
  notifier : ∀ c, (w'.coordinator c).notifier = (w.coordinator c).notifier ∨
    (w'.coordinator c).notifier = none ∧ (w'.coordinator c).refs = 0
  configured : ∀ h, (w'.handle h).config = (w.handle h).config
  coordinator : ∀ h, (w'.handle h).coordinator = (w.handle h).coordinator ∨
    (w'.handle h).coordinator = none

namespace Wanes

variable {w w' w'' : World}

theorem refl (w : World) : Wanes w w where
  config _ := rfl
  remembered _ := List.Subset.refl _
  refs _ := Nat.le_refl _
  notifier _ := .inl rfl
  configured _ := rfl
  coordinator _ := .inl rfl

theorem trans (h : Wanes w w') (h' : Wanes w' w'') : Wanes w w'' where
  config c := (h'.config c).trans (h.config c)
  remembered c := List.Subset.trans (h'.remembered c) (h.remembered c)
  refs c := Nat.le_trans (h'.refs c) (h.refs c)
  notifier c := by
    rcases h'.notifier c with hsame | hlost
    · rcases h.notifier c with hbefore | ⟨hnone, hdead⟩
      · exact .inl (hsame.trans hbefore)
      · -- a coordinator that is gone stays gone
        exact .inr ⟨hsame.trans hnone, Nat.le_zero.mp (hdead ▸ h'.refs c)⟩
    · exact .inr hlost
  configured i := (h'.configured i).trans (h.configured i)
  coordinator i := by
    rcases h'.coordinator i with hsame | hclosed
    · rw [hsame]
      exact h.coordinator i
    · exact .inr hclosed

instance : IsPreorder World Wanes where
  refl := refl
  trans _ _ _ := trans

/-- Nothing was given up that counts here. -/
theorem of_eq (hcoordinators : w'.coordinators = w.coordinators)
    (hconfigured : ∀ h, (w'.handle h).config = (w.handle h).config)
    (hcoordinator : ∀ h, (w'.handle h).coordinator = (w.handle h).coordinator) : Wanes w w' := by
  have hsame : ∀ c, w'.coordinator c = w.coordinator c := fun c => by
    simp only [World.coordinator, hcoordinators]
  refine ⟨fun c => by rw [hsame], fun c => ?_, fun c => Nat.le_of_eq (by rw [hsame]),
    fun c => .inl (by rw [hsame]), hconfigured, fun h => .inl (hcoordinator h)⟩
  unfold World.remembered
  rw [hsame]
  exact List.Subset.refl _

end Wanes

section References

variable (w : World)

theorem wanes_setRegistry (r : RegistryId) (x : Directory CoordinatorId) :
    Wanes w (w.setRegistry r x) := .of_eq rfl (fun _ => rfl) fun _ => rfl

/-- To count the references to a handle changes nothing else. -/
theorem wanes_onHandle (h : HandleId) (f : Nat → Nat) :
    Wanes w (w.onHandle h fun x => { x with refs := f x.refs }) :=
  .of_eq rfl (w.read_onHandle (·.config) (fun _ => by rfl) h)
    (w.read_onHandle (·.coordinator) (fun _ => by rfl) h)

theorem wanes_retainHandle (h : HandleId) : Wanes w (w.retainHandle h) :=
  wanes_onHandle w h (· + 1)

theorem wanes_releaseNotifier (n : NotifierId) : Wanes w (w.releaseNotifier n) := by
  have hhandle : ∀ i, (w.releaseNotifier n).handle i = w.handle i :=
    World.handle_congr (w.handles_releaseNotifier n)
  exact .of_eq (w.coordinators_releaseNotifier n) (fun i => by rw [hhandle])
    fun i => by rw [hhandle]

/-- What becomes of a coordinator that gives up a reference. -/
theorem Coordinator.notifier_released (s : Coordinator) :
    s.released.notifier = s.notifier ∨ s.released.notifier = none ∧ s.released.refs = 0 := by
  unfold Coordinator.released
  dsimp only
  split
  · next hlast => exact .inr ⟨rfl, hlast⟩
  · exact .inl rfl

theorem wanes_releaseCoordinator (c : CoordinatorId) : Wanes w (w.releaseCoordinator c) := by
  refine ⟨fun d => ?_, fun d => ?_, fun d => ?_, fun d => ?_, fun i => ?_, fun i => .inl ?_⟩
  · rw [World.coordinator_releaseCoordinator]
    split
    · next hd => rw [hd]; rfl
    · rfl
  · unfold World.remembered
    rw [World.coordinator_releaseCoordinator]
    split
    · next hd => rw [hd]; exact List.Subset.refl _
    · exact List.Subset.refl _
  · rw [World.coordinator_releaseCoordinator]
    split
    · next hd => rw [hd]; exact Nat.sub_le _ _
    · exact Nat.le_refl _
  · rw [World.coordinator_releaseCoordinator]
    split
    · next hd => rw [hd]; exact (w.coordinator c).notifier_released
    · exact .inl rfl
  · rw [World.handle_releaseCoordinator]
  · rw [World.handle_releaseCoordinator]

theorem wanes_closeHandle (h : HandleId) : Wanes w (w.closeHandle h) := by
  refine ⟨fun d => ?_, fun d => ?_, fun d => ?_, fun d => ?_, fun i => ?_, fun i => ?_⟩
  · rw [World.coordinator_closeHandle]
    split <;> rfl
  · unfold World.remembered
    rw [World.coordinator_closeHandle]
    split
    · exact List.map_subset _ fun e he => (mem_sweep_kept.mp he).1
    · exact List.Subset.refl _
  · rw [World.coordinator_closeHandle]
    split
    · exact Nat.sub_le _ _
    · exact Nat.le_refl _
  · rw [World.coordinator_closeHandle]
    split
    · exact Coordinator.notifier_released { w.coordinator d with
        cached := (sweep (w.isForgotten h) (w.coordinator d).cached).1 }
    · exact .inl rfl
  · rw [World.handle_closeHandle]
    split
    · next hi => rw [hi]; rfl
    · rfl
  · rw [World.handle_closeHandle]
    split
    · exact .inr rfl
    · exact .inl rfl

theorem wanes_releaseHandle (h : HandleId) : Wanes w (w.releaseHandle h) := by
  have hcount := wanes_onHandle w h (· - 1)
  dsimp only [World.releaseHandle]
  split
  · exact hcount.trans (wanes_closeHandle _ h)
  · exact hcount

end References

/-! ## Resetting a registry -/

namespace World

/-- The live coordinators that a registry leads to. -/
def listed (w : World) (r : RegistryId) : List CoordinatorId :=
  ((w.registry r).entries.map (·.2)).filter w.isAliveCoordinator

theorem coordinator_foldl_dropNotifier (cs : List CoordinatorId) (w : World) (d : CoordinatorId) :
    (cs.foldl (fun w c => (w.retainCoordinator c).dropNotifier c) w).coordinator d =
      { w.coordinator d with
        refs := (w.coordinator d).refs + cs.count d
        notifier := if d ∈ cs then none else (w.coordinator d).notifier } := by
  induction cs generalizing w with
  | nil => simp
  | cons c cs ih =>
    rw [List.foldl_cons, ih, coordinator_dropNotifier, coordinator_retainCoordinator,
      coordinator_retainCoordinator, if_pos rfl]
    by_cases hd : d = c
    · subst hd
      simp [Nat.add_assoc, Nat.add_comm]
    · simp [hd, Ne.symm hd]

theorem handles_foldl_dropNotifier (cs : List CoordinatorId) (w : World) :
    (cs.foldl (fun w c => (w.retainCoordinator c).dropNotifier c) w).handles = w.handles := by
  induction cs generalizing w with
  | nil => rfl
  | cons c cs ih =>
    rw [List.foldl_cons, ih, handles_dropNotifier]
    rfl

/-- Handles that are closed one after the other are all closed in the end. -/
theorem coordinator_foldl_closeHandle (hs : List HandleId) (w : World) :
    ∀ h ∈ hs, ((hs.foldl (fun w h => (w.closeHandle h).releaseHandle h) w).handle h).coordinator =
      none := by
  induction hs generalizing w with
  | nil => exact fun _ hmem => nomatch hmem
  | cons i hs ih =>
    intro h hmem
    rcases List.mem_cons.mp hmem with rfl | hmem
    · -- the others do not open it again
      have hclosed : (((w.closeHandle h).releaseHandle h).handle h).coordinator = none := by
        have hkept := (wanes_releaseHandle (w.closeHandle h) h).coordinator h
        rw [handle_closeHandle, if_pos rfl] at hkept
        exact hkept.elim id id
      have hrest := (rel_foldl (fun w i => (wanes_closeHandle w i).trans
        (wanes_releaseHandle _ i)) hs ((w.closeHandle h).releaseHandle h)).coordinator h
      rw [hclosed] at hrest
      exact hrest.elim id id
    · exact ih _ h hmem

end World

/-- Registry `r` was reset on the way from one world to the other. -/
structure Reset (r : RegistryId) (w w' : World) : Prop where
  config : ∀ c, (w'.coordinator c).config = (w.coordinator c).config
  remembered : ∀ c, w'.remembered c ⊆ w.remembered c
  notifier : ∀ c, (w'.coordinator c).notifier = (w.coordinator c).notifier ∨
    (w'.coordinator c).notifier = none ∧ ((w'.coordinator c).refs = 0 ∨ c ∈ w.listed r)
  alive : ∀ c, w'.isAliveCoordinator c → w.isAliveCoordinator c
  configured : ∀ h, (w'.handle h).config = (w.handle h).config
  coordinator : ∀ h, (w'.handle h).coordinator = (w.handle h).coordinator ∨
    (w'.handle h).coordinator = none
  closed : ∀ c ∈ w.listed r, w'.remembered c = []

/-- Once the notifiers were given up, a reset only gives up references. -/
theorem wanes_resetRegistry (w : World) (r : RegistryId) :
    Wanes ((w.listed r).foldl (fun w c => (w.retainCoordinator c).dropNotifier c) w)
      (w.resetRegistry r) :=
  let hs := (w.listed r).flatMap w.liveHandles
  (((World.rel_foldl wanes_retainHandle hs _).trans (wanes_setRegistry _ r .empty)).trans
    (World.rel_foldl wanes_releaseCoordinator (w.listed r) _)).trans
    (World.rel_foldl (fun w i => (wanes_closeHandle w i).trans (wanes_releaseHandle _ i)) hs _)

/-- **A reset** leaves the coordinators of the registry without notifiers and without handles. -/
theorem reset_resetRegistry {cs : List CoordinatorId} {w : World} (h : Counted cs w)
    (r : RegistryId) : Reset r w (w.resetRegistry r) := by
  let dropped := (w.listed r).foldl (fun w c => (w.retainCoordinator c).dropNotifier c) w
  let hs := (w.listed r).flatMap w.liveHandles
  have hcoordinator := w.coordinator_foldl_dropNotifier (w.listed r)
  have hhandle : ∀ i, dropped.handle i = w.handle i :=
    World.handle_congr (w.handles_foldl_dropNotifier (w.listed r))
  change ∀ d, dropped.coordinator d = _ at hcoordinator
  have hwanes : Wanes dropped (w.resetRegistry r) := wanes_resetRegistry w r
  have hcounted := h.resetRegistry r
  have hremembered : ∀ c, (w.resetRegistry r).remembered c ⊆ w.remembered c := by
    intro c
    have hsame : dropped.remembered c = w.remembered c := by
      unfold World.remembered
      rw [hcoordinator]
    exact hsame ▸ hwanes.remembered c
  constructor
  case config => exact fun c => (hwanes.config c).trans (by rw [hcoordinator])
  case remembered => exact hremembered
  case notifier =>
    intro c
    rcases hwanes.notifier c with hsame | ⟨hnone, hdead⟩
    · rw [hsame, hcoordinator]
      by_cases hc : c ∈ w.listed r
      · exact .inr ⟨if_pos hc, .inr hc⟩
      · exact .inl (if_neg hc)
    · exact .inr ⟨hnone, .inl hdead⟩
  case alive =>
    intro c halive
    by_cases hc : c ∈ w.listed r
    · exact (List.mem_filter.mp hc).2
    · have hle := hwanes.refs c
      rw [hcoordinator] at hle
      have hzero : (w.listed r).count c = 0 := List.count_eq_zero.mpr hc
      simp only [World.isAliveCoordinator, decide_eq_true_eq] at halive ⊢
      dsimp only at hle
      omega
  case configured => exact fun i => (hwanes.configured i).trans (by rw [hhandle])
  case coordinator =>
    intro i
    have hkept := hwanes.coordinator i
    rw [hhandle] at hkept
    exact hkept
  case closed =>
    intro c hc
    rw [List.eq_nil_iff_forall_not_mem]
    intro i hi
    -- whatever the coordinator remembered before was closed
    have hopen := (hcounted.member c i).mp hi
    have hmem : i ∈ hs := by
      refine List.mem_flatMap.mpr ⟨c, hc, ?_⟩
      rw [h.liveHandles]
      exact hremembered c hi
    have hclosed : ((w.resetRegistry r).handle i).coordinator = none :=
      World.coordinator_foldl_closeHandle hs _ i hmem
    rw [hclosed] at hopen
    cases hopen

end SnapshotCoordination
