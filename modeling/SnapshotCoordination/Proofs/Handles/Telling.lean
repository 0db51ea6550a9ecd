import SnapshotCoordination.Proofs.Handles.Borrowing

/-!
# Who hears of an announcement

An announcement wakes one coordinator after the other. Each of them runs a change cycle, of which no
handle hears anything, and then tells its live handles, whatever became of the cycle.

* **`told_tellAll`** — to tell handles is all that happens when they are told;
* **`woken_wake`** — the coordinators are woken in their order, and nothing else happens that a query
  would notice (`Woken`);
* **`Woken.background`** — so nothing happens in the background of any other one;
* **`alerted_wake`** — every live handle of theirs has been told in the end, and nobody else
  (`Alerted`).
-/

namespace SnapshotCoordination

/-! ## Telling handles -/

/-- On the way from one world to the other these handles were told that there is something new, in
this order, and nothing else happened. -/
structure Told (hs : List HandleId) (w w' : World) : Prop where
  handle : ∀ i, w'.handle i = if i ∈ hs then { w.handle i with pending := true } else w.handle i
  trace : w'.trace = w.trace ++ hs.filterMap fun i => (w.handle i).context.map Event.available
  coordinators : w'.coordinators = w.coordinators
  engines : w'.engines = w.engines
  queries : w'.queries = w.queries

namespace Told

variable {hs is : List HandleId} {w w' w'' : World}

theorem refl (w : World) : Told [] w w where
  handle _ := rfl
  trace := (List.append_nil _).symm
  coordinators := rfl
  engines := rfl
  queries := rfl

theorem context (h : Told hs w w') (i : HandleId) : (w'.handle i).context = (w.handle i).context := by
  rw [h.handle]
  split <;> rfl

theorem trans (h : Told hs w w') (h' : Told is w' w'') : Told (hs ++ is) w w'' where
  handle i := by
    rw [h'.handle, h.handle]
    simp only [List.mem_append]
    by_cases hhs : i ∈ hs <;> by_cases his : i ∈ is <;> simp [hhs, his]
  trace := by
    simp only [h'.trace, h.trace, h.context, List.filterMap_append, List.append_assoc]
  coordinators := h'.coordinators.trans h.coordinators
  engines := h'.engines.trans h.engines
  queries := h'.queries.trans h.queries

theorem tell (w : World) (h : HandleId) : Told [h] w (w.tell h) := by
  let told := w.onHandle h fun x => { x with pending := true }
  have hhandle : ∀ i, told.handle i =
      if i ∈ [h] then { w.handle i with pending := true } else w.handle i := by
    intro i
    rw [World.handle_onHandle]
    simp only [List.mem_singleton]
    split
    · next hi => rw [hi]
    · rfl
  unfold World.tell
  cases hcontext : (w.handle h).context with
  | none =>
    refine ⟨hhandle, ?_, rfl, rfl, rfl⟩
    rw [List.filterMap_cons, hcontext]
    exact (List.append_nil _).symm
  | some context =>
    refine ⟨hhandle, ?_, rfl, rfl, rfl⟩
    rw [List.filterMap_cons, hcontext]
    rfl

theorem foldl_tell (hs : List HandleId) (w : World) : Told hs w (hs.foldl World.tell w) := by
  induction hs generalizing w with
  | nil => exact .refl w
  | cons h hs ih => exact (tell w h).trans (ih (w.tell h))

end Told

namespace World

theorem foldl_retainHandle (hs : List HandleId) (w : World) :
    hs.foldl retainHandle w = { w with handles := (hs.foldl retainHandle w).handles } ∧
      ∀ i, (hs.foldl retainHandle w).handle i =
        { w.handle i with refs := (w.handle i).refs + hs.count i } := by
  induction hs generalizing w with
  | nil => exact ⟨rfl, fun _ => rfl⟩
  | cons h hs ih =>
    obtain ⟨heq, hhandle⟩ := ih (w.retainHandle h)
    refine ⟨heq, fun i => ?_⟩
    rw [List.foldl_cons, hhandle, handle_retainHandle, List.count_cons]
    by_cases hi : i = h
    · simp [hi, Nat.add_assoc, Nat.add_comm]
    · simp [hi, Ne.symm hi]

/-- References are given up to handles that keep others. -/
theorem foldl_releaseHandle {hs : List HandleId} {w : World}
    (hshared : ∀ i ∈ hs, hs.count i < (w.handle i).refs) :
    hs.foldl releaseHandle w = { w with handles := (hs.foldl releaseHandle w).handles } ∧
      ∀ i, (hs.foldl releaseHandle w).handle i =
        { w.handle i with refs := (w.handle i).refs - hs.count i } := by
  induction hs generalizing w with
  | nil => exact ⟨rfl, fun _ => rfl⟩
  | cons h hs ih =>
    have hfirst := hshared h List.mem_cons_self
    rw [List.count_cons_self] at hfirst
    have hrelease := releaseHandle_of_shared (w := w) (h := h) (by omega)
    obtain ⟨heq, hhandle⟩ := ih (w := w.releaseHandle h) fun i hi => by
      have hrest := hshared i (List.mem_cons_of_mem h hi)
      rw [hrelease, handle_onHandle]
      rw [List.count_cons] at hrest
      by_cases hih : i = h
      · subst hih
        simp only [beq_self_eq_true, if_true] at hrest ⊢
        omega
      · simp only [hih, if_false, beq_iff_eq, Ne.symm hih] at hrest ⊢
        omega
    refine ⟨?_, fun i => ?_⟩
    · rw [List.foldl_cons, heq, hrelease]
      rfl
    · rw [List.foldl_cons, hhandle, hrelease, handle_onHandle, List.count_cons]
      by_cases hih : i = h
      · simp [hih, Nat.sub_sub, Nat.add_comm]
      · simp [hih, Ne.symm hih]

end World

/-- **To tell its handles is all that a coordinator does** once its cycle is over. -/
theorem told_tellAll (w : World) (c : CoordinatorId) : Told (w.liveHandles c) w (w.tellAll c) := by
  let hs := w.liveHandles c
  let held := hs.foldl World.retainHandle w
  let told := hs.foldl World.tell held
  obtain ⟨hheld, hretained⟩ := World.foldl_retainHandle hs w
  have htold := Told.foldl_tell hs held
  change held = _ at hheld
  change ∀ i, held.handle i = _ at hretained
  have hrefs : ∀ i, (told.handle i).refs = (w.handle i).refs + hs.count i := by
    intro i
    rw [htold.handle, hretained]
    split <;> rfl
  have hshared : ∀ i ∈ hs, hs.count i < (told.handle i).refs := by
    intro i hi
    have halive : w.isAliveHandle i := (List.mem_filter.mp hi).2
    simp only [World.isAliveHandle, decide_eq_true_eq] at halive
    rw [hrefs]
    omega
  obtain ⟨hend, hreleased⟩ := World.foldl_releaseHandle hshared
  obtain ⟨htrace, hcoordinators, hengines, hqueries⟩ : held.trace = w.trace ∧
      held.coordinators = w.coordinators ∧ held.engines = w.engines ∧ held.queries = w.queries := by
    rw [hheld]
    exact ⟨rfl, rfl, rfl, rfl⟩
  show Told hs w (hs.foldl World.releaseHandle told)
  refine ⟨fun i => ?_, ?_, ?_, ?_, ?_⟩
  · -- all references are given up that were taken
    rw [hreleased, hrefs, htold.handle, hretained, Nat.add_sub_cancel]
    split <;> rfl
  · refine (congrArg World.trace hend).trans (htold.trace.trans ?_)
    rw [htrace]
    simp only [hretained]
  · exact (congrArg World.coordinators hend).trans (htold.coordinators.trans hcoordinators)
  · exact (congrArg World.engines hend).trans (htold.engines.trans hengines)
  · exact (congrArg World.queries hend).trans (htold.queries.trans hqueries)

/-! ## Cycles -/

namespace World

/-- The contexts that were told that there is something new. -/
def announced (w : World) : List ContextId := w.trace.filterMap Event.available?

end World

/-- The pipeline of coordinator `c` did something of which no handle and no other coordinator heard,
and nothing was committed. -/
structure Unheard (c : CoordinatorId) (w w' : World) : Prop where
  others : ∀ d, d ≠ c → w'.coordinator d = w.coordinator d
  handles : w'.handles = w.handles
  announced : w'.announced = w.announced
  commits : ∀ f, (w'.file f).commits = (w.file f).commits

instance (c : CoordinatorId) : IsPreorder World (Unheard c) where
  refl _ := ⟨fun _ _ => rfl, rfl, rfl, fun _ => rfl⟩
  trans _ _ _ h h' :=
    ⟨fun d hd => (h'.others d hd).trans (h.others d hd), h'.handles.trans h.handles,
      h'.announced.trans h.announced, fun f => (h'.commits f).trans (h.commits f)⟩

theorem covers_unheard (c : CoordinatorId) : Covers c (Unheard c) where
  looked hlooked := by
    refine ⟨fun d _ => hlooked.coordinator d, hlooked.handles, ?_, fun f => ?_⟩
    · rw [hlooked.eq]
      rfl
    · rw [hlooked.file]
  file w f x hcommits _ := by
    refine ⟨fun _ _ => rfl, rfl, rfl, fun g => ?_⟩
    rw [World.file_setFile]
    split
    · next hg => rw [hcommits, hg]
    · rfl
  coordinator w f _ :=
    ⟨fun d hd => w.coordinator_onCoordinator_of_ne hd f, rfl, rfl, fun _ => rfl⟩
  query _ _ _ := ⟨fun _ _ => rfl, rfl, rfl, fun _ => rfl⟩
  told w e he := by
    refine ⟨fun _ _ => rfl, rfl, ?_, fun _ => rfl⟩
    unfold World.announced World.note
    rw [List.filterMap_append, List.filterMap_cons, he]
    exact List.append_nil _

theorem unheard_cycled (w : World) (c : CoordinatorId) : Unheard c w (w.cycled c) :=
  (covers_unheard c).runCycle w

/-! ## Waking coordinators -/

/-- From one world to the other these coordinators were woken, in this order: each of them ran one
change cycle and told its live handles after that. Otherwise references were counted, if anything. -/
inductive Woken : List CoordinatorId → World → World → Prop where
  | nil {w w' : World} (hcounted : Recounted w w') : Woken [] w w'
  | cons {c : CoordinatorId} {cs : List CoordinatorId} {w w₁ w₂ w' : World}
      (hcounted : Recounted w w₁)
      (htold : Told ((w₁.cycled c).liveHandles c) (w₁.cycled c) w₂)
      (hrest : Woken cs w₂ w') : Woken (c :: cs) w w'

namespace Woken

variable {cs : List CoordinatorId} {w w' w'' : World}

theorem recounted (h : Woken cs w w') (hafter : Recounted w' w'') : Woken cs w w'' := by
  induction h with
  | nil hcounted => exact .nil (hcounted.trans hafter)
  | cons hcounted htold hrest ih => exact .cons hcounted htold (ih hafter)

theorem of_recounted (hbefore : Recounted w w') (h : Woken cs w' w'') : Woken cs w w'' := by
  cases h with
  | nil hcounted => exact .nil (hbefore.trans hcounted)
  | cons hcounted htold hrest => exact .cons (hbefore.trans hcounted) htold hrest

theorem commits (h : Woken cs w w') (f : FileId) : (w'.file f).commits = (w.file f).commits := by
  induction h with
  | nil hcounted => exact hcounted.commits f
  | @cons c cs w w₁ w₂ w' hcounted htold hrest ih =>
    rw [ih, World.file_congr htold.engines, (unheard_cycled w₁ c).commits, hcounted.commits]

/-- **Nothing happens in the background** of a coordinator that is not woken. -/
theorem background (h : Woken cs w w') {d : CoordinatorId} (hd : d ∉ cs) :
    (w'.coordinator d).background = (w.coordinator d).background := by
  induction h with
  | nil hcounted => exact hcounted.background d
  | @cons c cs w w₁ w₂ w' hcounted htold hrest ih =>
    rw [List.mem_cons, not_or] at hd
    have htoldSame : w₂.coordinator d = (w₁.cycled c).coordinator d := by
      simp only [World.coordinator, htold.coordinators]
    rw [ih hd.2, htoldSame, (unheard_cycled w₁ c).others d hd.1, hcounted.background]

end Woken

theorem recounted_foldl_retainCoordinator (cs : List CoordinatorId) (w : World) :
    Recounted w (cs.foldl World.retainCoordinator w) := by
  induction cs generalizing w with
  | nil => exact .refl w
  | cons c cs ih => exact (recounted_retainCoordinator w c).trans (ih _)

/-- **Each coordinator has its turn**, and it is kept alive until then. -/
theorem woken_wake (cs : List CoordinatorId) (w : World) : Woken cs w (w.wake cs) := by
  have hrest : ∀ (cs : List CoordinatorId) held, Woken cs held
      (cs.foldl (fun w c => ((w.cycled c).tellAll c).releaseCoordinator c) held) := by
    intro cs
    induction cs with
    | nil => exact fun held => .nil (.refl held)
    | cons c cs ih =>
      exact fun held => .cons (.refl held) (told_tellAll _ c)
        (.of_recounted (recounted_releaseCoordinator _ c) (ih _))
  exact .of_recounted (recounted_foldl_retainCoordinator cs w) (hrest cs _)

/-! ## Who was told -/

/-- On the way from one world to the other these handles were told that there is something new, each
of them once for each of its places, and no handle changed otherwise. -/
structure Alerted (hs : List HandleId) (w w' : World) : Prop where
  handle : ∀ i, w'.handle i = if i ∈ hs then { w.handle i with pending := true } else w.handle i
  announced : w'.announced = w.announced ++ hs.filterMap fun i => (w.handle i).context

namespace Alerted

variable {hs is : List HandleId} {w w' w'' : World}

theorem trans (h : Alerted hs w w') (h' : Alerted is w' w'') : Alerted (hs ++ is) w w'' where
  handle i := by
    rw [h'.handle, h.handle]
    simp only [List.mem_append]
    by_cases hhs : i ∈ hs <;> by_cases his : i ∈ is <;> simp [hhs, his]
  announced := by
    have hcontext : ∀ i, (w'.handle i).context = (w.handle i).context := fun i => by
      rw [h.handle]
      split <;> rfl
    simp only [h'.announced, h.announced, hcontext, List.filterMap_append, List.append_assoc]

/-- Nobody was told anything. -/
theorem of_same (hhandles : w'.handles = w.handles) (hannounced : w'.announced = w.announced) :
    Alerted [] w w' :=
  ⟨World.handle_congr hhandles, hannounced.trans (List.append_nil _).symm⟩

theorem of_recounted (h : Recounted w w') : Alerted [] w w' :=
  of_same h.handles (congrArg (List.filterMap Event.available?) h.trace)

theorem of_told (h : Told hs w w') : Alerted hs w w' where
  handle := h.handle
  announced := by
    unfold World.announced
    rw [h.trace, List.filterMap_append, List.filterMap_filterMap]
    congr 2
    funext i
    cases (w.handle i).context <;> rfl

end Alerted

/-- A coordinator remembers the same live handles while references are taken for a while. -/
theorem Borrowed.liveHandles {cs : List CoordinatorId} {ns : List NotifierId} {w w' : World}
    (h : Borrowed cs [] ns w w') (c : CoordinatorId) : w'.liveHandles c = w.liveHandles c := by
  have hcached : (w'.coordinator c).cached = (w.coordinator c).cached :=
    congrArg Foreground.cached (h.coordinator c)
  have halive : w'.isAliveHandle = w.isAliveHandle := by
    funext i
    unfold World.isAliveHandle
    rw [h.handleRefs]
    rfl
  unfold World.liveHandles
  rw [hcached, halive]

/-- **All live handles of the coordinators are told**, and nobody else. -/
theorem alerted_wake {cs : List CoordinatorId} {w : World}
    (halive : ∀ c ∈ cs, w.isAliveCoordinator c) :
    Alerted (cs.flatMap w.liveHandles) w (w.wake cs) := by
  have hrest : ∀ (cs : List CoordinatorId) held, Borrowed cs [] [] w held →
      Alerted (cs.flatMap w.liveHandles) held
        (cs.foldl (fun w c => ((w.cycled c).tellAll c).releaseCoordinator c) held) := by
    intro cs
    induction cs with
    | nil => exact fun held _ => .of_same rfl rfl
    | cons c cs ih =>
      intro held hheld
      have hcycled := hheld.andThen (sameHoldings_cycled held c)
      have htold := told_tellAll (held.cycled c) c
      rw [hcycled.liveHandles] at htold
      have hunheard := unheard_cycled held c
      have hone : Alerted (w.liveHandles c) held
          (((held.cycled c).tellAll c).releaseCoordinator c) := by
        have hboth := ((Alerted.of_same hunheard.handles hunheard.announced).trans
          (.of_told htold)).trans (.of_recounted (recounted_releaseCoordinator _ c))
        rw [List.nil_append, List.append_nil] at hboth
        exact hboth
      rw [List.flatMap_cons]
      exact hone.trans (ih _ (hcycled.andThen (sameHoldings_tellAll _ c)).releaseCoordinator)
  have hheld := (Borrowed.of_same (.refl w)).retainCoordinators halive
  rw [List.append_nil] at hheld
  exact (Alerted.of_recounted (recounted_foldl_retainCoordinator cs w)).trans (hrest cs _ hheld)

end SnapshotCoordination
