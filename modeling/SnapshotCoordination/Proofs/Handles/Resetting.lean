import SnapshotCoordination.Proofs.Handles.Committing
import SnapshotCoordination.Proofs.Handles.Indexing

/-!
# What a reset closes

A reset collects the coordinators of a registry and their handles first. Then it gives up one by one
what they hold, each time through the coordinator itself, which may go with it and have the registry
swept. What it touches on the way is only what it collected (`Confined`), and since every coordinator
remembers exactly the handles that are open with it, this is all of theirs.

* **`confined_resetRegistry`** — a reset touches nobody else;
* **`Tuned.listeners_of_confined`** — who loses its notifier is taken off its file, and the others are
  listeners as before, in the same order;
* **`Action.FailsIn`** — what is asked of a closed handle fails and changes nothing;
* **`reset_closes_registry`** — all of this after a reset, and after whatever is called later.
-/

namespace SnapshotCoordination

/-! ## Touching nobody else -/

/-- From one world to the other at most the coordinators `cs` and the handles `hs` were touched, and
listeners taken off their files. -/
structure Confined (cs : List CoordinatorId) (hs : List HandleId) (w w' : World) : Prop where
  coordinator : ∀ c, c ∉ cs → w'.coordinator c = w.coordinator c
  handle : ∀ h, h ∉ hs → w'.handle h = w.handle h
  target : ∀ n, (w'.notifier n).file = (w.notifier n).file
  commits : ∀ f, (w'.file f).commits = (w.file f).commits
  listeners : ∀ f, (w'.file f).listeners.Sublist (w.file f).listeners

section Confining

variable {cs : List CoordinatorId} {hs : List HandleId}

namespace Confined

variable {w w' w'' : World}

theorem refl (w : World) : Confined cs hs w w :=
  ⟨fun _ _ => rfl, fun _ _ => rfl, fun _ => rfl, fun _ => rfl, fun _ => .refl _⟩

theorem trans (h : Confined cs hs w w') (h' : Confined cs hs w' w'') : Confined cs hs w w'' where
  coordinator c hc := (h'.coordinator c hc).trans (h.coordinator c hc)
  handle i hi := (h'.handle i hi).trans (h.handle i hi)
  target n := (h'.target n).trans (h.target n)
  commits f := (h'.commits f).trans (h.commits f)
  listeners f := (h'.listeners f).trans (h.listeners f)

theorem foldl {α : Type} {f : World → α → World} {as : List α}
    (hf : ∀ w, ∀ a ∈ as, Confined cs hs w (f w a)) (w : World) :
    Confined cs hs w (as.foldl f w) :=
  List.foldlRecOn _ _ (refl w) fun w' h a ha => h.trans (hf w' a ha)

end Confined

variable (w : World)

theorem confined_onCoordinator {c : CoordinatorId} (hc : c ∈ cs) (f : Coordinator → Coordinator) :
    Confined cs hs w (w.onCoordinator c f) where
  coordinator d hd := w.coordinator_onCoordinator_of_ne (by rintro rfl; exact hd hc) f
  handle _ _ := rfl
  target _ := rfl
  commits _ := rfl
  listeners _ := .refl _

theorem confined_onHandle {h : HandleId} (hh : h ∈ hs) (f : Handle → Handle) :
    Confined cs hs w (w.onHandle h f) where
  coordinator _ _ := rfl
  handle i hi := w.handle_onHandle_of_ne (by rintro rfl; exact hi hh) f
  target _ := rfl
  commits _ := rfl
  listeners _ := .refl _

theorem confined_setRegistry (r : RegistryId) (x : Directory CoordinatorId) :
    Confined cs hs w (w.setRegistry r x) :=
  ⟨fun _ _ => rfl, fun _ _ => rfl, fun _ => rfl, fun _ => rfl, fun _ => .refl _⟩

theorem confined_releaseNotifier (n : NotifierId) : Confined cs hs w (w.releaseNotifier n) := by
  let w₁ := w.onNotifier n fun x => { x with refs := x.refs - 1 }
  have hcount : Confined cs hs w w₁ :=
    { Confined.refl w with
      target := fun m => by
        show (w₁.notifier m).file = _
        rw [World.notifier_onNotifier]
        split
        · next hm => rw [hm]
        · rfl }
  have hretire : Confined cs hs w₁ (w₁.retireNotifier n) :=
    { Confined.refl w₁ with
      commits := (recounted_retireNotifier w₁ n).commits
      listeners := fun f => by
        unfold World.retireNotifier
        rw [World.file_setFile]
        split
        · next hf =>
          rw [hf]
          exact List.filter_sublist
        · exact .refl _ }
  show Confined cs hs w (if (w₁.notifier n).refs = 0 then w₁.retireNotifier n else w₁)
  split
  · exact hcount.trans hretire
  · exact hcount

theorem confined_dropNotifier {c : CoordinatorId} (hc : c ∈ cs) :
    Confined cs hs w (w.dropNotifier c) := by
  unfold World.dropNotifier
  split
  · exact (confined_onCoordinator w hc _).trans (confined_releaseNotifier _ _)
  · exact .refl w

theorem confined_releaseCoordinator {c : CoordinatorId} (hc : c ∈ cs) :
    Confined cs hs w (w.releaseCoordinator c) := by
  have hcount : Confined cs hs w (w.onCoordinator c fun s => { s with refs := s.refs - 1 }) :=
    confined_onCoordinator w hc _
  dsimp only [World.releaseCoordinator]
  split
  · exact (hcount.trans (confined_setRegistry _ _ _)).trans (confined_dropNotifier _ hc)
  · exact hcount

variable {w}

/-- A handle that is closed leaves its coordinator, which has to be among those that may be
touched. -/
theorem confined_closeHandle {h : HandleId} (hh : h ∈ hs)
    (hc : ∀ c, (w.handle h).coordinator = some c → c ∈ cs) : Confined cs hs w (w.closeHandle h) := by
  have hclosed : Confined cs hs w (w.onHandle h Handle.closed) := confined_onHandle w hh _
  unfold World.closeHandle
  split
  · next c hopen =>
    have hmem := hc c hopen
    exact (hclosed.trans (confined_onCoordinator _ hmem _)).trans
      (confined_releaseCoordinator _ hmem)
  · exact hclosed

theorem confined_releaseHandle {h : HandleId} (hh : h ∈ hs)
    (hc : ∀ c, (w.handle h).coordinator = some c → c ∈ cs) :
    Confined cs hs w (w.releaseHandle h) := by
  let w₁ := w.onHandle h fun x => { x with refs := x.refs - 1 }
  have hcount : Confined cs hs w w₁ := confined_onHandle w hh _
  have hcoordinator : (w₁.handle h).coordinator = (w.handle h).coordinator := by
    rw [World.handle_onHandle_self]
  show Confined cs hs w (if (w₁.handle h).refs = 0 then w₁.closeHandle h else w₁)
  split
  · exact hcount.trans (confined_closeHandle hh (by rw [hcoordinator]; exact hc))
  · exact hcount

/-- Handles are closed one after the other. Those that are open still are with the coordinators with
which they were open before. -/
theorem confined_foldl_closeHandle {is : List HandleId} (his : is ⊆ hs)
    (hcs : ∀ h ∈ is, ∀ c, (w.handle h).coordinator = some c → c ∈ cs) :
    Confined cs hs w (is.foldl (fun w h => (w.closeHandle h).releaseHandle h) w) := by
  induction is generalizing w with
  | nil => exact .refl w
  | cons i is ih =>
    have hkept : ∀ {w' : World}, Wanes w w' → ∀ h ∈ i :: is, ∀ c,
        (w'.handle h).coordinator = some c → c ∈ cs := by
      intro w' hwanes h hh c hopen
      rcases hwanes.coordinator h with hsame | hnone
      · exact hcs h hh c (hsame ▸ hopen)
      · rw [hnone] at hopen
        cases hopen
    have hclose := wanes_closeHandle w i
    have hi : i ∈ hs := his List.mem_cons_self
    refine ((confined_closeHandle hi (hcs i List.mem_cons_self)).trans
      (confined_releaseHandle hi (hkept hclose i List.mem_cons_self))).trans ?_
    exact ih (fun h hh => his (List.mem_cons_of_mem i hh)) fun h hh =>
      hkept (hclose.trans (wanes_releaseHandle _ i)) h (List.mem_cons_of_mem i hh)

end Confining

/-- **A reset touches** the coordinators of its registry and the handles that are open with them. -/
theorem confined_resetRegistry {ds : List CoordinatorId} {w : World} (h : Counted ds w)
    (r : RegistryId) :
    Confined (w.listed r) ((w.listed r).flatMap w.liveHandles) w (w.resetRegistry r) := by
  let cs := w.listed r
  let hs := cs.flatMap w.liveHandles
  let dropped := cs.foldl (fun w c => (w.retainCoordinator c).dropNotifier c) w
  let retained := hs.foldl World.retainHandle dropped
  let released := cs.foldl World.releaseCoordinator (retained.setRegistry r .empty)
  have hdropped : Confined cs hs w dropped := Confined.foldl (fun w c hc =>
    (confined_onCoordinator w hc _).trans (confined_dropNotifier _ hc)) w
  have hretained : Confined cs hs dropped retained :=
    Confined.foldl (fun w i hi => confined_onHandle w hi _) dropped
  have hreleased : Confined cs hs retained released := (confined_setRegistry _ r .empty).trans
    (Confined.foldl (fun w c hc => confined_releaseCoordinator w hc) _)
  refine ((hdropped.trans hretained).trans hreleased).trans
    (confined_foldl_closeHandle (List.Subset.refl _) fun i hi c hopen => ?_)
  -- whoever is open with a coordinator was remembered by it
  have hwanes : Wanes dropped released := ((World.rel_foldl wanes_retainHandle hs dropped).trans
    (wanes_setRegistry _ r .empty)).trans (World.rel_foldl wanes_releaseCoordinator cs _)
  have hbefore : (w.handle i).coordinator = some c := by
    rw [← World.handle_congr (w.handles_foldl_dropNotifier cs) i]
    rcases hwanes.coordinator i with hsame | hnone
    · exact hsame ▸ hopen
    · rw [hnone] at hopen
      cases hopen
  obtain ⟨d, hd, hlive⟩ := List.mem_flatMap.mp hi
  rw [h.liveHandles] at hlive
  obtain rfl : d = c := Option.some_inj.mp (((h.member d i).mp hlive).symm.trans hbefore)
  exact hd

theorem World.notifier_resetRegistry {w : World} {r : RegistryId} {c : CoordinatorId}
    (hc : c ∈ w.listed r) : ((w.resetRegistry r).coordinator c).notifier = none := by
  rcases (wanes_resetRegistry w r).notifier c with hsame | ⟨hnone, -⟩
  · rw [hsame, coordinator_foldl_dropNotifier]
    exact if_pos hc
  · exact hnone

/-! ## Listeners -/

/-- **Who is left on a file** when some coordinators have given their notifiers up. -/
theorem Tuned.listeners_of_confined {cs : List CoordinatorId} {hs : List HandleId} {w w' : World}
    (h : Tuned w) (h' : Tuned w') (hconfined : Confined cs hs w w')
    (hnone : ∀ c ∈ cs, (w'.coordinator c).notifier = none) (f : FileId) :
    (w'.file f).listeners = (w.file f).listeners.filter (· ∉ cs) := by
  have hcount : ∀ c, (w'.file f).listeners.count c =
      ((w.file f).listeners.filter (· ∉ cs)).count c := by
    intro c
    by_cases hc : c ∈ cs
    · rw [h'.count_of_none (hnone c hc) f]
      refine (List.count_eq_zero.mpr fun hmem => ?_).symm
      exact of_decide_eq_true (List.mem_filter.mp hmem).2 hc
    · have hhears : w'.hears c = w.hears c := by
        unfold World.hears
        rw [hconfined.coordinator c hc]
        cases (w.coordinator c).notifier with
        | none => rfl
        | some n => exact congrArg some (hconfined.target n)
      rw [List.count_filter (p := (· ∉ cs)) (decide_eq_true hc), h'.listed, h.listed, hhears]
  -- as many of each, and none in another place
  have hperm : (w'.file f).listeners.Perm ((w.file f).listeners.filter (· ∉ cs)) :=
    List.perm_iff_count.mpr hcount
  have hsublist := (hconfined.listeners f).filter (· ∉ cs)
  have hself : (w'.file f).listeners.filter (· ∉ cs) = (w'.file f).listeners := by
    refine List.filter_eq_self.mpr fun c hmem => ?_
    exact (List.mem_filter.mp (hperm.mem_iff.mp hmem)).2
  rw [hself] at hsublist
  exact hsublist.eq_of_length hperm.length_eq

/-! ## Closed handles -/

namespace Action

/-- However its callbacks would be answered, the action fails and leaves the world as it is. -/
def FailsIn {α : Type} (a : Action α) (w : World) : Prop :=
  ∀ client, ∃ failure, (a.begin w).finish client = (w, .error failure)

variable {h : HandleId} {w : World}

theorem failsIn_withCoordinator {α : Type} (hclosed : (w.handle h).coordinator = none)
    (act : CoordinatorId → Action α) : (withCoordinator h act).FailsIn w :=
  fun client => ⟨_, finish_withCoordinator_of_closed client hclosed act⟩

/-- A commit to a read-only handle is refused before anybody looks whether the handle is open. -/
theorem failsIn_commit (hclosed : (w.handle h).coordinator = none) (log : Log) :
    (commit h log).FailsIn w := by
  intro client
  rw [finish_commit]
  split
  · exact ⟨_, rfl⟩
  · exact failsIn_withCoordinator hclosed _ client

end Action

/-- Handles that are closed are never opened again. -/
theorem Call.coordinator_perform_of_closed (w : World) (x : Call) :
    w.handles.size ≤ (x.perform w).handles.size ∧ ∀ h < w.handles.size,
      (w.handle h).coordinator = none → ((x.perform w).handle h).coordinator = none := by
  let R : World → World → Prop := fun w w' => w.handles.size ≤ w'.handles.size ∧
    ∀ h < w.handles.size, (w.handle h).coordinator = none → (w'.handle h).coordinator = none
  have : IsPreorder World R :=
    { refl := fun _ => ⟨Nat.le_refl _, fun _ _ => id⟩
      trans := fun _ _ _ h h' => ⟨Nat.le_trans h.1 h'.1, fun i hi hclosed =>
        h'.2 i (Nat.lt_of_lt_of_le hi h.1) (h.2 i hi hclosed)⟩ }
  refine perform_of_sections (R := R) (fun m s => ⟨?_, fun h hh hclosed => ?_⟩) w x
  · rcases m.onward_perform s with honward | ⟨c, thread, config, -, f, -, hpushed⟩
    · exact honward.made
    · rw [hpushed, Table.size_push]
      exact Nat.le_succ _
  · cases (m.handle_perform s hh).2 with
    | closed hcursor hcoordinator => exact hcoordinator
    | kept hconfig hcoordinator hcursor => exact hcoordinator.trans hclosed
    | moved f u v hconfig hcoordinator hfrom hto hpassable => exact hcoordinator.trans hclosed

theorem World.coordinator_afterCalls_of_closed {w : World} {h : HandleId} (calls : List Call)
    (hmade : h < w.handles.size) (hclosed : (w.handle h).coordinator = none) :
    ((w.afterCalls calls).handle h).coordinator = none := by
  induction calls generalizing w with
  | nil => exact hclosed
  | cons x calls ih =>
    obtain ⟨hsize, hkept⟩ := x.coordinator_perform_of_closed w
    exact ih (Nat.lt_of_lt_of_le hmade hsize) (hkept h hmade hclosed)

/-! ## Resets -/

section Resets

variable {w : World} {r : RegistryId}

/-- Whoever is registered is alive, so a reset collects everybody. -/
theorem Linked.listed_eq (h : Linked w) : w.listed r = (w.registry r).entries.map (·.2) := by
  refine List.filter_eq_self.mpr fun c hc => ?_
  obtain ⟨e, he, rfl⟩ := List.mem_map.mp hc
  exact (h.indexed r e he).1

theorem Linked.registry_of_listed (h : Linked w) {c : CoordinatorId} (hc : c ∈ w.listed r) :
    (w.coordinator c).registry = r := by
  obtain ⟨e, he, rfl⟩ := List.mem_map.mp (List.mem_filter.mp hc).1
  exact (h.indexed r e he).2

namespace Orderly

theorem isOpen_eq_false_iff (hw : Orderly w) {h : HandleId} :
    (w.handle h).isOpen = false ↔ (w.handle h).coordinator = none := by
  rw [hw.concord.counted.isOpen, Option.isSome_eq_false_iff, Option.isNone_iff_eq_none]

/-- Handles of the coordinators that are registered are closed: afterwards those remember none. -/
theorem coordinator_handle_resetRegistry (hw : Orderly w) {c : CoordinatorId}
    (hc : c ∈ w.listed r) {h : HandleId} (hopen : (w.handle h).coordinator = some c) :
    ((w.resetRegistry r).handle h).coordinator = none := by
  have hreset : Reset r w (w.resetRegistry r) := reset_resetRegistry hw.concord.counted r
  have hcounted := hw.concord.counted.resetRegistry r
  rcases hreset.coordinator h with hsame | hnone
  · have hmem := (hcounted.member c h).mpr (hsame.trans hopen)
    rw [hreset.closed c hc] at hmem
    cases hmem
  · exact hnone

/-- All other handles are as before. -/
theorem handle_resetRegistry (hw : Orderly w) {h : HandleId}
    (hh : ∀ c ∈ w.listed r, (w.handle h).coordinator ≠ some c) :
    (w.resetRegistry r).handle h = w.handle h := by
  have hcounted := hw.concord.counted
  refine (confined_resetRegistry hcounted r).handle h fun hmem => ?_
  obtain ⟨c, hc, hlive⟩ := List.mem_flatMap.mp hmem
  rw [hcounted.liveHandles] at hlive
  exact hh c hc ((hcounted.member c h).mp hlive)

/-- The other registries lead to nobody who was touched. -/
theorem registry_resetRegistry (hw : Orderly w) (s : RegistryId) :
    (w.resetRegistry r).registry s = if s = r then .empty else w.registry s := by
  obtain ⟨w₁, -, -, hregistry, hthins⟩ := exists_thins_resetRegistry hw.linked r
  rw [hthins.registry, hregistry]
  split
  · rfl
  · next hs =>
    refine Directory.filter_eq_self fun e he => ?_
    obtain ⟨halive, hregistered⟩ := hw.linked.indexed s e he
    have hsame : (w.resetRegistry r).coordinator e.2 = w.coordinator e.2 :=
      (confined_resetRegistry hw.concord.counted r).coordinator e.2 fun hmem =>
        hs (hregistered.symm.trans (hw.linked.registry_of_listed hmem))
    unfold World.isAliveCoordinator at halive ⊢
    rw [hsame]
    exact halive

end Orderly

end Resets

/-- **A reset closes everything of its registry and nothing else**, wherever calls were made one at a
time. The registry is empty then. The coordinators that were registered in it have lost all their
handles and their notifiers, and none of them listens for the commits to any file. Everybody else is
as before: the other registries, the coordinators that were not registered in this one and all that
is open with them, the listeners of files, in their order, and what was committed.

Whatever is called later, the handles that were closed stay closed, and to commit, to refresh, to
register a query or to collect results through any closed handle fails and changes nothing. -/
theorem reset_closes_registry {calls : List Call} (hallowed : Call.AllAllowed .start calls)
    (r : RegistryId) :
    let w := World.start.afterCalls calls
    let w' := w.resetRegistry r
    let registered := (w.registry r).entries.map (·.2)
    ((w'.registry r).entries = [] ∧
      ∀ c ∈ registered, (w'.coordinator c).notifier = none ∧ (∀ f, c ∉ (w'.file f).listeners) ∧
        ∀ h, (w.handle h).coordinator = some c →
          (w'.handle h).coordinator = none ∧ (w'.handle h).isOpen = false) ∧
    ((∀ s, s ≠ r → w'.registry s = w.registry s) ∧
      (∀ c ∈ registered, (w.coordinator c).registry = r) ∧
      (∀ c, c ∉ registered → w'.coordinator c = w.coordinator c) ∧
      (∀ h, (∀ c ∈ registered, (w.handle h).coordinator ≠ some c) → w'.handle h = w.handle h) ∧
      (∀ f, (w'.file f).listeners = (w.file f).listeners.filter (· ∉ registered)) ∧
      ∀ f, (w'.file f).commits = (w.file f).commits) ∧
    ∀ later, Call.AllAllowed w' later →
      let w'' := w'.afterCalls later
      (∀ c ∈ registered, ∀ h, (w.handle h).coordinator = some c → (w''.handle h).isOpen = false) ∧
      ∀ h, (w''.handle h).isOpen = false →
        (∀ log, (Action.commit h log).FailsIn w'') ∧ (Action.refresh h).FailsIn w'' ∧
        (∀ q, (Action.registerQuery h q).FailsIn w'') ∧ (Action.deliverAvailable h).FailsIn w'' := by
  intro w w' registered
  have horderly : Orderly w := Orderly.start.after hallowed
  have horderly' : Orderly w' := horderly.chore (x := .resetRegistry r) trivial
  have hlisted : w.listed r = registered := horderly.linked.listed_eq
  have hconfined := confined_resetRegistry horderly.concord.counted r
  have hnotifier : ∀ c ∈ w.listed r, (w'.coordinator c).notifier = none :=
    fun c hc => World.notifier_resetRegistry hc
  have hhome : ∀ c ∈ w.listed r, (w.coordinator c).registry = r :=
    fun c hc => horderly.linked.registry_of_listed hc
  have hclosed : ∀ c ∈ w.listed r, ∀ h, (w.handle h).coordinator = some c →
      (w'.handle h).coordinator = none :=
    fun c hc h hopen => horderly.coordinator_handle_resetRegistry hc hopen
  have hspared : ∀ h, (∀ c ∈ w.listed r, (w.handle h).coordinator ≠ some c) →
      w'.handle h = w.handle h := fun h hh => horderly.handle_resetRegistry hh
  rw [hlisted] at hconfined hnotifier hhome hclosed hspared
  have hempty : (w'.registry r).entries = [] := by
    rw [horderly.registry_resetRegistry, if_pos rfl]
    rfl
  have hothers : ∀ s, s ≠ r → w'.registry s = w.registry s := fun s hs => by
    rw [horderly.registry_resetRegistry, if_neg hs]
  refine ⟨⟨hempty, fun c hc => ⟨hnotifier c hc, fun f => ?_, fun h hopen => ?_⟩⟩,
    ⟨hothers, hhome, hconfined.coordinator, hspared,
      horderly.linked.tuned.listeners_of_confined horderly'.linked.tuned hconfined hnotifier,
      hconfined.commits⟩, fun later hlater => ?_⟩
  · exact List.count_eq_zero.mp (horderly'.linked.tuned.count_of_none (hnotifier c hc) f)
  · have hnone := hclosed c hc h hopen
    exact ⟨hnone, horderly'.isOpen_eq_false_iff.mpr hnone⟩
  intro w''
  have horderly'' : Orderly w'' := horderly'.after hlater
  refine ⟨fun c hc h hopen => horderly''.isOpen_eq_false_iff.mpr ?_, fun h hh => ?_⟩
  · have hmade : h < w.handles.size := World.lt_size_of_coordinator hopen
    have hsize : w.handles.size ≤ w'.handles.size :=
      (Call.coordinator_perform_of_closed w (.chore (.resetRegistry r))).1
    exact World.coordinator_afterCalls_of_closed later (Nat.lt_of_lt_of_le hmade hsize)
      (hclosed c hc h hopen)
  · have hnone := horderly''.isOpen_eq_false_iff.mp hh
    exact ⟨Action.failsIn_commit hnone, Action.failsIn_withCoordinator hnone _,
      fun q => Action.failsIn_withCoordinator hnone _, Action.failsIn_withCoordinator hnone _⟩

/-- A file is open through two registries, and through the first of them another one, read-only. -/
def sharedFile : List Call :=
  [.chore .makeEngine, .chore .makeRegistry, .chore .makeRegistry,
    .openFile 0 none (.forFile "/a" 0), .openFile 0 none { Config.forFile "/b" 0 with readOnly := true },
    .openFile 1 none (.forFile "/a" 0)]

/-- The first registry is reset, and the file is opened through it again. The coordinator of the
second one is the only listener after the reset, and its handle is open still; the first handle
stays closed. -/
theorem reset_closes_registry_sharedFile :
    let w := World.start.afterCalls sharedFile
    let w' := w.resetRegistry 0
    let w'' := w'.afterCalls [.openFile 0 none (.forFile "/a" 0)]
    Call.AllAllowed .start sharedFile ∧ (w.file ⟨0, "/a"⟩).listeners = [0, 2] ∧
      (w'.file ⟨0, "/a"⟩).listeners = (w.file ⟨0, "/a"⟩).listeners.filter
        (· ∉ (w.registry 0).entries.map (·.2)) ∧
      (w'.file ⟨0, "/a"⟩).listeners = [2] ∧ w'.handle 2 = w.handle 2 ∧ (w.handle 2).isOpen ∧
      (w.handle 0).isOpen ∧ (w''.handle 0).isOpen = false ∧ (w''.handle 3).isOpen ∧
      (Action.refresh 0).FailsIn w'' := by
  intro w w' w''
  have hallowed : Call.AllAllowed .start sharedFile := by decide +kernel
  obtain ⟨-, ⟨-, -, -, hhandle, hlisteners, -⟩, hlater⟩ := reset_closes_registry hallowed 0
  obtain ⟨hclosed, hfails⟩ := hlater [.openFile 0 none (.forFile "/a" 0)] (by decide +kernel)
  have h0 : (w''.handle 0).isOpen = false := hclosed 0 (by decide +kernel) 0 (by decide +kernel)
  exact ⟨hallowed, by decide +kernel, hlisteners ⟨0, "/a"⟩, by decide +kernel,
    hhandle 2 (by decide +kernel), by decide +kernel, by decide +kernel, h0, by decide +kernel,
    (hfails 0 h0).2.1⟩

end SnapshotCoordination
