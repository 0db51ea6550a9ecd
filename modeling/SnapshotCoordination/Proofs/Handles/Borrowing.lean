import SnapshotCoordination.Proofs.Handles.Committing
import SnapshotCoordination.Proofs.Handles.Counting

/-!
# References that are taken for a while

An operation holds on to what it works with: it takes references first and gives them up at the end.
As long as it takes them from what others hold on to as well, nothing goes when it gives them up, and
all references are as they were (`Borrowed`).

* **`Borrowed.retainCoordinator`**, **`Borrowed.releaseCoordinator`** — a reference is taken, and
  given up; it is the same with handles and notifiers;
* **`Action.run_onChange`**, **`run_wakeListeners`**, **`run_sendNotifications`** — what an
  announcement comes to if its callbacks do nothing;
* **`Action.retains_commit`**, **`retains_refresh`**, **`retains_sendNotifications`** — so an action
  whose callbacks do nothing leaves all references as they are.
-/

namespace SnapshotCoordination

/-! ## Giving up one reference of several -/

namespace World

variable {w : World}

theorem releaseCoordinator_of_shared {c : CoordinatorId} (h : 1 < (w.coordinator c).refs) :
    w.releaseCoordinator c = w.onCoordinator c fun s => { s with refs := s.refs - 1 } := by
  dsimp only [releaseCoordinator]
  rw [coordinator_onCoordinator_self, if_neg (by dsimp only; omega)]

theorem releaseHandle_of_shared {h : HandleId} (hshared : 1 < (w.handle h).refs) :
    w.releaseHandle h = w.onHandle h fun x => { x with refs := x.refs - 1 } := by
  dsimp only [releaseHandle]
  rw [handle_onHandle_self, if_neg (by dsimp only; omega)]

theorem releaseNotifier_of_shared {n : NotifierId} (h : 1 < (w.notifier n).refs) :
    w.releaseNotifier n = w.onNotifier n fun x => { x with refs := x.refs - 1 } := by
  dsimp only [releaseNotifier]
  rw [notifier_onNotifier, if_pos rfl, if_neg (by dsimp only; omega)]

end World

/-! ## References taken for a while -/

/-- From one world to the other a reference was taken for each place in these lists, to something
that has another one, and else no reference was taken or given up. -/
structure Borrowed (cs : List CoordinatorId) (hs : List HandleId) (ns : List NotifierId)
    (w w' : World) : Prop where
  coordinator : ∀ c, (w'.coordinator c).foreground =
    { (w.coordinator c).foreground with refs := (w.coordinator c).refs + cs.count c }
  handle : ∀ h, (w'.handle h).tie =
    { (w.handle h).tie with refs := (w.handle h).refs + hs.count h }
  notifier : ∀ n, 0 < (w.notifier n).refs →
    w'.notifier n = { w.notifier n with refs := (w.notifier n).refs + ns.count n }
  registry : ∀ r, w'.registry r = w.registry r
  listeners : ∀ f, (w'.file f).listeners.Sublist (w.file f).listeners
  awake : ∀ f, (w'.file f).listeners.filter w.isAliveCoordinator =
    (w.file f).listeners.filter w.isAliveCoordinator
  coordinators : ∀ c ∈ cs, w.isAliveCoordinator c
  handles : ∀ h ∈ hs, w.isAliveHandle h
  notifiers : ∀ n ∈ ns, 0 < (w.notifier n).refs

namespace Borrowed

variable {cs ds : List CoordinatorId} {hs is : List HandleId} {ns : List NotifierId}
  {w w' w'' : World}

theorem of_same (h : SameHoldings w w') : Borrowed [] [] [] w w' where
  coordinator := h.coordinator
  handle := h.handle
  notifier := h.notifier
  registry := h.registry
  listeners := h.listeners
  awake := h.awake
  coordinators _ := nofun
  handles _ := nofun
  notifiers _ := nofun

theorem same (h : Borrowed [] [] [] w w') : SameHoldings w w' :=
  ⟨h.coordinator, h.handle, h.notifier, h.registry, h.listeners, h.awake⟩

theorem coordinatorRefs (h : Borrowed cs hs ns w w') (c : CoordinatorId) :
    (w'.coordinator c).refs = (w.coordinator c).refs + cs.count c :=
  congrArg Foreground.refs (h.coordinator c)

theorem handleRefs (h : Borrowed cs hs ns w w') (i : HandleId) :
    (w'.handle i).refs = (w.handle i).refs + hs.count i := congrArg Tie.refs (h.handle i)

theorem notifierRefs (h : Borrowed cs hs ns w w') {n : NotifierId} (hn : 0 < (w.notifier n).refs) :
    (w'.notifier n).refs = (w.notifier n).refs + ns.count n :=
  congrArg Notifier.refs (h.notifier n hn)

/-- Nobody is alive for a borrowed reference only. -/
theorem isAliveCoordinator (h : Borrowed cs hs ns w w') :
    w'.isAliveCoordinator = w.isAliveCoordinator := by
  funext c
  have hrefs := h.coordinatorRefs c
  by_cases hc : c ∈ cs
  · have halive := h.coordinators c hc
    simp only [World.isAliveCoordinator, decide_eq_true_eq] at halive
    simp only [World.isAliveCoordinator, decide_eq_decide]
    omega
  · rw [List.count_eq_zero.mpr hc] at hrefs
    simp only [World.isAliveCoordinator, decide_eq_decide]
    omega

theorem andThen (h : Borrowed cs hs ns w w') (h' : SameHoldings w' w'') :
    Borrowed cs hs ns w w'' where
  coordinator c := (h'.coordinator c).trans (h.coordinator c)
  handle i := (h'.handle i).trans (h.handle i)
  notifier n hn := by
    have hheld := h.notifierRefs hn
    exact (h'.notifier n (by omega)).trans (h.notifier n hn)
  registry r := (h'.registry r).trans (h.registry r)
  listeners f := (h'.listeners f).trans (h.listeners f)
  awake f := by
    have hawake := h'.awake f
    rw [h.isAliveCoordinator] at hawake
    exact hawake.trans (h.awake f)
  coordinators := h.coordinators
  handles := h.handles
  notifiers := h.notifiers

/-- The order in which references were taken is of no matter. -/
theorem of_perm (h : Borrowed cs hs ns w w') (hcs : cs.Perm ds) (hhs : hs.Perm is) :
    Borrowed ds is ns w w' :=
  { h with
    coordinator := fun c => by rw [← hcs.count_eq]; exact h.coordinator c
    handle := fun i => by rw [← hhs.count_eq]; exact h.handle i
    coordinators := fun c hc => h.coordinators c (hcs.mem_iff.mpr hc)
    handles := fun i hi => h.handles i (hhs.mem_iff.mpr hi) }

/-! ### Coordinators -/

theorem retainCoordinator (h : Borrowed cs hs ns w w') {c : CoordinatorId}
    (halive : w.isAliveCoordinator c) : Borrowed (c :: cs) hs ns w (w'.retainCoordinator c) :=
  { h with
    coordinator := fun d => by
      have hd := h.coordinator d
      rw [World.coordinator_retainCoordinator, List.count_cons]
      by_cases hdc : d = c
      · subst hdc
        have hrefs := h.coordinatorRefs d
        rw [if_pos rfl]
        simp only [Coordinator.foreground, Foreground.mk.injEq] at hd ⊢
        simp only [hd, beq_self_eq_true, if_true, true_and, and_true]
        omega
      · rw [if_neg hdc, hd]
        simp [Ne.symm hdc]
    coordinators := fun d hd => by
      rcases List.mem_cons.mp hd with rfl | hd
      · exact halive
      · exact h.coordinators d hd }

theorem releaseCoordinator {c : CoordinatorId} (h : Borrowed (c :: cs) hs ns w w') :
    Borrowed cs hs ns w (w'.releaseCoordinator c) := by
  have hrefs := h.coordinatorRefs c
  have halive := h.coordinators c List.mem_cons_self
  simp only [World.isAliveCoordinator, decide_eq_true_eq] at halive
  simp only [List.count_cons_self] at hrefs
  rw [World.releaseCoordinator_of_shared (by omega)]
  exact
    { h with
      coordinator := fun d => by
        have hd := h.coordinator d
        rw [World.coordinator_onCoordinator]
        rw [List.count_cons] at hd
        by_cases hdc : d = c
        · subst hdc
          rw [if_pos rfl]
          simp only [Coordinator.foreground, Foreground.mk.injEq] at hd ⊢
          simp only [hd, beq_self_eq_true, if_true, true_and, and_true]
          omega
        · rw [if_neg hdc, hd]
          simp [Ne.symm hdc]
      coordinators := fun d hd => h.coordinators d (List.mem_cons_of_mem c hd) }

theorem retainCoordinators (h : Borrowed cs hs ns w w')
    (halive : ∀ c ∈ ds, w.isAliveCoordinator c) :
    Borrowed (ds ++ cs) hs ns w (ds.foldl World.retainCoordinator w') := by
  induction ds generalizing cs w' with
  | nil => exact h
  | cons d ds ih =>
    have hrest := ih (h.retainCoordinator (halive d List.mem_cons_self))
      fun c hc => halive c (List.mem_cons_of_mem d hc)
    exact hrest.of_perm List.perm_middle (.refl hs)

/-! ### Handles -/

theorem retainHandle (h : Borrowed cs hs ns w w') {i : HandleId} (halive : w.isAliveHandle i) :
    Borrowed cs (i :: hs) ns w (w'.retainHandle i) :=
  { h with
    handle := fun j => by
      have hj := h.handle j
      rw [World.handle_retainHandle, List.count_cons]
      by_cases hji : j = i
      · subst hji
        rw [if_pos rfl]
        simp only [Handle.tie, Tie.mk.injEq] at hj ⊢
        refine ⟨hj.1, ?_, hj.2.2.1, hj.2.2.2⟩
        simp only [hj.2.1, beq_self_eq_true, if_true]
        omega
      · rw [if_neg hji, hj]
        simp [Ne.symm hji]
    handles := fun j hj => by
      rcases List.mem_cons.mp hj with rfl | hj
      · exact halive
      · exact h.handles j hj }

theorem releaseHandle {i : HandleId} (h : Borrowed cs (i :: hs) ns w w') :
    Borrowed cs hs ns w (w'.releaseHandle i) := by
  have hrefs := h.handleRefs i
  have halive := h.handles i List.mem_cons_self
  simp only [World.isAliveHandle, decide_eq_true_eq] at halive
  simp only [List.count_cons_self] at hrefs
  rw [World.releaseHandle_of_shared (by omega)]
  exact
    { h with
      handle := fun j => by
        have hj := h.handle j
        rw [World.handle_onHandle]
        rw [List.count_cons] at hj
        by_cases hji : j = i
        · subst hji
          rw [if_pos rfl]
          simp only [Handle.tie, Tie.mk.injEq] at hj ⊢
          refine ⟨hj.1, ?_, hj.2.2.1, hj.2.2.2⟩
          simp only [hj.2.1, beq_self_eq_true, if_true]
          omega
        · rw [if_neg hji, hj]
          simp [Ne.symm hji]
      handles := fun j hj => h.handles j (List.mem_cons_of_mem i hj) }

theorem retainHandles (h : Borrowed cs hs ns w w') (halive : ∀ i ∈ is, w.isAliveHandle i) :
    Borrowed cs (is ++ hs) ns w (is.foldl World.retainHandle w') := by
  induction is generalizing hs w' with
  | nil => exact h
  | cons i is ih =>
    have hrest := ih (h.retainHandle (halive i List.mem_cons_self))
      fun j hj => halive j (List.mem_cons_of_mem i hj)
    exact hrest.of_perm (.refl cs) List.perm_middle

theorem releaseHandles (h : Borrowed cs (is ++ hs) ns w w') :
    Borrowed cs hs ns w (is.foldl World.releaseHandle w') := by
  induction is generalizing w' with
  | nil => exact h
  | cons i is ih => exact ih (releaseHandle h)

/-! ### Notifiers -/

theorem retainNotifier (h : Borrowed cs hs ns w w') {n : NotifierId} (hheld : 0 < (w.notifier n).refs) :
    Borrowed cs hs (n :: ns) w (w'.retainNotifier n) :=
  { h with
    notifier := fun m hheld => by
      have hm := h.notifier m hheld
      rw [World.retainNotifier, World.notifier_onNotifier, List.count_cons]
      by_cases hmn : m = n
      · subst hmn
        rw [if_pos rfl, hm]
        simp [Nat.add_assoc]
      · rw [if_neg hmn, hm]
        simp [Ne.symm hmn]
    notifiers := fun m hm => by
      rcases List.mem_cons.mp hm with rfl | hm
      · exact hheld
      · exact h.notifiers m hm }

theorem releaseNotifier {n : NotifierId} (h : Borrowed cs hs (n :: ns) w w') :
    Borrowed cs hs ns w (w'.releaseNotifier n) := by
  have hheld := h.notifiers n List.mem_cons_self
  have hrefs := h.notifierRefs hheld
  simp only [List.count_cons_self] at hrefs
  rw [World.releaseNotifier_of_shared (by omega)]
  exact
    { h with
      notifier := fun m hheld => by
        have hm := h.notifier m hheld
        rw [World.notifier_onNotifier]
        rw [List.count_cons] at hm
        by_cases hmn : m = n
        · subst hmn
          rw [if_pos rfl, hm]
          simp
        · rw [if_neg hmn, hm]
          simp [Ne.symm hmn]
      notifiers := fun m hm => h.notifiers m (List.mem_cons_of_mem n hm) }

end Borrowed

/-! ## What announcements come to -/

namespace Step

theorem run_forM_of {α : Type} {s : α → Step Unit} {f : World → α → World}
    (h : ∀ a w, (s a).run w = (f w a, .ok ())) (as : List α) (w : World) :
    (as.forM s).run w = (as.foldl f w, .ok ()) := by
  induction as generalizing w with
  | nil => rfl
  | cons a as ih =>
    show (s a >>= fun _ => as.forM s).run w = _
    rw [run_bind_ok (h a w), ih, List.foldl_cons]

end Step

namespace World

/-- A handle is told that there is something new, and so is its context. -/
def tell (w : World) (h : HandleId) : World :=
  let told := w.onHandle h fun x => { x with pending := true }
  match (w.handle h).context with
  | none => told
  | some context => told.note (.available context)

/-- The world after a cycle whose callbacks do nothing. -/
def cycled (w : World) (c : CoordinatorId) : World := ((Action.runCycle c).quiet.run w).1

/-- The handles of a coordinator are told, each of which is kept alive meanwhile. -/
def tellAll (w : World) (c : CoordinatorId) : World :=
  let hs := w.liveHandles c
  hs.foldl releaseHandle (hs.foldl tell (hs.foldl retainHandle w))

/-- The coordinators that are to be woken are kept alive until it is their turn. -/
def wake (w : World) (cs : List CoordinatorId) : World :=
  cs.foldl (fun w c => ((w.cycled c).tellAll c).releaseCoordinator c)
    (cs.foldl retainCoordinator w)

/-- Every live listener of a notifier's file is woken. -/
def announce (w : World) (n : NotifierId) : World :=
  let f := (w.notifier n).file
  let file := (w.file f).sweepListeners w.isAliveCoordinator
  (w.setFile f file).wake file.listeners

end World

namespace Action

theorem run_notifyHandle (h : HandleId) (w : World) :
    (notifyHandle h).quiet.run w = (w.tell h, .ok ()) := by
  let told := w.onHandle h fun x => { x with pending := true }
  have hbegin : (notifyHandle h).quiet.run w =
      (match (told.handle h).context with
        | none => pure ()
        | some context => do
          ofStep (Step.note (.available context))
          callOut (.available context) : Action Unit).quiet.run told := rfl
  have hcontext : (told.handle h).context = (w.handle h).context := by
    rw [World.handle_onHandle_self]
  rw [hbegin, hcontext]
  unfold World.tell
  cases (w.handle h).context <;> rfl

theorem run_onChange (c : CoordinatorId) (w : World) :
    (onChange c).quiet.run w = ((w.cycled c).tellAll c, ((runCycle c).quiet.run w).2) := by
  let w₁ := w.cycled c
  let hs := w₁.liveHandles c
  let outcome := ((runCycle c).quiet.run w).2
  have hcycle : (runCycle c).attempt.quiet.run w = (w₁, .ok outcome) := by
    rw [quiet_attempt, Step.run_attempt]
    rfl
  have htold : (hs.forM notifyHandle).quiet.run (hs.foldl World.retainHandle w₁) =
      (hs.foldl World.tell (hs.foldl World.retainHandle w₁), .ok ()) := by
    rw [quiet_forM]
    exact Step.run_forM_of run_notifyHandle hs _
  have hquiet : (onChange c).quiet.run w = (do
      ofStep (.update (hs.foldl World.retainHandle ·))
      hs.forM notifyHandle
      ofStep (.update (hs.foldl World.releaseHandle ·))
      ofStep (.ofExcept outcome) : Action Unit).quiet.run w₁ := by
    unfold onChange
    rw [quiet_bind, Step.run_bind_ok hcycle]
    rfl
  rw [hquiet, quiet_bind]
  show ((do
      hs.forM notifyHandle
      ofStep (.update (hs.foldl World.releaseHandle ·))
      ofStep (.ofExcept outcome) : Action Unit)).quiet.run (hs.foldl World.retainHandle w₁) = _
  rw [quiet_bind, Step.run_bind_ok htold]
  rfl

/-- Each listener is woken, whatever became of the cycles of those before it. -/
theorem run_wakeListeners (n : NotifierId) (w : World) :
    (wakeListeners n).quiet.run w = (w.announce n, .ok ()) := by
  let f := (w.notifier n).file
  let file := (w.file f).sweepListeners w.isAliveCoordinator
  have hone : ∀ c w, (do
      let _ ← (onChange c).attempt
      ofStep (.update (·.releaseCoordinator c)) : Action Unit).quiet.run w =
        (((w.cycled c).tellAll c).releaseCoordinator c, .ok ()) := by
    intro c w
    have hattempt : (onChange c).attempt.quiet.run w =
        ((w.cycled c).tellAll c, .ok ((runCycle c).quiet.run w).2) := by
      rw [quiet_attempt, Step.run_attempt, run_onChange]
    rw [quiet_bind, Step.run_bind_ok hattempt]
    rfl
  have hquiet : (wakeListeners n).quiet.run w = (file.listeners.forM fun c => do
      let _ ← (onChange c).attempt
      ofStep (.update (·.releaseCoordinator c)) : Action Unit).quiet.run
        (file.listeners.foldl World.retainCoordinator (w.setFile f file)) := rfl
  rw [hquiet, quiet_forM]
  exact Step.run_forM_of hone file.listeners _

theorem run_sendNotifications (c : CoordinatorId) (w : World) :
    (sendNotifications c).quiet.run w =
      if (w.coordinator c).config.any (·.readOnly) then (w, .error (.readOnly (w.coordinator c).path))
      else
        match (w.coordinator c).notifier with
        | none => (w, .ok ())
        | some n => (((w.retainNotifier n).announce n).releaseNotifier n, .ok ()) := by
  have hbegin : (sendNotifications c).quiet.run w =
      (if (w.coordinator c).config.any (·.readOnly) then
        ofStep (Step.fail (.readOnly (w.coordinator c).path))
      else
        match (w.coordinator c).notifier with
        | none => pure ()
        | some n => do
          ofStep (.update (·.retainNotifier n))
          (wakeListeners n).ensuring (·.releaseNotifier n) : Action Unit).quiet.run w := rfl
  rw [hbegin]
  split
  · rfl
  · cases (w.coordinator c).notifier with
    | none => rfl
    | some n =>
      have hensured := finish_ensuring (fun _ w => w) (wakeListeners n) (·.releaseNotifier n)
        (w.retainNotifier n)
      have hwoken : ((wakeListeners n).begin (w.retainNotifier n)).finish (fun _ w => w) = _ :=
        run_wakeListeners n (w.retainNotifier n)
      rw [hwoken] at hensured
      exact hensured

end Action

/-! ## What leaves all references as they are -/

section Telling

variable (w : World)

theorem sameHoldings_cycled (c : CoordinatorId) : SameHoldings w (w.cycled c) :=
  (covers_sameHoldings c).runCycle w

theorem sameHoldings_tell (h : HandleId) : SameHoldings w (w.tell h) := by
  have hpending : SameHoldings w (w.onHandle h fun x => { x with pending := true }) :=
    .onHandle w h rfl
  unfold World.tell
  dsimp only
  split
  · exact hpending
  · exact hpending.trans (.note _ _)

theorem sameHoldings_foldl_tell (hs : List HandleId) : SameHoldings w (hs.foldl World.tell w) := by
  induction hs generalizing w with
  | nil => exact .refl w
  | cons h hs ih => exact (sameHoldings_tell w h).trans (ih (w.tell h))

theorem sameHoldings_tellAll (c : CoordinatorId) : SameHoldings w (w.tellAll c) := by
  let hs := w.liveHandles c
  have hheld : Borrowed [] (hs ++ []) [] w (hs.foldl World.retainHandle w) :=
    (Borrowed.of_same (.refl w)).retainHandles fun h hh => (List.mem_filter.mp hh).2
  exact (hheld.andThen (sameHoldings_foldl_tell _ hs)).releaseHandles.same

theorem sameHoldings_wake {cs : List CoordinatorId} (halive : ∀ c ∈ cs, w.isAliveCoordinator c) :
    SameHoldings w (w.wake cs) := by
  have hrest : ∀ (cs : List CoordinatorId) w', Borrowed cs [] [] w w' → SameHoldings w
      (cs.foldl (fun w c => ((w.cycled c).tellAll c).releaseCoordinator c) w') := by
    intro cs
    induction cs with
    | nil => exact fun w' h => h.same
    | cons c cs ih =>
      intro w' h
      have htold := h.andThen ((sameHoldings_cycled w' c).trans (sameHoldings_tellAll _ c))
      exact ih _ htold.releaseCoordinator
  refine hrest cs _ ?_
  have hheld := (Borrowed.of_same (.refl w)).retainCoordinators halive
  rw [List.append_nil] at hheld
  exact hheld

theorem sameHoldings_announce (n : NotifierId) : SameHoldings w (w.announce n) := by
  let f := (w.notifier n).file
  have hswept : SameHoldings w (w.setFile f ((w.file f).sweepListeners w.isAliveCoordinator)) :=
    .sweepListeners w f
  refine hswept.trans (sameHoldings_wake _ fun c hc => ?_)
  rw [hswept.isAliveCoordinator]
  exact (List.mem_filter.mp hc).2

end Telling

/-- Open handles have coordinators that are alive, and coordinators notifiers that are. -/
structure Supported (w : World) : Prop where
  coordinator : ∀ h c, (w.handle h).coordinator = some c → w.isAliveCoordinator c
  notifier : ∀ c n, (w.coordinator c).notifier = some n → 0 < (w.notifier n).refs

namespace Supported

variable {w w' : World}

/-- To take references supports whatever was supported. -/
theorem borrowed (h : Supported w) {cs : List CoordinatorId} {hs : List HandleId}
    {ns : List NotifierId} (hborrowed : Borrowed cs hs ns w w') : Supported w' where
  coordinator i c hi := by
    rw [hborrowed.isAliveCoordinator]
    have hsame : (w'.handle i).coordinator = (w.handle i).coordinator :=
      congrArg Tie.coordinator (hborrowed.handle i)
    exact h.coordinator i c (hsame ▸ hi)
  notifier c n hc := by
    have hsame : (w'.coordinator c).notifier = (w.coordinator c).notifier :=
      congrArg Foreground.notifier (hborrowed.coordinator c)
    have hheld := h.notifier c n (hsame ▸ hc)
    rw [hborrowed.notifierRefs hheld]
    omega

end Supported

/-- All references are as they were, if they supported what was open. -/
def Retains (w w' : World) : Prop := Supported w → SameHoldings w w'

instance : IsPreorder World Retains where
  refl w _ := .refl w
  trans _ _ _ h h' hw := (h hw).trans (h' (hw.borrowed (.of_same (h hw))))

namespace Retains

theorem of_same {w w' : World} (h : SameHoldings w w') : Retains w w' := fun _ => h

theorem chore (w : World) {x : Chore} (hx : x.counts = false) : Retains w (x.perform w) :=
  of_same (x.sameHoldings_perform w hx)

end Retains

namespace Action

variable {α : Type}

theorem retains_onChange (c : CoordinatorId) : (onChange c).quiet.Stays Retains := by
  intro w
  rw [run_onChange]
  exact .of_same ((sameHoldings_cycled w c).trans (sameHoldings_tellAll _ c))

theorem retains_sendNotifications (c : CoordinatorId) :
    (sendNotifications c).quiet.Stays Retains := by
  intro w hw
  rw [run_sendNotifications]
  split
  · exact .refl w
  · split
    · exact .refl w
    · next n hn =>
      have hheld := (Borrowed.of_same (.refl w)).retainNotifier (hw.notifier c n hn)
      exact (hheld.andThen (sameHoldings_announce _ n)).releaseNotifier.same

theorem retains_withCoordinator {h : HandleId} {act : CoordinatorId → Action α}
    (hact : ∀ c, (act c).quiet.Stays Retains) : (withCoordinator h act).quiet.Stays Retains := by
  intro w hw
  cases hcoordinator : (w.handle h).coordinator with
  | none =>
    have hclosed := finish_withCoordinator_of_closed (fun _ w => w) hcoordinator act
    show SameHoldings w (((withCoordinator h act).begin w).finish fun _ w => w).1
    rw [hclosed]
    exact .refl w
  | some c =>
    have hopen := finish_withCoordinator (fun _ w => w) hcoordinator act
    show SameHoldings w (((withCoordinator h act).begin w).finish fun _ w => w).1
    rw [hopen]
    have hheld := (Borrowed.of_same (.refl w)).retainCoordinator (hw.coordinator h c hcoordinator)
    exact (hheld.andThen (hact c _ (hw.borrowed hheld))).releaseCoordinator.same

theorem retains_commit (h : HandleId) (log : Log) : (commit h log).quiet.Stays Retains := by
  intro w
  have hbegin := finish_commit (fun _ w => w) h log w
  show Retains w (((commit h log).begin w).finish fun _ w => w).1
  rw [hbegin]
  split
  · exact refl_of Retains w
  · refine retains_withCoordinator (fun c => ?_) w
    refine stays_bind (a := ofStep _) (fun w => .of_same (Step.sameHoldings_commit _ log w))
      fun version => ?_
    refine stays_bind (a := ofStep _) (fun w => .of_same (Step.sameHoldings_moveHandle h _ w))
      fun _ => ?_
    exact stays_bind (retains_sendNotifications c) fun _ => .pure version

theorem retains_callCallbacks (q : QueryId) : (callCallbacks q).quiet.Stays Retains :=
  stays_bind (a := ofStep _) (fun w => .chore w (x := .tellCallbacks q) rfl) fun _ => .pure ()

theorem retains_advanceToReady (c : CoordinatorId) (h : HandleId) :
    (advanceToReady c h).quiet.Stays Retains :=
  stays_bind (a := ofStep _) (fun w => .chore w (x := .settle c h) rfl) fun due =>
    stays_bind (stays_forM retains_callCallbacks due.2) fun _ => .pure _

theorem retains_processAvailable (c : CoordinatorId) (h : HandleId) :
    (processAvailable c h).quiet.Stays Retains :=
  stays_bind (a := ofStep _) (fun w => .chore w (x := .deliverHere c h) rfl) fun due =>
    stays_forM retains_callCallbacks due

theorem retains_refresh (h : HandleId) : (refresh h).quiet.Stays Retains := by
  refine retains_withCoordinator fun c => ?_
  refine stays_bind (a := ofStep _) (fun w => .chore w (x := .setPending h false) rfl) fun _ => ?_
  refine stays_bind (retains_advanceToReady c h) fun moved => ?_
  cases moved with
  | false => exact .pure ()
  | true =>
    refine stays_bind (a := ofStep _) .world fun w => ?_
    cases (w.handle h).context with
    | none => exact .pure ()
    | some context =>
      exact stays_bind (a := ofStep _) (fun w => .chore w (x := .tellDidChange context) rfl)
        fun _ => .pure ()

theorem retains_deliverAvailable (h : HandleId) : (deliverAvailable h).quiet.Stays Retains :=
  retains_withCoordinator fun c => retains_processAvailable c h

theorem retains_registerQuery (h : HandleId) (q : QueryId) :
    (registerQuery h q).quiet.Stays Retains :=
  retains_withCoordinator fun c w => .of_same ((covers_sameHoldings c).registerQuery q w)

end Action

end SnapshotCoordination
