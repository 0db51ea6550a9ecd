import SnapshotCoordination.Proofs.Handles.Agreement

/-!
# Who is registered where

A coordinator with a notifier is registered, exactly once, as a listener of the file that its
canonical configuration names, and nobody else is registered anywhere. A registry leads to
coordinators that are alive and were made for it. While nobody but its coordinator refers to a
notifier, all this stays so (`Linked`):

* **`Linked.dropNotifier`**, **`Linked.releaseCoordinator`** — with a notifier its registration goes;
* **`Linked.asked`** — a handle is asked for: a notifier that was made for nothing is gone again;
* **`Linked.chore`** — all chores that leave the references to notifiers to coordinators.
-/

namespace SnapshotCoordination

/-! ## What is seen after a notifier was given up -/

namespace File

theorem count_listen (x : File) (l d : ListenerId) :
    (x.listen l).listeners.count d = x.listeners.count d + if d = l then 1 else 0 := by
  by_cases h : d = l
  · simp [listen, h]
  · simp [listen, h, Ne.symm h]

theorem count_unlisten (x : File) (alive : ListenerId → Bool) (l d : ListenerId) :
    (x.unlisten alive l).listeners.count d =
      if alive d ∧ d ≠ l then x.listeners.count d else 0 := by
  unfold unlisten
  split
  · next h => exact List.count_filter (by simpa using h)
  · next h =>
    apply List.count_eq_zero.mpr
    intro hmem
    exact h (by simpa using (List.mem_filter.mp hmem).2)

end File

namespace World

variable {w : World} {c : CoordinatorId} {n : NotifierId}

/-- The last reference to a notifier is given up. -/
theorem releaseNotifier_of_last (h : (w.notifier n).refs = 1) :
    w.releaseNotifier n =
      { w.setFile (w.notifier n).file
          ((w.file (w.notifier n).file).unlisten w.isAliveCoordinator (w.notifier n).listener) with
        notifiers := w.notifiers.modify n fun x => { x with refs := x.refs - 1 } } := by
  have hafter : (w.onNotifier n fun x => { x with refs := x.refs - 1 }).notifier n =
      { w.notifier n with refs := 0 } := by
    rw [notifier_onNotifier, if_pos rfl, h]
  dsimp only [releaseNotifier]
  rw [hafter, if_pos rfl, retireNotifier, hafter]
  rfl

theorem registry_releaseNotifier (w : World) (n : NotifierId) (r : RegistryId) :
    (w.releaseNotifier n).registry r = w.registry r := by
  dsimp only [releaseNotifier]
  split <;> rfl

theorem registry_dropNotifier (w : World) (c : CoordinatorId) (r : RegistryId) :
    (w.dropNotifier c).registry r = w.registry r := by
  unfold dropNotifier
  split
  · exact registry_releaseNotifier _ _ r
  · rfl

theorem isAliveCoordinator_dropNotifier (w : World) (c : CoordinatorId) :
    (w.dropNotifier c).isAliveCoordinator = w.isAliveCoordinator := by
  funext d
  unfold isAliveCoordinator
  rw [coordinator_dropNotifier]
  split
  · next hd => rw [hd]
  · rfl

theorem notifier_releaseNotifier_of_ne (w : World) {m : NotifierId} (h : m ≠ n) :
    (w.releaseNotifier n).notifier m = w.notifier m := by
  have hcount : (w.onNotifier n fun x => { x with refs := x.refs - 1 }).notifier m = w.notifier m := by
    rw [notifier_onNotifier, if_neg h]
  dsimp only [releaseNotifier]
  split <;> exact hcount

theorem notifier_dropNotifier_of_ne (hc : (w.coordinator c).notifier = some n) {m : NotifierId}
    (h : m ≠ n) : (w.dropNotifier c).notifier m = w.notifier m := by
  unfold dropNotifier
  rw [hc]
  exact notifier_releaseNotifier_of_ne _ h

theorem listeners_dropNotifier (hc : (w.coordinator c).notifier = some n)
    (hlast : (w.notifier n).refs = 1) (hlistener : (w.notifier n).listener = c) (f : FileId)
    (d : CoordinatorId) :
    ((w.dropNotifier c).file f).listeners.count d =
      if f = (w.notifier n).file ∧ ¬ (w.isAliveCoordinator d ∧ d ≠ c) then 0
      else (w.file f).listeners.count d := by
  let w₁ := w.onCoordinator c fun s => { s with notifier := none }
  have hlast₁ : (w₁.notifier n).refs = 1 := hlast
  have halive : w₁.isAliveCoordinator = w.isAliveCoordinator := by
    funext d
    exact w.read_onCoordinator (fun s => decide (0 < s.refs)) (fun _ => by rfl) c d
  have hdrop : w.dropNotifier c = w₁.releaseNotifier n := by
    unfold dropNotifier
    rw [hc]
  rw [hdrop, releaseNotifier_of_last hlast₁, halive]
  show ((w₁.setFile (w.notifier n).file ((w.file (w.notifier n).file).unlisten w.isAliveCoordinator
    (w.notifier n).listener)).file f).listeners.count d = _
  rw [file_setFile, hlistener]
  by_cases hf : f = (w.notifier n).file
  · rw [if_pos hf, File.count_unlisten, ← hf]
    by_cases hd : w.isAliveCoordinator d ∧ d ≠ c
    · rw [if_pos hd, if_neg fun h => h.2 hd]
    · rw [if_neg hd, if_pos ⟨rfl, hd⟩]
  · rw [if_neg hf, if_neg fun h => hf h.1]
    rfl

/-- The file whose commits a coordinator hears of. -/
def hears (w : World) (c : CoordinatorId) : Option FileId :=
  (w.coordinator c).notifier.map fun n => (w.notifier n).file

theorem isSome_notifier_of_hears {f : FileId} (h : w.hears c = some f) :
    (w.coordinator c).notifier.isSome := by
  unfold hears at h
  rw [← Option.isSome_map, h]
  rfl

end World

/-! ## Notifiers -/

/-- A coordinator that has a notifier is the only one to refer to it, and the notifier is for the
file of its canonical configuration. It is registered once with that file, and with no other one. -/
structure Tuned (w : World) : Prop where
  owned : ∀ c n, (w.coordinator c).notifier = some n →
    (w.notifier n).listener = c ∧ (w.notifier n).refs = 1
  aimed : ∀ c n, (w.coordinator c).notifier = some n → ∃ canonical,
    (w.coordinator c).config = some canonical ∧ canonical.file? = some (w.notifier n).file
  listed : ∀ f c, (w.file f).listeners.count c = if w.hears c = some f then 1 else 0

namespace Tuned

variable {w w' : World} {c : CoordinatorId}

/-- Coordinators kept their notifiers, and files their listeners. -/
theorem congr (h : Tuned w) (hnotifier : ∀ c, (w'.coordinator c).notifier = (w.coordinator c).notifier)
    (hconfig : ∀ c, (w.coordinator c).notifier.isSome →
      (w'.coordinator c).config = (w.coordinator c).config)
    (hnotifiers : ∀ c n, (w.coordinator c).notifier = some n → w'.notifier n = w.notifier n)
    (hlisteners : ∀ f c, (w'.file f).listeners.count c = (w.file f).listeners.count c) :
    Tuned w' where
  owned c n hc := by
    rw [hnotifier] at hc
    rw [hnotifiers c n hc]
    exact h.owned c n hc
  aimed c n hc := by
    rw [hnotifier] at hc
    rw [hnotifiers c n hc, hconfig c (by rw [hc]; rfl)]
    exact h.aimed c n hc
  listed f c := by
    have hhears : w'.hears c = w.hears c := by
      unfold World.hears
      rw [hnotifier]
      cases hc : (w.coordinator c).notifier with
      | none => rfl
      | some n => exact congrArg (fun x : Notifier => some x.file) (hnotifiers c n hc)
    rw [hlisteners, hhears]
    exact h.listed f c

/-- Who has no notifier is registered nowhere. -/
theorem count_of_none (h : Tuned w) (hnone : (w.coordinator c).notifier = none) (f : FileId) :
    (w.file f).listeners.count c = 0 := by
  rw [h.listed, if_neg]
  intro hhears
  have hsome := World.isSome_notifier_of_hears hhears
  rw [hnone] at hsome
  cases hsome

/-- Notifiers that were not made are nobody's. -/
theorem lt_size (h : Tuned w) {n : NotifierId} (hc : (w.coordinator c).notifier = some n) :
    n < w.notifiers.size := by
  have hrefs : (w.notifier n).refs = 1 := (h.owned c n hc).2
  refine Table.lt_size_of_ne Notifier.refs ?_
  rw [show (w.notifiers.get n).refs = 1 from hrefs]
  nofun

/-- **A coordinator gives its notifier up**, and is registered nowhere after that. All others that
have one are alive, but this one need not be. -/
theorem dropNotifier (h : Tuned w)
    (hawake : ∀ d, d ≠ c → (w.coordinator d).notifier.isSome → w.isAliveCoordinator d) :
    Tuned (w.dropNotifier c) := by
  cases hc : (w.coordinator c).notifier with
  | none =>
    unfold World.dropNotifier
    rw [hc]
    exact h
  | some n =>
    obtain ⟨hlistener, hlast⟩ := h.owned c n hc
    have hcoordinator := w.coordinator_dropNotifier c
    -- what others have is as it was
    have hothers : ∀ d m, ((w.dropNotifier c).coordinator d).notifier = some m →
        d ≠ c ∧ (w.coordinator d).notifier = some m ∧
          (w.dropNotifier c).notifier m = w.notifier m := by
      intro d m hd
      rw [hcoordinator] at hd
      split at hd
      · cases hd
      · next hne =>
        refine ⟨hne, hd, World.notifier_dropNotifier_of_ne hc fun heq => hne ?_⟩
        exact (h.owned d m hd).1.symm.trans (heq ▸ hlistener)
    have hhears : ∀ d, (w.dropNotifier c).hears d = if d = c then none else w.hears d := by
      intro d
      unfold World.hears
      cases hd : ((w.dropNotifier c).coordinator d).notifier with
      | none =>
        rw [hcoordinator] at hd
        split
        · rfl
        · next hne =>
          rw [if_neg hne] at hd
          rw [hd]
          rfl
      | some m =>
        obtain ⟨hne, hd', hm⟩ := hothers d m hd
        rw [if_neg hne, hd', Option.map_some, hm]
        rfl
    refine ⟨fun d m hd => ?_, fun d m hd => ?_, fun f d => ?_⟩
    · obtain ⟨-, hd, hm⟩ := hothers d m hd
      rw [hm]
      exact h.owned d m hd
    · obtain ⟨hne, hd', hm⟩ := hothers d m hd
      rw [hm, hcoordinator, if_neg hne]
      exact h.aimed d m hd'
    · have hlisted := h.listed f d
      rw [hhears, World.listeners_dropNotifier hc hlast hlistener]
      by_cases hdc : d = c
      · subst hdc
        have hfile : w.hears d = some (w.notifier n).file := by rw [World.hears, hc, Option.map_some]
        simp only [if_true, reduceCtorEq, if_false]
        split
        · rfl
        · next hf =>
          rw [hlisted, hfile, if_neg]
          intro heq
          exact hf ⟨(Option.some_inj.mp heq).symm, fun h => h.2 rfl⟩
      · rw [if_neg hdc, ← hlisted]
        split
        · next hgone =>
          -- who is gone has no notifier
          rw [hlisted, if_neg]
          intro heq
          exact hgone.2 ⟨hawake d hdc (World.isSome_notifier_of_hears heq), hdc⟩
        · rfl

end Tuned

/-! ## Links -/

/-- Whoever is registered is alive, be it with a file or in a registry. -/
structure Linked (w : World) : Prop where
  tuned : Tuned w
  awake : ∀ c, (w.coordinator c).notifier.isSome → w.isAliveCoordinator c
  indexed : ∀ r, ∀ e ∈ (w.registry r).entries,
    w.isAliveCoordinator e.2 ∧ (w.coordinator e.2).registry = r

namespace Linked

variable {w w' : World} {c : CoordinatorId}

theorem start : Linked .start where
  tuned :=
    { owned := fun _ _ h => nomatch h
      aimed := fun _ _ h => nomatch h
      listed := fun _ _ => rfl }
  awake _ h := nomatch h
  indexed _ _ h := nomatch h

/-- Nobody who was alive is gone, and all links are as they were. -/
theorem congr (h : Linked w) (htuned : Tuned w')
    (hnotifier : ∀ c, (w'.coordinator c).notifier = (w.coordinator c).notifier)
    (halive : ∀ c, w.isAliveCoordinator c → w'.isAliveCoordinator c)
    (hhome : ∀ c, (w'.coordinator c).registry = (w.coordinator c).registry)
    (hregistry : ∀ r, w'.registry r = w.registry r) : Linked w' where
  tuned := htuned
  awake c hc := halive c (h.awake c (hnotifier c ▸ hc))
  indexed r e he := by
    rw [hregistry] at he
    rw [hhome]
    exact (h.indexed r e he).imp_left (halive e.2)

/-- Who is gone is registered nowhere. -/
theorem count_of_dead (h : Linked w) (hdead : w.isAliveCoordinator c = false) (f : FileId) :
    (w.file f).listeners.count c = 0 := by
  apply h.tuned.count_of_none
  rw [← Option.not_isSome_iff_eq_none]
  intro hsome
  rw [h.awake c hsome] at hdead
  cases hdead

/-- Coordinators changed only in what makes no difference here. -/
theorem of_coordinators (h : Linked w) (hnotifiers : w'.notifiers = w.notifiers)
    (hengines : w'.engines = w.engines) (hregistries : w'.registries = w.registries)
    (hnotifier : ∀ c, (w'.coordinator c).notifier = (w.coordinator c).notifier)
    (hconfig : ∀ c, (w.coordinator c).notifier.isSome →
      (w'.coordinator c).config = (w.coordinator c).config)
    (halive : ∀ c, w.isAliveCoordinator c → w'.isAliveCoordinator c)
    (hhome : ∀ c, (w'.coordinator c).registry = (w.coordinator c).registry) : Linked w' := by
  refine h.congr (h.tuned.congr hnotifier hconfig (fun _ _ _ => ?_) fun f c => ?_) hnotifier halive
    hhome fun r => ?_
  · simp only [World.notifier, hnotifiers]
  · rw [World.file_congr hengines]
  · simp only [World.registry, hregistries]

theorem sameHoldings (h : Linked w) (hsame : SameHoldings w w') : Linked w' := by
  refine h.congr (h.tuned.congr hsame.tuned (fun c _ => hsame.config c) (fun c n hc => ?_)
    fun f c => ?_) hsame.tuned (fun c halive => by rw [hsame.isAliveCoordinator]; exact halive)
    (fun c => congrArg Foreground.registry (hsame.coordinator c)) hsame.registry
  · apply hsame.notifier
    rw [(h.tuned.owned c n hc).2]
    exact Nat.one_pos
  · cases halive : w.isAliveCoordinator c with
    | true => rw [← List.count_filter halive, hsame.awake f, List.count_filter halive]
    | false =>
      -- who is gone is registered nowhere, so nothing of it is left to be swept
      have hzero := h.count_of_dead halive f
      have hle := (hsame.listeners f).count_le c
      omega

/-- A coordinator changed in what makes no difference here, and it is alive still. -/
theorem onCoordinator (h : Linked w) (c : CoordinatorId) {f : Coordinator → Coordinator}
    (hnotifier : ∀ s, (f s).notifier = s.notifier) (hconfig : ∀ s, (f s).config = s.config)
    (hhome : ∀ s, (f s).registry = s.registry)
    (hrefs : w.isAliveCoordinator c → 0 < (f (w.coordinator c)).refs) :
    Linked (w.onCoordinator c f) := by
  refine h.of_coordinators rfl rfl rfl (w.read_onCoordinator (·.notifier) hnotifier c)
    (fun d _ => w.read_onCoordinator (·.config) hconfig c d) (fun d halive => ?_)
    (w.read_onCoordinator (·.registry) hhome c)
  unfold World.isAliveCoordinator
  rw [World.coordinator_onCoordinator]
  split
  · next hd => exact decide_eq_true (hrefs (hd ▸ halive))
  · exact halive

theorem retainCoordinator (h : Linked w) (c : CoordinatorId) : Linked (w.retainCoordinator c) :=
  h.onCoordinator c (fun _ => rfl) (fun _ => rfl) (fun _ => rfl) fun _ => Nat.succ_pos _

theorem dropNotifier (h : Linked w) (c : CoordinatorId) : Linked (w.dropNotifier c) where
  tuned := h.tuned.dropNotifier fun d _ => h.awake d
  awake d hd := by
    rw [World.isAliveCoordinator_dropNotifier]
    rw [World.coordinator_dropNotifier] at hd
    split at hd
    · cases hd
    · exact h.awake d hd
  indexed r e he := by
    rw [World.registry_dropNotifier] at he
    rw [World.isAliveCoordinator_dropNotifier, World.coordinator_dropNotifier]
    have hindexed := h.indexed r e he
    split
    · next heq => rw [← heq]; exact hindexed
    · exact hindexed

theorem setRegistry (h : Linked w) (r : RegistryId) {x : Directory CoordinatorId}
    (hx : ∀ e ∈ x.entries, w.isAliveCoordinator e.2 ∧ (w.coordinator e.2).registry = r) :
    Linked (w.setRegistry r x) where
  tuned := h.tuned.congr (fun _ => rfl) (fun _ _ => rfl) (fun _ _ _ => rfl) fun _ _ => rfl
  awake := h.awake
  indexed s e he := by
    rw [World.registry_setRegistry] at he
    split at he
    · next hs =>
      subst hs
      exact hx e he
    · exact h.indexed s e he

/-- **A reference to a coordinator is given up.** With the last one the coordinator leaves its file
and its registry. -/
theorem releaseCoordinator (h : Linked w) (c : CoordinatorId) : Linked (w.releaseCoordinator c) := by
  let w₁ := w.onCoordinator c fun s => { s with refs := s.refs - 1 }
  have hnotifier : ∀ d, (w₁.coordinator d).notifier = (w.coordinator d).notifier :=
    w.read_onCoordinator (·.notifier) (fun _ => by rfl) c
  have hhome : ∀ d, (w₁.coordinator d).registry = (w.coordinator d).registry :=
    w.read_onCoordinator (·.registry) (fun _ => by rfl) c
  have halive : ∀ d, d ≠ c → w.isAliveCoordinator d → w₁.isAliveCoordinator d := by
    intro d hd
    unfold World.isAliveCoordinator
    rw [World.coordinator_onCoordinator_of_ne w hd]
    exact id
  show Linked (if (w₁.coordinator c).refs = 0 then w₁.retireCoordinator c else w₁)
  split
  · -- the last reference was given up
    let w₂ := w₁.sweepRegistry (w₁.coordinator c).registry
    have htuned : Tuned w₂ := h.tuned.congr hnotifier
      (fun d _ => w.read_onCoordinator (·.config) (fun _ => by rfl) c d) (fun _ _ _ => rfl) fun _ _ => rfl
    have hawake : ∀ d, d ≠ c → (w₂.coordinator d).notifier.isSome → w₂.isAliveCoordinator d :=
      fun d hd hsome => halive d hd (h.awake d (hnotifier d ▸ hsome))
    show Linked (w₂.dropNotifier c)
    refine ⟨htuned.dropNotifier hawake, fun d hd => ?_, fun r e he => ?_⟩
    · rw [World.isAliveCoordinator_dropNotifier]
      rw [World.coordinator_dropNotifier] at hd
      split at hd
      · cases hd
      · next hne => exact hawake d hne hd
    · rw [World.registry_dropNotifier] at he
      have hkept : w₁.isAliveCoordinator e.2 ∧ (w₁.coordinator e.2).registry = r := by
        change e ∈ ((w₁.setRegistry _ _).registry r).entries at he
        rw [World.registry_setRegistry] at he
        split at he
        · next hr =>
          obtain ⟨hmem, hlive⟩ := List.mem_filter.mp he
          exact ⟨hlive, by rw [hhome]; exact (h.indexed r e (hr ▸ hmem)).2⟩
        · next hr =>
          -- a registry that is not swept has nothing of the coordinator that goes
          obtain ⟨hlive, hregistry⟩ := h.indexed r e he
          refine ⟨halive e.2 (fun heq => hr ?_) hlive, by rw [hhome]; exact hregistry⟩
          rw [hhome, ← heq, hregistry]
      rw [World.isAliveCoordinator_dropNotifier, World.coordinator_dropNotifier]
      split
      · next heq => rw [← heq]; exact hkept
      · exact hkept
  · next hrefs =>
    exact h.onCoordinator c (fun _ => rfl) (fun _ => rfl) (fun _ => rfl) fun _ => by
      rw [World.coordinator_onCoordinator_self] at hrefs
      exact Nat.pos_of_ne_zero hrefs

/-! ### Handles -/

/-- Handles are of no matter here. -/
theorem of_handles (h : Linked w) (heq : w' = { w with handles := w'.handles }) : Linked w' := by
  rw [heq]
  exact h.of_coordinators rfl rfl rfl (fun _ => rfl) (fun _ _ => rfl) (fun _ => id) fun _ => rfl

theorem closeHandle (h : Linked w) (i : HandleId) : Linked (w.closeHandle i) := by
  have hclosed : Linked (w.onHandle i Handle.closed) := h.of_handles rfl
  unfold World.closeHandle
  split
  · next c _ =>
    refine releaseCoordinator (w := World.forgetHandle _ c i) ?_ c
    exact hclosed.onCoordinator c (fun _ => rfl) (fun _ => rfl) (fun _ => rfl) of_decide_eq_true
  · exact hclosed

theorem releaseHandle (h : Linked w) (i : HandleId) : Linked (w.releaseHandle i) := by
  have hcount : Linked (w.onHandle i fun x => { x with refs := x.refs - 1 }) := h.of_handles rfl
  dsimp only [World.releaseHandle]
  split
  · exact hcount.closeHandle i
  · exact hcount

/-! ### Registries -/

theorem resetRegistry (h : Linked w) (r : RegistryId) : Linked (w.resetRegistry r) := by
  refine List.foldlRecOn _ _ ?_ fun w hw i _ => (closeHandle hw i).releaseHandle i
  refine List.foldlRecOn _ _ ?_ fun w hw c _ => releaseCoordinator hw c
  refine setRegistry ?_ r nofun
  refine List.foldlRecOn _ _ ?_ fun w hw i _ => of_handles hw rfl
  exact List.foldlRecOn _ _ h fun w hw c _ => (retainCoordinator hw c).dropNotifier c

theorem getCoordinator (h : Linked w) (r : RegistryId) (path : String) :
    Linked (w.getCoordinator r path).1 := by
  unfold World.getCoordinator
  split
  · exact h.retainCoordinator _
  · let s := Coordinator.made (FilePath.key path) r
    let w' : World := { w with coordinators := w.coordinators.push s }
    have hget : ∀ d, w'.coordinator d = if d = w.coordinators.size then s else w.coordinator d :=
      w.coordinators.get_push _
    have hfresh : w.coordinator w.coordinators.size = default := w.coordinators.get_size
    have hlive : ∀ d, w.isAliveCoordinator d → w'.isAliveCoordinator d ∧
        w'.coordinator d = w.coordinator d := by
      intro d halive
      have hd : d ≠ w.coordinators.size := by
        rintro rfl
        rw [World.isAliveCoordinator, hfresh] at halive
        cases halive
      refine ⟨?_, by rw [hget, if_neg hd]⟩
      unfold World.isAliveCoordinator
      rw [hget, if_neg hd]
      exact halive
    have hnotifier : ∀ d, (w'.coordinator d).notifier = (w.coordinator d).notifier :=
      w.read_pushCoordinator (·.notifier) rfl
    have hnew : Linked w' :=
      { tuned := h.tuned.congr hnotifier
          (fun d hd => by rw [(hlive d (h.awake d hd)).2]) (fun _ _ _ => rfl) fun _ _ => rfl
        awake := fun d hd => (hlive d (h.awake d (hnotifier d ▸ hd))).1
        indexed := fun r e he => by
          obtain ⟨halive, hhome⟩ := h.indexed r e he
          obtain ⟨halive', hsame⟩ := hlive e.2 halive
          exact ⟨halive', by rw [hsame]; exact hhome⟩ }
    refine hnew.setRegistry r fun e he => ?_
    rcases Directory.mem_entries_set he with rfl | hold
    · have hself : w'.coordinator w.coordinators.size = s := by rw [hget, if_pos rfl]
      refine ⟨?_, by rw [hself]; rfl⟩
      show decide (0 < (w'.coordinator w.coordinators.size).refs) = true
      rw [hself]
      rfl
    · exact hnew.indexed r e hold

/-! ### Asking for a handle -/

/-- **A notifier that was made for nothing** is gone again with its registration. -/
theorem abandoned (h : Linked w) (hnone : (w.coordinator c).notifier = none) {f : FileId}
    (hlooked : Looked (w.listening c f) w') :
    SameHoldings w (w'.releaseNotifier w.notifiers.size) := by
  let n := w.notifiers.size
  have hcoordinator : ∀ d, w'.coordinator d = w.coordinator d := hlooked.coordinator
  have hmade : ∀ m, w'.notifier m = if m = n then ⟨f, c, 1⟩ else w.notifier m := by
    intro m
    have hnotifiers : w'.notifiers = w.notifiers.push ⟨f, c, 1⟩ := by
      rw [hlooked.eq]
      rfl
    rw [World.notifier, hnotifiers]
    exact w.notifiers.get_push _ m
  have hn : w'.notifier n = ⟨f, c, 1⟩ := by rw [hmade, if_pos rfl]
  have halive : w'.isAliveCoordinator = w.isAliveCoordinator := by
    funext d
    unfold World.isAliveCoordinator
    rw [hcoordinator]
  have hlisteners : ∀ g, ((w'.releaseNotifier n).file g).listeners =
      if g = f then (w.file f).listeners.filter fun d => w.isAliveCoordinator d && d != c
      else (w.file g).listeners := by
    intro g
    have hfile := hlooked.file g
    have hlistening : (w.listening c f).file g =
        if g = f then (w.file f).listen c else w.file g := w.file_setFile f g _
    rw [World.releaseNotifier_of_last (congrArg Notifier.refs hn), hn]
    show ((w'.setFile f _).file g).listeners = _
    rw [World.file_setFile]
    split
    · next hg =>
      subst hg
      rw [hfile, hlistening, if_pos rfl, halive]
      show ((w.file g).listeners ++ [c]).filter _ = _
      simp
    · next hg => rw [hfile, hlistening, if_neg hg]
  refine ⟨fun d => ?_, fun i => ?_, fun m hm => ?_, fun r => ?_, fun g => ?_, fun g => ?_⟩
  · rw [World.coordinator_releaseNotifier, hcoordinator]
  · have hhandles : (w'.releaseNotifier n).handles = w.handles :=
      (w'.handles_releaseNotifier n).trans hlooked.handles
    rw [World.handle_congr hhandles]
  · have hne : m ≠ n := by
      rintro rfl
      rw [World.notifier, w.notifiers.get_size] at hm
      cases hm
    rw [World.notifier_releaseNotifier_of_ne _ hne, hmade, if_neg hne]
  · rw [World.registry_releaseNotifier, hlooked.eq]
    rfl
  · rw [hlisteners]
    split
    · next hg => exact hg ▸ List.filter_sublist
    · exact .refl _
  · rw [hlisteners]
    split
    · next hg =>
      rw [hg, List.filter_filter]
      apply List.filter_congr
      intro d hd
      have hne : d ≠ c := by
        rintro rfl
        exact List.count_eq_zero.mp (h.tuned.count_of_none hnone f) hd
      simp [hne]
    · rfl

variable {x : Handle} {adoption : Option Adoption}

theorem alive_of_admitted (hadmitted : Admitted c x adoption w w') (d : CoordinatorId)
    (halive : w.isAliveCoordinator d) : w'.isAliveCoordinator d := by
  unfold World.isAliveCoordinator
  by_cases hd : d = c
  · obtain ⟨reusable, hself⟩ := hadmitted.self
    rw [hd, hself]
    exact decide_eq_true (Nat.succ_pos _)
  · rw [hadmitted.others d hd]
    exact halive

theorem home_of_admitted (hadmitted : Admitted c x adoption w w') (d : CoordinatorId) :
    (w'.coordinator d).registry = (w.coordinator d).registry := by
  by_cases hd : d = c
  · obtain ⟨reusable, hself⟩ := hadmitted.self
    rw [hd, hself]
    cases adoption <;> rfl
  · rw [hadmitted.others d hd]

/-- A handle was made, and no notifier for it. -/
theorem admitted (h : Linked w) (hadmitted : Admitted c x adoption w w')
    (hnotifier : ((w.coordinator c).adopting adoption).notifier = (w.coordinator c).notifier)
    (hconfig : (w.coordinator c).notifier.isSome →
      ((w.coordinator c).adopting adoption).config = (w.coordinator c).config) : Linked w' := by
  obtain ⟨reusable, hself⟩ := hadmitted.self
  have hnotifiers : ∀ d, (w'.coordinator d).notifier = (w.coordinator d).notifier := by
    intro d
    by_cases hd : d = c
    · rw [hd, hself]
      exact hnotifier
    · rw [hadmitted.others d hd]
  refine h.congr (h.tuned.congr hnotifiers (fun d hd => ?_) (fun _ _ _ => ?_) fun f d => ?_)
    hnotifiers (alive_of_admitted hadmitted) (home_of_admitted hadmitted) fun r => ?_
  · by_cases hdc : d = c
    · subst hdc
      rw [hself]
      exact hconfig hd
    · rw [hadmitted.others d hdc]
  · simp only [World.notifier, hadmitted.notifiers]
  · rw [hadmitted.file]
  · simp only [World.registry, hadmitted.registries]

/-- A handle was made, and a notifier for it. -/
theorem admitted_listening (h : Linked w) {config : Config} {f : FileId}
    (hnone : (w.coordinator c).notifier = none) (hf : config.file? = some f)
    (hadmitted : Admitted c x (some ⟨config, some w.notifiers.size⟩) (w.listening c f) w') :
    Linked w' := by
  let n := w.notifiers.size
  obtain ⟨reusable, hself⟩ := hadmitted.self
  have hothers : ∀ d, d ≠ c → w'.coordinator d = w.coordinator d := hadmitted.others
  have hnotifier : ∀ m, w'.notifier m = if m = n then ⟨f, c, 1⟩ else w.notifier m := by
    intro m
    rw [World.notifier, hadmitted.notifiers]
    exact w.notifiers.get_push _ m
  have hn : w'.notifier n = ⟨f, c, 1⟩ := by rw [hnotifier, if_pos rfl]
  have hold : ∀ d m, (w.coordinator d).notifier = some m → w'.notifier m = w.notifier m := by
    intro d m hd
    rw [hnotifier, if_neg (Nat.ne_of_lt (h.tuned.lt_size hd))]
  have hnew : (w'.coordinator c).notifier = some n := by
    rw [hself]
    rfl
  have hlive := alive_of_admitted hadmitted
  refine ⟨⟨fun d m hd => ?_, fun d m hd => ?_, fun g d => ?_⟩, fun d hd => ?_, fun r e he => ?_⟩
  · by_cases hdc : d = c
    · rw [hdc, hnew, Option.some_inj] at hd
      rw [← hd, hn, hdc]
      exact ⟨rfl, rfl⟩
    · rw [hothers d hdc] at hd
      rw [hold d m hd]
      exact h.tuned.owned d m hd
  · by_cases hdc : d = c
    · rw [hdc, hnew, Option.some_inj] at hd
      rw [← hd, hn, hdc, hself]
      exact ⟨config, rfl, hf⟩
    · rw [hothers d hdc] at hd ⊢
      rw [hold d m hd]
      exact h.tuned.aimed d m hd
  · have hfile : w'.file g = if g = f then (w.file f).listen c else w.file g :=
      (hadmitted.file g).trans (w.file_setFile f g _)
    by_cases hdc : d = c
    · have hhears : w'.hears d = some f := by rw [World.hears, hdc, hnew, Option.map_some, hn]
      have hzero := h.tuned.count_of_none hnone
      rw [hfile, hhears]
      by_cases hg : g = f
      · rw [if_pos hg, File.count_listen, hdc, hzero, if_pos rfl, if_pos (by rw [hg])]
      · rw [if_neg hg, hdc, hzero, if_neg fun heq => hg (Option.some_inj.mp heq).symm]
    · have hhears : w'.hears d = w.hears d := by
        unfold World.hears
        rw [hothers d hdc]
        cases hd : (w.coordinator d).notifier with
        | none => rfl
        | some m => exact congrArg (fun x : Notifier => some x.file) (hold d m hd)
      rw [hhears, ← h.tuned.listed g d, hfile]
      split
      · next hg => rw [File.count_listen, if_neg hdc, hg, Nat.add_zero]
      · rfl
  · by_cases hdc : d = c
    · rw [hdc, World.isAliveCoordinator, hself]
      exact decide_eq_true (Nat.succ_pos _)
    · rw [hothers d hdc] at hd
      exact hlive d (h.awake d hd)
  · rw [World.registry, hadmitted.registries] at he
    obtain ⟨halive, hhome⟩ := h.indexed r e he
    exact ⟨hlive e.2 halive, (home_of_admitted hadmitted e.2).trans hhome⟩

theorem asked (h : Linked w) {cs : List CoordinatorId} (hconcord : Concord cs w) {thread : Thread}
    {config : Config} {outcome : Except Failure HandleId}
    (hasked : Asked c thread config w w' outcome) : Linked w' := by
  cases hasked with
  | refused _ failure hlooked => exact h.sameHoldings (.of_looked hlooked)
  | abandoned f w₁ failure hf hnone hlooked => exact h.sameHoldings (h.abandoned hnone hlooked)
  | reused i canonical hmem halive hcanonical hkept => exact h.of_handles rfl
  | made adoption cursor w₁ _ hprepared hf hadmitted =>
    cases hprepared with
    | agreed canonical hcanonical => exact h.admitted hadmitted rfl fun _ => rfl
    | plain hadopts hplain =>
      have hnone := hconcord.agreed.deaf hadopts
      refine h.admitted hadmitted rfl fun hsome => ?_
      rw [hnone] at hsome
      cases hsome
    | heard f hf hadopts hwritable hnone => exact h.admitted_listening hnone hf hadmitted

/-! ### Chores -/

/-- **Any chore keeps the links**, if it leaves the references to notifiers to coordinators. -/
theorem chore (h : Linked w) {cs : List CoordinatorId} (hconcord : Concord cs w) {y : Chore}
    (hretain : ∀ n, y ≠ .retainNotifier n) (hrelease : ∀ n, y ≠ .releaseNotifier n) :
    Linked (y.perform w) := by
  by_cases hcounts : y.counts = false
  · exact h.sameHoldings (y.sameHoldings_perform w hcounts)
  cases y with
  | getCoordinator r path => exact h.getCoordinator r path
  | retainCoordinator d => exact h.retainCoordinator d
  | releaseCoordinator d => exact h.releaseCoordinator d
  | retainHandle i => exact h.of_handles rfl
  | releaseHandle i => exact h.releaseHandle i
  | closeHandle i => exact h.closeHandle i
  | retainNotifier n => exact absurd rfl (hretain n)
  | releaseNotifier n => exact absurd rfl (hrelease n)
  | resetRegistry r => exact h.resetRegistry r
  | getHandle d thread config =>
    obtain ⟨w', outcome, hrun, hasked, -⟩ := hconcord.getHandle d thread config
    show Linked ((Step.getHandle d thread config).run w).1
    rw [hrun]
    exact h.asked hconcord hasked
  | _ => exact absurd rfl hcounts

end Linked

end SnapshotCoordination
