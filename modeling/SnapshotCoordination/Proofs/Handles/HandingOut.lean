import SnapshotCoordination.Proofs.Handles.Custody
import SnapshotCoordination.Proofs.Handles.FailedOpens
import SnapshotCoordination.Proofs.Handles.Threads

/-!
# How caches get their entries and lose them

A coordinator that is asked for a handle hands one out that it remembers, or it makes a new one and
remembers it from then on (`HandedOut`). Nothing else puts an entry into a cache; whatever else
happens takes entries out of caches at most (`Sheds`).

* **`Step.handedOut_getHandle`** — a coordinator that hands out a handle;
* **`Chore.sheds_perform`** — any chore that asks for none;
* **`Orderly.filing`** — any call: at most one handle is handed out, and before and after that
  caches lose entries at most.
-/

namespace SnapshotCoordination

/-! ## Losing entries -/

/-- No cache got an entry on the way from one world to the other. -/
def World.Forgets (w w' : World) : Prop :=
  ∀ c, (w'.coordinator c).cached ⊆ (w.coordinator c).cached

namespace World

instance : IsPreorder World Forgets where
  refl _ _ := List.Subset.refl _
  trans _ _ _ h h' c := List.Subset.trans (h' c) (h c)

theorem forgets_of_eq {w w' : World}
    (h : ∀ c, (w'.coordinator c).cached = (w.coordinator c).cached) : w.Forgets w' :=
  fun c => h c ▸ List.Subset.refl _

variable (w : World)

theorem forgets_retainCoordinator (c : CoordinatorId) : w.Forgets (w.retainCoordinator c) :=
  forgets_of_eq (w.read_onCoordinator (·.cached) (fun _ => by rfl) c)

theorem forgets_dropNotifier (c : CoordinatorId) : w.Forgets (w.dropNotifier c) := by
  refine forgets_of_eq fun d => ?_
  rw [coordinator_dropNotifier]
  split
  · next hd => rw [hd]
  · rfl

theorem forgets_releaseCoordinator (c : CoordinatorId) : w.Forgets (w.releaseCoordinator c) := by
  refine forgets_of_eq fun d => ?_
  rw [coordinator_releaseCoordinator]
  split
  · next hd => rw [hd]; rfl
  · rfl

theorem forgets_closeHandle (h : HandleId) : w.Forgets (w.closeHandle h) := by
  intro d
  rw [coordinator_closeHandle]
  split
  · exact fun e he => (mem_sweep_kept.mp he).1
  · exact List.Subset.refl _

theorem forgets_releaseHandle (h : HandleId) : w.Forgets (w.releaseHandle h) := by
  intro d
  rw [coordinator_releaseHandle]
  split
  · exact w.forgets_closeHandle h d
  · exact List.Subset.refl _

theorem forgets_resetRegistry (r : RegistryId) : w.Forgets (w.resetRegistry r) :=
  w.rel_resetRegistry r
    (fun w c => trans_of Forgets (forgets_retainCoordinator w c) (forgets_dropNotifier _ c))
    (fun _ _ => forgets_of_eq fun _ => rfl) (fun _ => forgets_of_eq fun _ => rfl)
    forgets_releaseCoordinator
    fun w h => trans_of Forgets (forgets_closeHandle w h) (forgets_releaseHandle _ h)

/-- A coordinator that is found or made is like before in all but its references and its path. -/
theorem read_getCoordinator {α : Type} (read : Coordinator → α)
    (hretained : ∀ s : Coordinator, read { s with refs := s.refs + 1 } = read s)
    (hmade : ∀ key r, read (.made key r) = read default) (r : RegistryId) (path : String)
    (c : CoordinatorId) :
    read ((w.getCoordinator r path).1.coordinator c) = read (w.coordinator c) := by
  unfold getCoordinator
  split
  · exact w.read_onCoordinator read hretained _ c
  · exact w.read_pushCoordinator read (hmade _ r) c

end World

/-- Caches lost entries at most on the way from one world to the other. Coordinators kept their
configurations, and handles their threads. -/
structure Sheds (w w' : World) : Prop where
  config : ∀ c, (w'.coordinator c).config = (w.coordinator c).config
  forgets : w.Forgets w'
  threads : w.SameThreads w'

namespace Sheds

variable {w w' w'' : World}

theorem refl (w : World) : Sheds w w :=
  ⟨fun _ => rfl, refl_of World.Forgets w, refl_of World.SameThreads w⟩

theorem trans (h : Sheds w w') (h' : Sheds w' w'') : Sheds w w'' where
  config c := (h'.config c).trans (h.config c)
  forgets := trans_of World.Forgets h.forgets h'.forgets
  threads := trans_of World.SameThreads h.threads h'.threads

theorem of_sameHoldings (h : SameHoldings w w') (hthreads : w.SameThreads w') : Sheds w w' :=
  ⟨h.config, World.forgets_of_eq h.cached, hthreads⟩

end Sheds

/-- **A chore that asks for no handle** puts nothing into a cache. -/
theorem Chore.sheds_perform (w : World) {x : Chore}
    (hx : ∀ c thread config, x ≠ .getHandle c thread config) : Sheds w (x.perform w) := by
  have hthreads := x.sameThreads_perform w
  by_cases hcounts : x.counts = false
  · exact .of_sameHoldings (x.sameHoldings_perform w hcounts) hthreads
  cases x with
  | getCoordinator r path =>
    exact ⟨w.read_getCoordinator (·.config) (fun _ => by rfl) (fun _ _ => by rfl) r path,
      World.forgets_of_eq
        (w.read_getCoordinator (·.cached) (fun _ => by rfl) (fun _ _ => by rfl) r path), hthreads⟩
  | retainCoordinator c =>
    exact ⟨w.read_onCoordinator (·.config) (fun _ => by rfl) c, w.forgets_retainCoordinator c,
      hthreads⟩
  | releaseCoordinator c =>
    exact ⟨(wanes_releaseCoordinator w c).config, w.forgets_releaseCoordinator c, hthreads⟩
  | retainHandle h => exact ⟨fun _ => rfl, World.forgets_of_eq fun _ => rfl, hthreads⟩
  | releaseHandle h => exact ⟨(wanes_releaseHandle w h).config, w.forgets_releaseHandle h, hthreads⟩
  | closeHandle h => exact ⟨(wanes_closeHandle w h).config, w.forgets_closeHandle h, hthreads⟩
  | retainNotifier n => exact ⟨fun _ => rfl, World.forgets_of_eq fun _ => rfl, hthreads⟩
  | releaseNotifier n =>
    have hsame := w.coordinator_releaseNotifier n
    exact ⟨fun c => congrArg Coordinator.config (hsame c),
      World.forgets_of_eq fun c => congrArg Coordinator.cached (hsame c), hthreads⟩
  | resetRegistry r =>
    refine ⟨fun c => ((wanes_resetRegistry w r).config c).trans ?_, w.forgets_resetRegistry r,
      hthreads⟩
    rw [World.coordinator_foldl_dropNotifier]
  | getHandle c thread config => exact absurd rfl (hx c thread config)
  | _ => exact absurd rfl hcounts

/-! ## Handing out a handle -/

/-- How coordinator `c` hands a handle out. -/
inductive HandedOut (c : CoordinatorId) (thread : Thread) (config : Config) (w : World) :
    World → HandleId → Prop where
  /-- A handle that is remembered is handed out again. -/
  | again (h : HandleId) (hcache : config.cache) (hfound : w.reusableHandle c thread = some h) :
      HandedOut c thread config w (w.retainHandle h) h
  /-- There is none that could be, so one is made. -/
  | anew (x : Handle) (canonical : Config) (w' : World)
      (hnone : config.cache → w.reusableHandle c thread = none)
      (hthread : x.thread = thread) (hcoordinator : x.coordinator = some c) (hopen : x.isOpen)
      (hhandles : w'.handles = w.handles.push x)
      (hcanonical : (w'.coordinator c).config = some canonical)
      (hkept : (w.coordinator c).config = some canonical ∨
        canonical = config ∧ (w.coordinator c).cached = [])
      (hcached : (w'.coordinator c).cached =
        (w.coordinator c).cached ++ [⟨w.handles.size, thread, canonical.cache⟩])
      (hothers : ∀ d, d ≠ c → w'.coordinator d = w.coordinator d) :
      HandedOut c thread config w w' w.handles.size

namespace Prepared

variable {c : CoordinatorId} {config : Config} {w w' : World} {adoption : Option Adoption}

theorem reusableHandle (h : Prepared c config w w' adoption) (d : CoordinatorId) (thread : Thread) :
    w'.reusableHandle d thread = w.reusableHandle d thread := by
  have halive : w'.isAliveHandle = w.isAliveHandle := by
    funext i
    unfold World.isAliveHandle
    rw [World.handle_congr h.handles]
  unfold World.reusableHandle
  rw [h.coordinator, halive]

/-- The canonical configuration stays, or another one is adopted while no handle is remembered. -/
theorem adopting (h : Prepared c config w w' adoption)
    (hidle : (w.coordinator c).adoptsNext → (w.coordinator c).cached = []) :
    ∃ canonical, ((w'.coordinator c).adopting adoption).config = some canonical ∧
      ((w.coordinator c).config = some canonical ∨
        canonical = config ∧ (w.coordinator c).cached = []) := by
  cases h with
  | agreed canonical hcanonical => exact ⟨canonical, hcanonical, .inl hcanonical⟩
  | plain hadopts => exact ⟨config, rfl, .inr ⟨rfl, hidle hadopts⟩⟩
  | heard f hf hadopts => exact ⟨config, rfl, .inr ⟨rfl, hidle hadopts⟩⟩

end Prepared

namespace Step

variable {cs : List CoordinatorId} {c : CoordinatorId} {thread : Thread} {config : Config}
  {w w' : World} {h : HandleId}

/-- What was handed out is the first handle that may be, or it is a new entry of the cache, which
says what the canonical configuration says. -/
theorem getHandle_eq_ok (hrun : (getHandle c thread config).run w = (w', .ok h)) :
    (if config.cache then w.reusableHandle c thread else none) = some h ∨
      (if config.cache then w.reusableHandle c thread else none) = none ∧
        (w'.coordinator c).cached = (w.coordinator c).cached ++
          [⟨h, thread, (w'.coordinator c).config.elim true (·.cache)⟩] := by
  rcases run_prepareAdoption c config w with ⟨w₁, failure, hprepare, -⟩ |
    ⟨w₁, adoption, hprepare, hprepared⟩
  · cases (run_bind_error hprepare _).symm.trans hrun
  replace hrun : (issueHandle c thread config adoption).run w₁ = (w', .ok h) :=
    (run_bind_ok hprepare _).symm.trans hrun
  unfold issueHandle at hrun
  rw [run_bind_ok (run_world w₁), hprepared.reusableHandle] at hrun
  cases hfound : (if config.cache then w.reusableHandle c thread else none) with
  | some i =>
    rw [hfound] at hrun
    obtain ⟨w₂, happly, -, -⟩ := run_applyAdoption c adoption (w₁.retainHandle i)
    dsimp only at hrun
    rw [run_bind_ok (run_update _ w₁), run_bind_ok happly] at hrun
    cases hrun
    exact .inl rfl
  | none =>
    rw [hfound] at hrun
    dsimp only at hrun
    rw [run_bind_ok (run_attempt _ w₁)] at hrun
    rcases run_makeHandle c thread config w₁ with ⟨w₂, failure, hmake, -⟩ |
      ⟨w₂, cursor, hlooked, -, -, hmake⟩ <;> rw [hmake] at hrun
    · obtain ⟨_, _, -, hfail⟩ := run_bind_eq_ok hrun
      cases hfail
    · refine .inr ⟨rfl, ?_⟩
      let x : Handle := ⟨config, thread, 1, some cursor, some c, none, false⟩
      let w₃ := ({ w₂ with handles := w₁.handles.push x } : World).retainCoordinator c
      have hcached : (w₃.coordinator c).cached = (w.coordinator c).cached := by
        rw [← hprepared.coordinator c, ← hlooked.coordinator c]
        exact w₂.read_onCoordinator (·.cached) (fun _ => by rfl) c c
      -- the handle is remembered once the adoption is in effect
      cases adoption with
      | none =>
        cases hrun
        rw [World.coordinator_onCoordinator_self, ← hcached]
      | some adoption =>
        cases hrun
        rw [World.coordinator_onCoordinator_self, World.coordinator_onCoordinator_self, ← hcached]
        rfl

/-- **A coordinator that hands out a handle** hands one out again, or it makes one. -/
theorem handedOut_getHandle (hconcord : Concord cs w)
    (hrun : (getHandle c thread config).run w = (w', .ok h)) :
    HandedOut c thread config w w' h := by
  have hdecided := getHandle_eq_ok hrun
  obtain ⟨w₁, outcome, hrun', hasked, -⟩ := hconcord.getHandle c thread config
  rw [hrun', Prod.mk.injEq] at hrun
  obtain ⟨rfl, rfl⟩ := hrun
  cases hasked with
  | reused _ canonical hmem halive hcanonical hkept =>
    rcases hdecided with hfound | ⟨-, hcached⟩
    · split at hfound
      · next hcache => exact .again h hcache hfound
      · cases hfound
    · -- the cache is as it was, so nothing was made
      exact absurd (congrArg List.length hcached) (by simp [World.retainHandle, World.onHandle,
        World.coordinator])
  | made adoption cursor w₂ _ hprepared hf hadmitted =>
    rcases hdecided with hfound | ⟨hnone, hcached⟩
    · -- nobody remembers a handle that was never made
      split at hfound
      · have hmem := (hconcord.counted.member c _).mp (World.mem_of_reusableHandle hfound).1
        rw [show w.handle w.handles.size = default from w.handles.get_size] at hmem
        cases hmem
      · cases hfound
    obtain ⟨reusable, hself⟩ := hadmitted.self
    obtain ⟨canonical, hcanonical, hkept⟩ :=
      hprepared.adopting (hconcord.agreed.idle hconcord.counted)
    have hconfig : (w₁.coordinator c).config = some canonical := by
      rw [hself]
      exact hcanonical
    refine .anew ⟨config, thread, 1, some cursor, some c, none, false⟩ canonical w₁
      (fun hcache => ?_) rfl rfl rfl ?_ hconfig hkept ?_ fun d hd => ?_
    · rw [if_pos hcache] at hnone
      exact hnone
    · rw [← hprepared.handles]
      exact hadmitted.handles
    · rw [hcached, hconfig]
      rfl
    · rw [hadmitted.others d hd, hprepared.coordinator]

/-- A coordinator that is asked for a handle hands one out, or nothing gets into its cache. -/
theorem sheds_or_handedOut (hconcord : Concord cs w) (hlinked : Linked w) (c : CoordinatorId)
    (thread : Thread) (config : Config) :
    Sheds w ((getHandle c thread config).run w).1 ∨
      ∃ h, HandedOut c thread config w ((getHandle c thread config).run w).1 h := by
  rcases hrun : (getHandle c thread config).run w with ⟨w', failure | h⟩
  · obtain ⟨hsame, hhandles⟩ := sameHoldings_getHandle hconcord hlinked hrun
    exact .inl (.of_sameHoldings hsame (World.sameThreads_of_handles hhandles))
  · exact .inr ⟨h, handedOut_getHandle hconcord hrun⟩

end Step

/-! ## Calls -/

namespace Call

/-- The coordinator that client code asks for a handle, and by which configuration. -/
def asked? (w : World) : Call → Option (CoordinatorId × Config)
  | chore (.getHandle c _ config) => some (c, config)
  | openFile r _ config => some ((w.getCoordinator r config.path).2, config)
  | _ => none

/-- What a call comes to for the caches: at most one handle is handed out, by the configuration of
the call or by the canonical one, and before and after that entries are lost at most. -/
inductive Filing (w : World) (x : Call) : Prop where
  | sheds (h : Sheds w (x.perform w))
  | hands (cs : List CoordinatorId) (c : CoordinatorId) (thread : Thread) (config : Config)
      (w₁ w₂ : World) (h : HandleId)
      (hasked : x.asked? w = some (c, config) ∨ (w.coordinator c).config = some config)
      (hbefore : Sheds w w₁) (hconcord : Concord cs w₁)
      (hhanded : HandedOut c thread config w₁ w₂ h)
      (hconcord' : Concord cs w₂) (hafter : Sheds w₂ (x.perform w))

end Call

namespace Orderly

variable {w : World}

/-- **Any call** hands out one handle at most, and puts nothing else into a cache. -/
theorem filing (h : Orderly w) (x : Call) : x.Filing w := by
  have hget : ∀ {cs : List CoordinatorId} {c : CoordinatorId} (thread : Thread) {config : Config}
      {w₁ : World}, x.asked? w = some (c, config) ∨ (w.coordinator c).config = some config →
      Sheds w w₁ → Concord cs w₁ → Linked w₁ →
      Sheds ((Step.getHandle c thread config).run w₁).1 (x.perform w) → x.Filing w := by
    intro cs c thread config w₁ hasked hbefore hconcord hlinked hafter
    rcases Step.sheds_or_handedOut hconcord hlinked c thread config with hsheds | ⟨i, hhanded⟩
    · exact .sheds ((hbefore.trans hsheds).trans hafter)
    · exact .hands cs c thread config w₁ _ i hasked hbefore hconcord hhanded
        (getHandle hconcord hlinked c thread config).1 hafter
  by_cases hcounts : x.counts = false
  · exact .sheds (.of_sameHoldings (x.sameHoldings_perform h.supported hcounts)
      (x.sameThreads_perform w))
  cases x with
  | chore x =>
    by_cases hx : ∃ c thread config, x = .getHandle c thread config
    · obtain ⟨c, thread, config, rfl⟩ := hx
      exact hget thread (.inl rfl) (.refl w) h.concord h.linked (.refl _)
    · exact .sheds (x.sheds_perform w fun c thread config hx' => hx ⟨c, thread, config, hx'⟩)
  | openFile r thread config =>
    cases hfault : config.fault? with
    | some fault =>
      have hsame : (Call.openFile r thread config).perform w = w := by
        show ((Step.openFile r thread config).run w).1 = w
        unfold Step.openFile
        rw [hfault]
        rfl
      exact .sheds (by rw [hsame]; exact .refl w)
    | none =>
      let found := w.getCoordinator r config.path
      have hfound : Concord [found.2] found.1 := ⟨h.concord.counted.getCoordinator r config.path,
        h.concord.agreed.getCoordinator r config.path⟩
      refine hget thread (.inl rfl) (Chore.sheds_perform w (x := .getCoordinator r config.path) ?_)
        hfound (h.linked.getCoordinator r config.path) ?_
      · rintro _ _ _ ⟨⟩
      · show Sheds _ ((Step.openFile r thread config).run w).1
        rw [Step.run_openFile hfault]
        exact Chore.sheds_perform _ (x := .releaseCoordinator found.2) (by rintro _ _ _ ⟨⟩)
  | getCanonicalHandle c thread =>
    have hrun : (Call.getCanonicalHandle c thread).perform w =
        ((Step.ofExcept (w.coordinator c).config? >>= Step.getHandle c thread).run w).1 := rfl
    rw [Coordinator.config?] at hrun
    cases hconfig : (w.coordinator c).config with
    | none =>
      rw [hconfig] at hrun
      exact .sheds (by rw [hrun]; exact .refl w)
    | some config =>
      rw [hconfig] at hrun
      exact hget thread (.inr hconfig) (.refl w) h.concord h.linked (by rw [hrun]; exact .refl _)
  | _ => exact absurd rfl hcounts

end Orderly

end SnapshotCoordination
