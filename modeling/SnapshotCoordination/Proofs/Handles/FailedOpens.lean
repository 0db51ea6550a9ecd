import SnapshotCoordination.Proofs.Handles.Calls

/-!
# A failed open leaves no trace

An open that fails may have made a notifier, which registered a listener, and a coordinator, which
the registry was told of. Both are gone again when it fails, and nothing else has changed
(`Untraced`).

* **`Step.sameHoldings_getHandle`** — a coordinator that hands out no handle is as it was;
* **`Orderly.untraced_openFile`** — an open that finds or makes the coordinator first;
* **`failed_open_untraced`** — both, wherever calls were made one at a time.
-/

namespace SnapshotCoordination

namespace Directory

variable {α : Type} {name : String} {a : α} {keep : α → Bool}

theorem filter_place {entries : List (String × α)} (hfresh : entries.lookup name = none)
    (hkept : ∀ e ∈ entries, keep e.2) (hdropped : keep a = false) :
    (place name a entries).filter (fun e => keep e.2) = entries := by
  induction entries with
  | nil => simp [place, hdropped]
  | cons e rest ih =>
    have hne := List.lookup_eq_none_iff.mp hfresh
    have hname : name ≠ e.1 := by simpa using hne e List.mem_cons_self
    have hrest : rest.lookup name = none :=
      List.lookup_eq_none_iff.mpr fun p hp => hne p (List.mem_cons_of_mem e hp)
    unfold place
    have hfirst : keep e.2 := hkept e List.mem_cons_self
    rw [if_neg hname, List.filter_cons, if_pos hfirst,
      ih hrest fun p hp => hkept p (List.mem_cons_of_mem e hp)]

/-- An entry of its own is put into a directory and taken out again. -/
theorem filter_set {d : Directory α} (hfresh : d.find? name = none)
    (hkept : ∀ e ∈ d.entries, keep e.2) (hdropped : keep a = false) :
    (d.set name a).filter keep = d := by
  unfold filter set
  dsimp only
  rw [filter_place hfresh hkept hdropped]

end Directory

/-- Whatever there was before is as it was: what coordinators have settled, the notifiers and handles
they have, who is registered with files and is alive, and who is in a registry. -/
structure Untraced (w w' : World) : Prop where
  config : ∀ c, (w'.coordinator c).config = (w.coordinator c).config
  notifier : ∀ c, (w'.coordinator c).notifier = (w.coordinator c).notifier
  cached : ∀ c, (w'.coordinator c).cached = (w.coordinator c).cached
  refs : ∀ c, (w'.coordinator c).refs = (w.coordinator c).refs
  held : ∀ n, 0 < (w.notifier n).refs → w'.notifier n = w.notifier n
  handle : ∀ h, w'.handle h = w.handle h
  awake : ∀ f, (w'.file f).listeners.filter w'.isAliveCoordinator =
    (w.file f).listeners.filter w.isAliveCoordinator
  registry : ∀ r, w'.registry r = w.registry r

theorem SameHoldings.untraced {w w' : World} (h : SameHoldings w w')
    (hhandles : w'.handles = w.handles) : Untraced w w' where
  config := h.config
  notifier := h.tuned
  cached := h.cached
  refs := h.refs
  held := h.notifier
  handle := World.handle_congr hhandles
  awake f := by
    rw [h.isAliveCoordinator]
    exact h.awake f
  registry := h.registry

/-! ## No handle is handed out -/

/-- Whoever asked in vain left nothing behind. -/
theorem Asked.sameHoldings {c : CoordinatorId} {thread : Thread} {config : Config} {w w' : World}
    {failure : Failure} (hasked : Asked c thread config w w' (.error failure)) (h : Linked w) :
    SameHoldings w w' ∧ w'.handles = w.handles := by
  cases hasked with
  | refused _ _ hlooked => exact ⟨.of_looked hlooked, hlooked.handles⟩
  | abandoned f w₁ _ hf hnone hlooked =>
    exact ⟨h.abandoned hnone hlooked, (w₁.handles_releaseNotifier _).trans hlooked.handles⟩

theorem Step.sameHoldings_getHandle {cs : List CoordinatorId} {w w' : World}
    (hconcord : Concord cs w) (hlinked : Linked w) {c : CoordinatorId} {thread : Thread}
    {config : Config} {failure : Failure}
    (hfailed : (getHandle c thread config).run w = (w', .error failure)) :
    SameHoldings w w' ∧ w'.handles = w.handles := by
  obtain ⟨w₁, outcome, hrun, hasked, -⟩ := hconcord.getHandle c thread config
  rw [hrun, Prod.mk.injEq] at hfailed
  obtain ⟨rfl, rfl⟩ := hfailed
  exact hasked.sameHoldings hlinked

/-! ## No file is opened -/

namespace World

variable {w : World} {c : CoordinatorId}

/-- A coordinator goes that has no notifier. -/
theorem releaseCoordinator_of_alone (hrefs : (w.coordinator c).refs = 1)
    (hnone : (w.coordinator c).notifier = none) :
    w.releaseCoordinator c =
      (w.onCoordinator c fun s => { s with refs := s.refs - 1 }).sweepRegistry
        (w.coordinator c).registry := by
  let w₁ := w.onCoordinator c fun s => { s with refs := s.refs - 1 }
  have hself : w₁.coordinator c = { w.coordinator c with refs := (w.coordinator c).refs - 1 } :=
    w.coordinator_onCoordinator_self c _
  have hdrop : ∀ r, (w₁.sweepRegistry r).dropNotifier c = w₁.sweepRegistry r := by
    intro r
    unfold dropNotifier
    rw [show (w₁.sweepRegistry r).coordinator c = _ from hself]
    dsimp only
    rw [hnone]
  show (if (w₁.coordinator c).refs = 0 then w₁.retireCoordinator c else w₁) = _
  rw [hself, if_pos (by rw [hrefs]), retireCoordinator, hdrop, hself]

end World

namespace Orderly

variable {w : World}

/-- A registry leads nowhere from a path for which no coordinator is alive. -/
theorem find?_of_findCoordinator (h : Orderly w) {r : RegistryId} {path : String}
    (hnone : w.findCoordinator r path = none) :
    (w.registry r).find? (FilePath.key path) = none := by
  cases hfound : (w.registry r).find? (FilePath.key path) with
  | none => rfl
  | some c =>
    obtain ⟨before, after, hentries, -⟩ := List.lookup_eq_some_iff.mp hfound
    have hmem : (FilePath.key path, c) ∈ (w.registry r).entries := by simp [hentries]
    rw [World.findCoordinator, hfound, Option.filter_some, if_pos (h.linked.indexed r _ hmem).1]
      at hnone
    cases hnone

/-- A coordinator that was made for the open goes with it, and the registry is as it was. -/
theorem untraced_made (h : Orderly w) {r : RegistryId} {path : String} {w' : World}
    (hnone : w.findCoordinator r path = none)
    (hsame : SameHoldings (w.getCoordinator r path).1 w')
    (hhandles : w'.handles = (w.getCoordinator r path).1.handles) :
    Untraced w (w'.releaseCoordinator (w.getCoordinator r path).2) := by
  let c := w.coordinators.size
  let key := FilePath.key path
  let made := ({ w with coordinators := w.coordinators.push (.made key r) } : World).setRegistry r
    ((w.registry r).set key c)
  have hget : w.getCoordinator r path = (made, c) := by
    rw [World.getCoordinator, hnone]
    rfl
  rw [hget] at hsame hhandles ⊢
  have hfresh : w.coordinator c = default := w.coordinators.get_size
  have hmade : ∀ d, made.coordinator d = if d = c then .made key r else w.coordinator d :=
    w.coordinators.get_push _
  have hself : (w'.coordinator c).foreground = (Coordinator.made key r).foreground := by
    rw [hsame.coordinator, hmade, if_pos rfl]
  -- it has the only reference, so it goes, and the registry is swept
  have hrefs : (w'.coordinator c).refs = 1 := congrArg Foreground.refs hself
  have hhome : (w'.coordinator c).registry = r := congrArg Foreground.registry hself
  rw [World.releaseCoordinator_of_alone hrefs (congrArg Foreground.notifier hself), hhome]
  let gone := w'.onCoordinator c fun s => { s with refs := s.refs - 1 }
  have hgone : ∀ d, (gone.coordinator d).config = (w.coordinator d).config ∧
      (gone.coordinator d).notifier = (w.coordinator d).notifier ∧
      (gone.coordinator d).cached = (w.coordinator d).cached ∧
      (gone.coordinator d).refs = (w.coordinator d).refs := by
    intro d
    rw [World.coordinator_onCoordinator]
    by_cases hd : d = c
    · rw [if_pos hd, hd, hfresh]
      exact ⟨congrArg Foreground.config hself, congrArg Foreground.notifier hself,
        congrArg Foreground.cached hself, by rw [hrefs]; rfl⟩
    · have hold : (w'.coordinator d).foreground = (w.coordinator d).foreground := by
        rw [hsame.coordinator, hmade, if_neg hd]
      rw [if_neg hd]
      exact ⟨congrArg Foreground.config hold, congrArg Foreground.notifier hold,
        congrArg Foreground.cached hold, congrArg Foreground.refs hold⟩
  have halive : gone.isAliveCoordinator = w.isAliveCoordinator := by
    funext d
    unfold World.isAliveCoordinator
    rw [(hgone d).2.2.2]
  have hdead : w.isAliveCoordinator c = false := by
    rw [World.isAliveCoordinator, hfresh]
    rfl
  have hlive : ∀ d, w.isAliveCoordinator d → made.isAliveCoordinator d := by
    intro d hd
    have hne : d ≠ c := by
      rintro rfl
      rw [hdead] at hd
      cases hd
    rw [World.isAliveCoordinator, hmade, if_neg hne]
    exact hd
  refine ⟨fun d => (hgone d).1, fun d => (hgone d).2.1, fun d => (hgone d).2.2.1,
    fun d => (hgone d).2.2.2, hsame.notifier, fun i => ?_, fun f => ?_, fun s => ?_⟩
  · exact World.handle_congr hhandles i
  · have hawake := congrArg (List.filter w.isAliveCoordinator) (hsame.awake f)
    rw [List.filter_filter, List.filter_filter] at hawake
    have hboth : (fun d => w.isAliveCoordinator d && made.isAliveCoordinator d) =
        w.isAliveCoordinator := by
      funext d
      cases hd : w.isAliveCoordinator d with
      | false => rfl
      | true => exact hlive d hd
    rw [hboth] at hawake
    show ((w'.file f).listeners.filter gone.isAliveCoordinator) = _
    rw [halive]
    exact hawake
  · have hregistry : ∀ s, w'.registry s = if s = r then (w.registry r).set key c else w.registry s :=
      fun s => (hsame.registry s).trans (w.registry_setRegistry r s _)
    show (gone.setRegistry r ((gone.registry r).filter gone.isAliveCoordinator)).registry s = _
    rw [World.registry_setRegistry, halive]
    split
    · next hs =>
      show (w'.registry r).filter _ = _
      rw [hregistry, if_pos rfl, hs]
      exact Directory.filter_set (h.find?_of_findCoordinator hnone)
        (fun e he => (h.linked.indexed r e he).1) hdead
    · next hs =>
      show w'.registry s = _
      rw [hregistry, if_neg hs]

/-- **An open that fails** after it found or made the coordinator. -/
theorem untraced_openFile (h : Orderly w) {r : RegistryId} {thread : Thread} {config : Config}
    {w' : World} {failure : Failure}
    (hfailed : (Step.openFile r thread config).run w = (w', .error failure)) : Untraced w w' := by
  cases hfault : config.fault? with
  | some fault =>
    unfold Step.openFile at hfailed
    rw [hfault] at hfailed
    obtain rfl : w = w' := congrArg Prod.fst hfailed
    exact (SameHoldings.refl w).untraced rfl
  | none =>
    let found := w.getCoordinator r config.path
    have hfound : Concord [found.2] found.1 :=
      ⟨h.concord.counted.getCoordinator r config.path, h.concord.agreed.getCoordinator r config.path⟩
    rw [Step.run_openFile hfault] at hfailed
    rcases hrun : (Step.getHandle found.2 thread config).run found.1 with ⟨w₁, outcome⟩
    change (((Step.getHandle found.2 thread config).run found.1).1.releaseCoordinator found.2,
      ((Step.getHandle found.2 thread config).run found.1).2) = _ at hfailed
    rw [hrun, Prod.mk.injEq] at hfailed
    obtain ⟨rfl, rfl⟩ := hfailed
    obtain ⟨hsame, hhandles⟩ := Step.sameHoldings_getHandle hfound
      (h.linked.getCoordinator r config.path) hrun
    cases hfind : w.findCoordinator r config.path with
    | none => exact h.untraced_made hfind hsame hhandles
    | some c =>
      have hget : found = (w.retainCoordinator c, c) := by
        show w.getCoordinator r config.path = _
        rw [World.getCoordinator, hfind]
      rw [hget] at hsame hhandles ⊢
      have halive : w.isAliveCoordinator c := (Option.filter_eq_some_iff.mp hfind).2
      have hheld := (Borrowed.of_same (.refl w)).retainCoordinator halive
      refine (hheld.andThen hsame).releaseCoordinator.same.untraced ?_
      exact (recounted_releaseCoordinator w₁ c).handles.trans hhandles

end Orderly

/-! ## Failed opens -/

/-- **A failed open leaves no trace**, wherever calls were made one at a time: be it that a coordinator
hands out no handle, by a configuration or by the canonical one, or that a file is not opened. -/
theorem failed_open_untraced {calls : List Call} (hallowed : Call.AllAllowed .start calls)
    (thread : Thread) :
    let w := World.start.afterCalls calls
    (∀ c config w' failure, (Step.getHandle c thread config).run w = (w', .error failure) →
      Untraced w w') ∧
    (∀ c w' failure, (Step.getCanonicalHandle c thread).run w = (w', .error failure) →
      Untraced w w') ∧
    ∀ r config w' failure, (Step.openFile r thread config).run w = (w', .error failure) →
      Untraced w w' := by
  intro w
  have h : Orderly w := Orderly.start.after hallowed
  have hgetHandle : ∀ c config w' failure,
      (Step.getHandle c thread config).run w = (w', .error failure) → Untraced w w' := by
    intro c config w' failure hfailed
    obtain ⟨hsame, hhandles⟩ := Step.sameHoldings_getHandle h.concord h.linked hfailed
    exact hsame.untraced hhandles
  refine ⟨hgetHandle, fun c w' failure hfailed => ?_, fun r config w' failure => h.untraced_openFile⟩
  unfold Step.getCanonicalHandle at hfailed
  rw [Step.run_bind_ok (Step.run_world w)] at hfailed
  cases hconfig : (w.coordinator c).config? with
  | error other =>
    rw [hconfig] at hfailed
    obtain rfl : w = w' := congrArg Prod.fst hfailed
    exact (SameHoldings.refl w).untraced rfl
  | ok config =>
    rw [hconfig] at hfailed
    exact hgetHandle c config w' failure hfailed

/-- A file is open and nobody has opened the other one yet; then the engine runs out of cursors. -/
def noCursors : List Call :=
  [.chore .makeEngine, .chore .makeRegistry, .openFile 0 none (.forFile "/a" 0),
    .chore (.getCoordinator 0 "/b"), .chore (.setFaults 0 true false)]

/-- A notifier was made, and a coordinator, but nothing is left of them. -/
theorem failed_open_untraced_noCursors :
    let w := World.start.afterCalls noCursors
    let asked := (Step.getHandle 1 none (.forFile "/b" 0)).run w
    let opened := (Step.openFile 0 none (.forFile "/c" 0)).run w
    Call.AllAllowed .start noCursors ∧
      asked.2 = .error (.storage (.tooManyOpenFiles "/b")) ∧
      asked.1.notifiers.size = w.notifiers.size + 1 ∧ Untraced w asked.1 ∧
      opened.2 = .error (.storage (.tooManyOpenFiles "/c")) ∧
      opened.1.coordinators.size = w.coordinators.size + 1 ∧ Untraced w opened.1 := by
  intro w asked opened
  have hallowed : Call.AllAllowed .start noCursors := by decide +kernel
  have hasked : asked.2 = .error (.storage (.tooManyOpenFiles "/b")) := by decide +kernel
  have hopened : opened.2 = .error (.storage (.tooManyOpenFiles "/c")) := by decide +kernel
  obtain ⟨hgetHandle, -, hopenFile⟩ := failed_open_untraced hallowed none
  exact ⟨hallowed, hasked, by decide +kernel, hgetHandle 1 _ _ _ (Prod.ext rfl hasked), hopened,
    by decide +kernel, hopenFile 0 _ _ _ (Prod.ext rfl hopened)⟩

end SnapshotCoordination
