import SnapshotCoordination.Proofs.Handles.Balancing
import SnapshotCoordination.Proofs.Handles.Indexing

/-!
# One live coordinator per path

Client code gets hold of coordinators and handles, and lets go of them, by one request at a time
(`Request`). A `Custody` is a world together with what a bystander would have written down: all the
references to coordinators and handles that client code has, and which coordinators were made
through which registry since its last reset.

* **`Custody.Kept.perform`** — every request keeps the references balanced and the registries indexed;
* **`one_coordinator_per_path`** — so, whatever client code asked for, a registry leads to exactly the
  live ones of the coordinators that were made through it since its last reset, a path leads to the
  one that was made for a path with the same key, and a coordinator is alive as long as client code
  holds it, or an open handle of it.
-/

namespace SnapshotCoordination

/-! ## Requests -/

namespace Call

/-- Whether a call takes or gives up references that outlast it. -/
def counts : Call → Bool
  | chore x => x.counts
  | openFile .. | getCanonicalHandle .. => true
  | _ => false

/-- A call that counts no references leaves all of them as they are. -/
theorem sameHoldings_perform {w : World} (h : Supported w) {x : Call} (hx : x.counts = false) :
    SameHoldings w (x.perform w) := by
  cases x with
  | chore x => exact x.sameHoldings_perform w hx
  | kill q => exact .onQuery w q _
  | setVersion q version => exact .onQuery w q _
  | register c q => exact (covers_sameHoldings c).registerQuery q w
  | onChange c => exact Action.retains_onChange c w h
  | sendNotifications c => exact Action.retains_sendNotifications c w h
  | advanceToReady c i => exact Action.retains_advanceToReady c i w h
  | processAvailable c i => exact Action.retains_processAvailable c i w h
  | openFile r thread config => cases hx
  | getCanonicalHandle c thread => cases hx
  | commit i log => exact Action.retains_commit i log w h
  | refresh i => exact Action.retains_refresh i w h
  | deliverAvailable i => exact Action.retains_deliverAvailable i w h
  | registerQuery i q => exact Action.retains_registerQuery i q w h

end Call

/-- What client code asks for. -/
inductive Request where
  /-- The coordinator of a path, which is made if none is alive. -/
  | getOrCreate (r : RegistryId) (path : String)
  /-- The coordinator of a path, if one is alive. -/
  | getExisting (r : RegistryId) (path : String)
  | openFile (r : RegistryId) (thread : Thread) (config : Config)
  | getHandle (c : CoordinatorId) (thread : Thread) (config : Config)
  | getCanonicalHandle (c : CoordinatorId) (thread : Thread)
  | coordinatorOf (h : HandleId)
  | copyCoordinator (c : CoordinatorId)
  | dropCoordinator (c : CoordinatorId)
  | copyHandle (h : HandleId)
  | dropHandle (h : HandleId)
  | closeHandle (h : HandleId)
  | resetRegistry (r : RegistryId)
  /-- Something that takes or gives up no reference for good. -/
  | other (x : Call)
  deriving DecidableEq

/-- A world, the references that client code has, and what was made through registries. -/
structure Custody where
  world : World
  coordinators : List CoordinatorId
  handles : List HandleId
  /-- The coordinators that were made through registries since these were reset. -/
  made : List Creation

namespace Custody

def start : Custody := ⟨.start, [], [], []⟩

/-- Somebody asked for a handle, and has a reference if there is one. -/
def receive (m : Custody) (asked : World × Except Failure HandleId) : Custody :=
  { m with world := asked.1, handles := asked.2.toOption.toList ++ m.handles }

/-- Somebody asked for a coordinator. -/
def take (m : Custody) (asked : World × Option CoordinatorId) : Custody :=
  { m with world := asked.1, coordinators := asked.2.toList ++ m.coordinators }

def perform (m : Custody) : Request → Custody
  | .getOrCreate r path =>
    let found := m.world.getCoordinator r path
    { m.take (found.1, some found.2) with made := m.made ++ m.world.making r path }
  | .getExisting r path =>
    match m.world.findCoordinator r path with
    | some c => m.take (m.world.retainCoordinator c, some c)
    | none => m
  | .openFile r thread config =>
    { m.receive ((Step.openFile r thread config).run m.world) with
      made := m.made ++ if config.fault?.isNone then m.world.making r config.path else [] }
  | .getHandle c thread config => m.receive ((Step.getHandle c thread config).run m.world)
  | .getCanonicalHandle c thread => m.receive ((Step.getCanonicalHandle c thread).run m.world)
  | .coordinatorOf h =>
    let asked := (Step.coordinatorOf h).run m.world
    m.take (asked.1, asked.2.toOption)
  | .copyCoordinator c => m.take (m.world.retainCoordinator c, some c)
  | .dropCoordinator c =>
    { m with world := m.world.releaseCoordinator c, coordinators := m.coordinators.erase c }
  | .copyHandle h => { m with world := m.world.retainHandle h, handles := h :: m.handles }
  | .dropHandle h => { m with world := m.world.releaseHandle h, handles := m.handles.erase h }
  | .closeHandle h => { m with world := m.world.closeHandle h }
  | .resetRegistry r =>
    { m with world := m.world.resetRegistry r, made := m.made.filter (·.registry != r) }
  | .other x => { m with world := x.perform m.world }

/-- Only what is alive can be asked or copied, and only who has a reference can give it up. -/
def Permits (m : Custody) : Request → Prop
  | .getHandle c _ _ | .getCanonicalHandle c _ | .copyCoordinator c => m.world.isAliveCoordinator c
  | .dropCoordinator c => c ∈ m.coordinators
  | .copyHandle h => m.world.isAliveHandle h
  | .dropHandle h => h ∈ m.handles
  | .other x => x.counts = false
  | _ => True

instance (m : Custody) (x : Request) : Decidable (m.Permits x) := by
  cases x <;> unfold Permits <;> infer_instance

/-- Custody after a row of requests. -/
def after (m : Custody) (requests : List Request) : Custody := requests.foldl perform m

/-- Whether every request of a row is permitted where it is made. -/
def PermitsAll : Custody → List Request → Prop
  | _, [] => True
  | m, x :: requests => m.Permits x ∧ PermitsAll (m.perform x) requests

instance decidePermitsAll : ∀ (m : Custody) (requests : List Request),
    Decidable (m.PermitsAll requests)
  | _, [] => .isTrue trivial
  | m, x :: requests =>
    have := decidePermitsAll (m.perform x) requests
    inferInstanceAs (Decidable (_ ∧ _))

/-! ## What requests keep -/

/-- All references are counted and the registries lead to what is alive. -/
structure Kept (m : Custody) : Prop where
  orderly : Orderly m.world
  balanced : Balanced m.coordinators m.handles m.world
  indexed : Indexed m.made m.world

namespace Kept

variable {m : Custody}

theorem start : Kept .start := ⟨.start, .start, .start⟩

/-- The references of client code come on top of those of open handles, so it may give them up. -/
theorem spares (h : Kept m) {c : CoordinatorId} (hc : c ∈ m.coordinators) :
    Call.Allowed m.world (.chore (.releaseCoordinator c)) := by
  have hrefs := h.balanced.coordinator c
  have hpos := List.count_pos_iff.mpr hc
  show (m.world.coordinator c).cached.length + [].count c < (m.world.coordinator c).refs
  rw [List.count_nil]
  omega

theorem retainCoordinator (h : Kept m) {c : CoordinatorId}
    (halive : m.world.isAliveCoordinator c) :
    Kept (m.take (m.world.retainCoordinator c, some c)) where
  orderly := h.orderly.chore (x := .retainCoordinator c) halive
  balanced := h.balanced.retainCoordinator c
  indexed := h.indexed.retainCoordinator halive

theorem getOrCreate (h : Kept m) (r : RegistryId) (path : String) :
    Kept (m.perform (.getOrCreate r path)) where
  orderly := h.orderly.chore (x := .getCoordinator r path) trivial
  balanced := h.balanced.getCoordinator r path
  indexed := h.indexed.getCoordinator h.orderly r path

theorem getExisting (h : Kept m) (r : RegistryId) (path : String) :
    Kept (m.perform (.getExisting r path)) := by
  dsimp only [perform]
  split
  · next c hfound => exact h.retainCoordinator (Option.filter_eq_some_iff.mp hfound).2
  · exact h

theorem coordinatorOf (h : Kept m) (i : HandleId) : Kept (m.perform (.coordinatorOf i)) := by
  dsimp only [perform]
  rw [Step.run_coordinatorOf]
  cases hopen : (m.world.handle i).coordinator with
  | some c => exact h.retainCoordinator (h.orderly.concord.counted.isAlive_of_open hopen)
  | none => exact h

theorem dropCoordinator (h : Kept m) {c : CoordinatorId} (hc : c ∈ m.coordinators) :
    Kept (m.perform (.dropCoordinator c)) where
  orderly := h.orderly.chore (h.spares hc)
  balanced := (h.balanced.of_perm (List.perm_cons_erase hc) (.refl _)).releaseCoordinator
  indexed := h.indexed.thins (thins_releaseCoordinator h.orderly.linked c)

theorem getHandle (h : Kept m) {c : CoordinatorId} (halive : m.world.isAliveCoordinator c)
    (thread : Thread) (config : Config) :
    Kept (m.receive ((Step.getHandle c thread config).run m.world)) := by
  obtain ⟨w', outcome, hrun, hasked, -⟩ := h.orderly.concord.getHandle c thread config
  have hlasts := bears_lasts.getHandle c thread config m.world
  obtain ⟨hconcord, hlinked⟩ :=
    Orderly.getHandle h.orderly.concord h.orderly.linked c thread config
  rw [hrun] at hlasts hconcord hlinked ⊢
  exact ⟨⟨hconcord, hlinked⟩, h.balanced.asked h.orderly.linked hasked,
    h.indexed.asked h.orderly.linked hlasts halive hasked⟩

theorem getCanonicalHandle (h : Kept m) {c : CoordinatorId}
    (halive : m.world.isAliveCoordinator c) (thread : Thread) :
    Kept (m.receive ((Step.getCanonicalHandle c thread).run m.world)) := by
  unfold Step.getCanonicalHandle
  rw [Step.run_bind_ok (Step.run_world m.world)]
  cases hconfig : (m.world.coordinator c).config? with
  | error failure => exact h
  | ok config => exact h.getHandle halive thread config

/-- **A file is opened**, or it comes to nothing. Meanwhile there is one more reference to the
coordinator, which goes with that if no handle was made. -/
theorem openFile (h : Kept m) (r : RegistryId) (thread : Thread) (config : Config) :
    Kept (m.perform (.openFile r thread config)) := by
  have horderly := h.orderly.openFile r thread config
  cases hfault : config.fault? with
  | some fault =>
    -- the configuration is refused before any coordinator is asked for
    have hrefused : (Step.openFile r thread config).run m.world =
        (m.world, .error (.invalidConfig fault)) := by
      unfold Step.openFile
      rw [hfault]
      rfl
    dsimp only [perform]
    rw [hrefused, hfault, Option.isNone_some, if_neg Bool.false_ne_true, List.append_nil]
    exact h
  | none =>
    let found := m.world.getCoordinator r config.path
    have hbalanced : Balanced (found.2 :: m.coordinators) m.handles found.1 :=
      h.balanced.getCoordinator r config.path
    have hindexed : Indexed (m.made ++ m.world.making r config.path) found.1 :=
      h.indexed.getCoordinator h.orderly r config.path
    have hfound : Concord [found.2] found.1 :=
      ⟨h.orderly.concord.counted.getCoordinator r config.path,
        h.orderly.concord.agreed.getCoordinator r config.path⟩
    have hlinked : Linked found.1 := h.orderly.linked.getCoordinator r config.path
    have halive : found.1.isAliveCoordinator found.2 := hfound.counted.isAlive_of_mem (by simp)
    obtain ⟨w', outcome, hrun, hasked, -⟩ := hfound.getHandle found.2 thread config
    have hlasts := bears_lasts.getHandle found.2 thread config found.1
    have hopened : (Step.openFile r thread config).run m.world =
        (w'.releaseCoordinator found.2, outcome) := by
      rw [Step.run_openFile hfault]
      exact congrArg (fun asked => (asked.1.releaseCoordinator found.2, asked.2)) hrun
    rw [hrun] at hlasts
    dsimp only [perform]
    rw [hopened] at horderly ⊢
    rw [hfault, Option.isNone_none, if_pos rfl]
    -- a coordinator that was made for nothing goes here, and is swept
    refine ⟨horderly, (hbalanced.asked hlinked hasked).releaseCoordinator, ?_⟩
    exact (hindexed.asked hlinked hlasts halive hasked).thins
      (thins_releaseCoordinator (hlinked.asked hfound hasked) _)

theorem dropHandle (h : Kept m) {i : HandleId} (hi : i ∈ m.handles) :
    Kept (m.perform (.dropHandle i)) where
  orderly := h.orderly.chore (x := .releaseHandle i) trivial
  balanced := (h.balanced.of_perm (.refl _) (List.perm_cons_erase hi)).releaseHandle
    h.orderly.concord.counted
  indexed := h.indexed.thins (thins_releaseHandle h.orderly.linked i)

theorem closeHandle (h : Kept m) (i : HandleId) : Kept (m.perform (.closeHandle i)) where
  orderly := h.orderly.chore (x := .closeHandle i) trivial
  balanced := h.balanced.closeHandle h.orderly.concord.counted i
  indexed := h.indexed.thins (thins_closeHandle h.orderly.linked i)

theorem resetRegistry (h : Kept m) (r : RegistryId) : Kept (m.perform (.resetRegistry r)) where
  orderly := h.orderly.chore (x := .resetRegistry r) trivial
  balanced := by
    -- the references of client code are references that are held
    have hcounted : Counted m.coordinators m.world :=
      { h.orderly.concord.counted with
        held := fun c => Nat.le_of_eq (h.balanced.coordinator c).symm }
    exact h.balanced.resetRegistry hcounted r
  indexed := h.indexed.resetRegistry h.orderly.linked r

theorem other (h : Kept m) {x : Call} (hx : x.counts = false) : Kept (m.perform (.other x)) :=
  have hsame := x.sameHoldings_perform h.orderly.supported hx
  ⟨h.orderly.sameHoldings hsame, h.balanced.sameHoldings hsame,
    h.indexed.sameHoldings (x.lasts_perform m.world) hsame⟩

/-- **The step lemma.** -/
theorem perform (h : Kept m) {x : Request} (hx : m.Permits x) : Kept (m.perform x) := by
  cases x with
  | getOrCreate r path => exact h.getOrCreate r path
  | getExisting r path => exact h.getExisting r path
  | openFile r thread config => exact h.openFile r thread config
  | getHandle c thread config => exact h.getHandle hx thread config
  | getCanonicalHandle c thread => exact h.getCanonicalHandle hx thread
  | coordinatorOf i => exact h.coordinatorOf i
  | copyCoordinator c => exact h.retainCoordinator hx
  | dropCoordinator c => exact h.dropCoordinator hx
  | copyHandle i =>
    exact ⟨h.orderly.chore (x := .retainHandle i) trivial, h.balanced.retainHandle i,
      h.indexed.congr (refl_of World.Lasts m.world) rfl fun _ => rfl⟩
  | dropHandle i => exact h.dropHandle hx
  | closeHandle i => exact h.closeHandle i
  | resetRegistry r => exact h.resetRegistry r
  | other x => exact h.other hx

/-- The run lemma. -/
theorem after {requests : List Request} (h : Kept m) (hpermitted : m.PermitsAll requests) :
    Kept (m.after requests) := by
  induction requests generalizing m with
  | nil => exact h
  | cons x requests ih => exact ih (h.perform hpermitted.1) hpermitted.2

end Kept

end Custody

/-! ## Coordinators and paths -/

/-- **One live coordinator per path.** After any row of requests that are made one at a time, a
registry has exactly one entry for each of the coordinators that were made through it since its last
reset and are alive, under the key of its path, and no two of them have the same key. Whoever asks
for the coordinator of a path gets such a coordinator if the path has the same key as the path it
was made for, and only then. A coordinator is alive as long as client code holds it, or holds an
open handle of it. -/
theorem one_coordinator_per_path {requests : List Request}
    (hpermitted : Custody.start.PermitsAll requests) :
    let m := Custody.start.after requests
    (∀ r key c, (key, c) ∈ (m.world.registry r).entries ↔
      m.world.isAliveCoordinator c ∧ ∃ path, ⟨r, path, c⟩ ∈ m.made ∧ FilePath.key path = key) ∧
    (∀ r, ((m.world.registry r).entries.map (·.1)).Nodup) ∧
    (∀ e ∈ m.made, ∀ e' ∈ m.made, e.coordinator = e'.coordinator → e = e') ∧
    (∀ e ∈ m.made, m.world.isAliveCoordinator e.coordinator → ∀ path,
      (m.world.getCoordinator e.registry path).2 = e.coordinator ↔
        FilePath.key path = FilePath.key e.path) ∧
    ∀ c, m.world.isAliveCoordinator c ↔ c ∈ m.coordinators ∨
      ∃ h ∈ m.handles, (m.world.handle h).isOpen ∧ (m.world.handle h).coordinator = some c := by
  intro m
  have h : Custody.Kept m := Custody.Kept.start.after hpermitted
  refine ⟨h.indexed.entry, h.indexed.once, h.indexed.distinct, fun e he halive path => ?_, fun c => ?_⟩
  · exact h.indexed.getCoordinator_eq_iff he halive path
  · exact h.balanced.isAliveCoordinator_iff h.orderly.concord.counted c

/-- A file is opened through a registry and its coordinator is kept beyond a reset. Then the file is
opened again by another spelling of its path, and the first coordinator goes. -/
def reopened : List Request :=
  [.other (.chore .makeEngine), .other (.chore .makeRegistry), .openFile 0 none (.forFile "/a" 0),
    .getExisting 0 "//a/.", .resetRegistry 0, .openFile 0 none (.forFile "/b/../a" 0),
    .dropCoordinator 0, .openFile 0 none (.forFile "" 0)]

/-- The second coordinator of the path survives the sweep that the first one goes with, and every
spelling leads there. -/
theorem one_coordinator_per_path_reopened :
    let m := Custody.start.after reopened
    Custody.start.PermitsAll reopened ∧
      (m.world.registry 0).entries = [("/a", 1)] ∧ m.made = [⟨0, "/b/../a", 1⟩] ∧
      m.world.isAliveCoordinator 0 = false ∧
      ((m.world.getCoordinator 0 "/a/").2 = 1 ↔ FilePath.key "/a/" = FilePath.key "/b/../a") ∧
      FilePath.key "/a/" = FilePath.key "/b/../a" ∧
      (m.world.isAliveCoordinator 1 ↔ 1 ∈ m.coordinators ∨
        ∃ h ∈ m.handles, (m.world.handle h).isOpen ∧ (m.world.handle h).coordinator = some 1) := by
  intro m
  have hpermitted : Custody.start.PermitsAll reopened := by decide +kernel
  obtain ⟨-, -, -, hpaths, halive⟩ := one_coordinator_per_path hpermitted
  exact ⟨hpermitted, by decide +kernel, by decide +kernel, by decide +kernel,
    hpaths ⟨0, "/b/../a", 1⟩ (by decide +kernel) (by decide +kernel) "/a/", by decide +kernel,
    halive 1⟩

end SnapshotCoordination
