import Mathlib.Data.List.Induction
import SnapshotCoordination.Proofs.Handles.Waning

/-!
# Handles of one coordinator agree

The canonical configuration of a coordinator is decided by an open, and an open may decide it anew
only while no handle is open. Every other open has to go along with it, so all open handles of a
coordinator go along with one another.

* **`Config.Suits`** — a handle goes along with the canonical configuration;
* **`Agreed`** — the invariant: all open handles do, and a coordinator has a notifier exactly if its
  canonical configuration is writable, unless it was reset and remembers no handle;
* **`Moment.AllowsHeld`** — the rule under which it holds: references are given up only by those
  who have them;
* **`handles_agree`** — what this means between any two sections.
-/

namespace SnapshotCoordination

namespace Config

/-- A handle that was opened by a configuration goes along with the canonical one. -/
structure Suits (canonical config : Config) : Prop where
  readOnly : config.readOnly = canonical.readOnly
  inMemory : config.inMemory = canonical.inMemory
  encryptionKey : config.encryptionKey = canonical.encryptionKey
  engine : config.engine = canonical.engine
  schemaVersion : config.schemaVersion = none ∨ config.schemaVersion = canonical.schemaVersion

theorem Suits.refl (config : Config) : config.Suits config := ⟨rfl, rfl, rfl, rfl, .inr rfl⟩

/-- A request without conflict goes along, if both name an engine. -/
theorem suits_of_conflict? {canonical config : Config} (h : canonical.conflict? config = none)
    (hcanonical : canonical.engine.isSome) (hconfig : config.engine.isSome) :
    canonical.Suits config := by
  unfold conflict? at h
  split at h
  · cases h
  next hreadOnly =>
  split at h
  · cases h
  next hinMemory =>
  split at h
  · cases h
  next hkey =>
  split at h
  · cases h
  next hengine =>
  split at h
  · cases h
  next hschema =>
  simp only [hcanonical, hconfig, true_and, Decidable.not_not] at hreadOnly hinMemory hkey hengine
  refine ⟨hreadOnly.symm, hinMemory.symm, hkey.symm, hengine.symm, ?_⟩
  cases hversion : config.schemaVersion with
  | none => exact .inl rfl
  | some version =>
    rw [hversion] at hschema
    simp only [Option.isSome_some, true_and, Decidable.not_not] at hschema
    exact .inr hschema.symm

theorem isSome_engine_of_file? {config : Config} {f : FileId} (h : config.file? = some f) :
    config.engine.isSome := by
  unfold file? at h
  cases he : config.engine with
  | none =>
    rw [he] at h
    cases h
  | some e => rfl

end Config

/-! ## The invariant -/

/-- Every open handle goes along with the canonical configuration of its coordinator. A coordinator
has a notifier only if its canonical configuration is writable, and then it lacks one only while it
remembers no handle. -/
structure Agreed (w : World) : Prop where
  engine : ∀ c canonical, (w.coordinator c).config = some canonical → canonical.engine.isSome
  suits : ∀ h c, (w.handle h).coordinator = some c → ∃ canonical,
    (w.coordinator c).config = some canonical ∧ canonical.Suits (w.handle h).config
  writable : ∀ c, (w.coordinator c).notifier.isSome → ∃ canonical,
    (w.coordinator c).config = some canonical ∧ canonical.readOnly = false
  attended : ∀ c canonical, (w.coordinator c).config = some canonical →
    canonical.readOnly = false → (w.coordinator c).notifier = none → w.remembered c = []

/-- What a coordinator is like that an open has gone well with: the canonical configuration goes
along with the new handle and with all that are open, and there is a notifier if it is writable. -/
structure Decided (w : World) (c : CoordinatorId) (config : Config) (s : Coordinator)
    (canonical : Config) : Prop where
  adopted : s.config = some canonical
  engine : canonical.engine.isSome
  new : canonical.Suits config
  old : ∀ i, (w.handle i).coordinator = some c → canonical.Suits (w.handle i).config
  notifier : s.notifier.isSome ↔ canonical.readOnly = false

namespace Agreed

variable {cs : List CoordinatorId} {c : CoordinatorId} {w w' : World}

theorem start : Agreed .start where
  engine _ _ h := nomatch h
  suits _ _ h := nomatch h
  writable _ h := nomatch h
  attended _ _ h := nomatch h

/-- The invariant is about configurations, notifiers, and who is open with whom. -/
theorem congr (h : Agreed w) (hconfig : ∀ c, (w'.coordinator c).config = (w.coordinator c).config)
    (hnotifier : ∀ c, (w'.coordinator c).notifier = (w.coordinator c).notifier)
    (hcached : ∀ c, (w'.coordinator c).cached = (w.coordinator c).cached)
    (hhandle : ∀ i, (w'.handle i).config = (w.handle i).config ∧
      (w'.handle i).coordinator = (w.handle i).coordinator) : Agreed w' where
  engine c canonical hc := h.engine c canonical (hconfig c ▸ hc)
  suits i c hi := by
    rw [hconfig, (hhandle i).1]
    exact h.suits i c ((hhandle i).2 ▸ hi)
  writable c hc := by
    rw [hconfig]
    exact h.writable c (hnotifier c ▸ hc)
  attended c canonical hc hwritable hnone := by
    rw [World.remembered, hcached]
    exact h.attended c canonical (hconfig c ▸ hc) hwritable (hnotifier c ▸ hnone)

theorem of_eq (h : Agreed w) (hcoordinators : w'.coordinators = w.coordinators)
    (hhandles : w'.handles = w.handles) : Agreed w' := by
  have hcoordinator : ∀ c, w'.coordinator c = w.coordinator c := fun c => by
    simp only [World.coordinator, hcoordinators]
  exact h.congr (fun c => by rw [hcoordinator]) (fun c => by rw [hcoordinator])
    (fun c => by rw [hcoordinator]) fun i => by rw [World.handle_congr hhandles]; exact ⟨rfl, rfl⟩

theorem sameHoldings (h : Agreed w) (hsame : SameHoldings w w') : Agreed w' :=
  h.congr hsame.config hsame.tuned hsame.cached
    fun i => ⟨congrArg Tie.config (hsame.handle i), congrArg Tie.coordinator (hsame.handle i)⟩

/-- An open handle is the end of every adoption. -/
theorem idle (h : Agreed w) (hcounted : Counted cs w) (hadopts : (w.coordinator c).adoptsNext) :
    (w.coordinator c).cached = [] := by
  have hnil : w.remembered c = [] := by
    cases hconfig : (w.coordinator c).config with
    | none =>
      rw [List.eq_nil_iff_forall_not_mem]
      intro i hi
      obtain ⟨canonical, hcanonical, -⟩ := h.suits i c ((hcounted.member c i).mp hi)
      rw [hconfig] at hcanonical
      cases hcanonical
    | some canonical =>
      rw [Coordinator.adoptsNext, hconfig] at hadopts
      dsimp only at hadopts
      split at hadopts
      · unfold World.remembered
        rw [List.isEmpty_iff.mp hadopts]
        rfl
      · next hwritable =>
        exact h.attended c canonical hconfig (by simpa using hwritable) (by simpa using hadopts)
  exact List.map_eq_nil_iff.mp hnil

/-- The notifier was given up before an adoption. -/
theorem deaf (h : Agreed w) (hadopts : (w.coordinator c).adoptsNext) :
    (w.coordinator c).notifier = none := by
  rw [← Option.not_isSome_iff_eq_none]
  intro hsome
  obtain ⟨canonical, hcanonical, hwritable⟩ := h.writable c hsome
  rw [Coordinator.adoptsNext, hcanonical] at hadopts
  simp [hwritable] at hadopts
  rw [hadopts] at hsome
  cases hsome

/-- Handles were closed, if anything, and who lost its notifier remembers no handle any more. -/
theorem lessen (h : Agreed w) (hconfig : ∀ c, (w'.coordinator c).config = (w.coordinator c).config)
    (hconfigured : ∀ i, (w'.handle i).config = (w.handle i).config)
    (hcoordinator : ∀ i, (w'.handle i).coordinator = (w.handle i).coordinator ∨
      (w'.handle i).coordinator = none)
    (hremembered : ∀ c, w'.remembered c ⊆ w.remembered c)
    (hnotifier : ∀ c, (w'.coordinator c).notifier = (w.coordinator c).notifier ∨
      (w'.coordinator c).notifier = none ∧ w'.remembered c = []) : Agreed w' where
  engine c canonical hc := h.engine c canonical (hconfig c ▸ hc)
  suits i c hi := by
    rw [hconfig, hconfigured]
    rcases hcoordinator i with hsame | hclosed
    · exact h.suits i c (hsame ▸ hi)
    · rw [hclosed] at hi
      cases hi
  writable c hc := by
    rw [hconfig]
    rcases hnotifier c with hsame | ⟨hnone, -⟩
    · exact h.writable c (hsame ▸ hc)
    · rw [hnone] at hc
      cases hc
  attended c canonical hc hwritable hnone := by
    rcases hnotifier c with hsame | ⟨-, hnobody⟩
    · have hnil := h.attended c canonical (hconfig c ▸ hc) hwritable (hsame ▸ hnone)
      exact List.eq_nil_of_subset_nil (hnil ▸ hremembered c)
    · exact hnobody

/-- **Only references are given up.** -/
theorem wanes (h : Agreed w) (hwanes : Wanes w w') (hcounted : Counted cs w') : Agreed w' :=
  h.lessen hwanes.config hwanes.configured hwanes.coordinator hwanes.remembered fun c =>
    (hwanes.notifier c).imp_right fun ⟨hnone, hdead⟩ =>
      ⟨hnone, List.map_eq_nil_iff.mpr (hcounted.cached_of_dead hdead)⟩

/-- A registry is reset. -/
theorem reset (h : Agreed w) {r : RegistryId} (hreset : Reset r w w') (hcounted : Counted cs w') :
    Agreed w' := by
  refine h.lessen hreset.config hreset.configured hreset.coordinator hreset.remembered fun c => ?_
  rcases hreset.notifier c with hsame | ⟨hnone, hdead | hlisted⟩
  · exact .inl hsame
  · exact .inr ⟨hnone, List.map_eq_nil_iff.mpr (hcounted.cached_of_dead hdead)⟩
  · exact .inr ⟨hnone, hreset.closed c hlisted⟩

theorem retainCoordinator (h : Agreed w) (c : CoordinatorId) : Agreed (w.retainCoordinator c) :=
  h.congr (w.read_onCoordinator (·.config) (fun _ => by rfl) c)
    (w.read_onCoordinator (·.notifier) (fun _ => by rfl) c)
    (w.read_onCoordinator (·.cached) (fun _ => by rfl) c) fun _ => ⟨rfl, rfl⟩

/-- A coordinator that is new has no configuration, as one that was never made. -/
theorem getCoordinator (h : Agreed w) (r : RegistryId) (path : String) :
    Agreed (w.getCoordinator r path).1 := by
  unfold World.getCoordinator
  split
  · exact h.retainCoordinator _
  · let w' : World := { w with coordinators := w.coordinators.push (.made (FilePath.key path) r) }
    have hnew : Agreed w' :=
      h.congr (w.read_pushCoordinator (·.config) rfl) (w.read_pushCoordinator (·.notifier) rfl)
        (w.read_pushCoordinator (·.cached) rfl) fun _ => ⟨rfl, rfl⟩
    exact hnew.of_eq rfl rfl

/-! ## Asking for a handle -/

theorem decided (h : Agreed w) (hcounted : Counted cs w) {config : Config}
    {adoption : Option Adoption} (hprepared : Prepared c config w w' adoption)
    (hengine : config.engine.isSome) :
    ∃ canonical, Decided w' c config ((w'.coordinator c).adopting adoption) canonical := by
  rw [hprepared.coordinator]
  -- while something is adopted, no handle is open
  have hnew : (w.coordinator c).adoptsNext → ∀ i, (w.handle i).coordinator = some c →
      config.Suits (w.handle i).config := by
    intro hadopts i hi
    have hmem := (hcounted.member c i).mpr hi
    rw [World.remembered, h.idle hcounted hadopts] at hmem
    cases hmem
  cases hprepared with
  | agreed canonical hcanonical hkept hagrees =>
    have hsome := h.engine c canonical hcanonical
    refine ⟨canonical, hcanonical, hsome, Config.suits_of_conflict? hagrees hsome hengine,
      fun i hi => ?_, fun hn => ?_, fun hwritable => ?_⟩
    · obtain ⟨other, hother, hsuits⟩ := h.suits i c hi
      rw [hcanonical, Option.some_inj] at hother
      exact hother ▸ hsuits
    · obtain ⟨other, hother, hwritable⟩ := h.writable c hn
      rw [hcanonical, Option.some_inj] at hother
      exact hother ▸ hwritable
    · rw [Coordinator.adoptsNext, hcanonical] at hkept
      simp only [hwritable, Bool.false_eq_true, if_false] at hkept
      rw [Option.isNone_eq_false_iff] at hkept
      exact hkept
  | plain hadopts hplain =>
    have hnone := h.deaf hadopts
    refine ⟨config, rfl, hengine, .refl config, hnew hadopts, ?_⟩
    show ((none : Option NotifierId).or (w.coordinator c).notifier).isSome ↔ _
    rw [hnone] at hplain ⊢
    simpa using hplain
  | heard f hf hadopts hwritable hnone =>
    exact ⟨config, rfl, hengine, .refl config, hnew hadopts, fun _ => hwritable, fun _ => rfl⟩

/-- A handle was made that goes along with what was decided. -/
theorem admitted (h : Agreed w) {x : Handle} {adoption : Option Adoption}
    (hadmitted : Admitted c x adoption w w') (hx : x.coordinator = some c) {canonical : Config}
    (hdecided : Decided w c x.config ((w.coordinator c).adopting adoption) canonical) :
    Agreed w' := by
  obtain ⟨reusable, hself⟩ := hadmitted.self
  have hhandle := hadmitted.handle
  have hconfig : (w'.coordinator c).config = some canonical := by
    rw [hself]
    exact hdecided.adopted
  have hnotifier : (w'.coordinator c).notifier.isSome ↔ canonical.readOnly = false := by
    rw [hself]
    exact hdecided.notifier
  constructor
  case engine =>
    intro d other hd
    by_cases hdc : d = c
    · rw [hdc, hconfig, Option.some_inj] at hd
      exact hd ▸ hdecided.engine
    · rw [hadmitted.others d hdc] at hd
      exact h.engine d other hd
  case suits =>
    intro i d hi
    rw [hhandle] at hi ⊢
    by_cases hdc : d = c
    · rw [hdc] at hi ⊢
      refine ⟨canonical, hconfig, ?_⟩
      split
      · exact hdecided.new
      · next hne =>
        rw [if_neg hne] at hi
        exact hdecided.old i hi
    · rw [hadmitted.others d hdc]
      split
      · next hi' =>
        rw [if_pos hi', hx, Option.some_inj] at hi
        exact absurd hi.symm hdc
      · next hne =>
        rw [if_neg hne] at hi
        exact h.suits i d hi
  case writable =>
    intro d hd
    by_cases hdc : d = c
    · rw [hdc] at hd ⊢
      exact ⟨canonical, hconfig, hnotifier.mp hd⟩
    · rw [hadmitted.others d hdc] at hd ⊢
      exact h.writable d hd
  case attended =>
    intro d other hd hwritable hnone
    by_cases hdc : d = c
    · rw [hdc] at hd hnone
      rw [hconfig, Option.some_inj] at hd
      have hsome := hnotifier.mpr (hd ▸ hwritable)
      rw [hnone] at hsome
      cases hsome
    · rw [hadmitted.others d hdc] at hd hnone
      unfold World.remembered
      rw [hadmitted.others d hdc]
      exact h.attended d other hd hwritable hnone

theorem asked (h : Agreed w) (hcounted : Counted cs w) {thread : Thread} {config : Config}
    {outcome : Except Failure HandleId} (hasked : Asked c thread config w w' outcome) :
    Agreed w' := by
  cases hasked with
  | refused _ failure hlooked => exact h.sameHoldings (.of_looked hlooked)
  | abandoned f w₁ failure hf hnone hlooked =>
    have hheard : Agreed (w.listening c f) := h.of_eq rfl rfl
    exact (hheard.sameHoldings (.of_looked hlooked)).of_eq (w₁.coordinators_releaseNotifier _)
      (w₁.handles_releaseNotifier _)
  | reused i canonical hmem halive hcanonical hkept =>
    exact h.wanes (wanes_retainHandle w i) (hcounted.retainHandle i)
  | made adoption cursor w₁ _ hprepared hf hadmitted =>
    have hprepared' : Agreed w₁ := h.of_eq hprepared.coordinators hprepared.handles
    obtain ⟨canonical, hdecided⟩ :=
      h.decided hcounted hprepared (Config.isSome_engine_of_file? hf)
    exact hprepared'.admitted hadmitted rfl hdecided

end Agreed

/-! ## Sections -/

/-- The references are counted and the handles agree. -/
structure Concord (cs : List CoordinatorId) (w : World) : Prop where
  counted : Counted cs w
  agreed : Agreed w

namespace Chore

/-- Whether a chore spares the references that others hold: those of open handles and of running
operations. Nor does it bring back a coordinator that is gone. -/
def Spares (cs : List CoordinatorId) (w : World) : Chore → Prop
  | retainCoordinator c => w.isAliveCoordinator c
  | releaseCoordinator c =>
    (w.coordinator c).cached.length + cs.count c < (w.coordinator c).refs
  | _ => True

instance (cs : List CoordinatorId) (w : World) (x : Chore) : Decidable (x.Spares cs w) := by
  cases x <;> unfold Spares <;> infer_instance

end Chore

namespace Concord

variable {cs : List CoordinatorId} {w w' : World}

theorem sameHoldings (h : Concord cs w) (hsame : SameHoldings w w') : Concord cs w' :=
  ⟨h.counted.sameHoldings hsame, h.agreed.sameHoldings hsame⟩

theorem wanes {ds : List CoordinatorId} (h : Concord cs w) (hwanes : Wanes w w')
    (hcounted : Counted ds w') : Concord ds w' := ⟨hcounted, h.agreed.wanes hwanes hcounted⟩

theorem getHandle (h : Concord cs w) (c : CoordinatorId) (thread : Thread) (config : Config) :
    ∃ w' outcome, (Step.getHandle c thread config).run w = (w', outcome) ∧
      Asked c thread config w w' outcome ∧ Concord cs w' := by
  obtain ⟨w', outcome, hrun, hasked⟩ := Step.run_getHandle thread config (h.agreed.idle h.counted)
  exact ⟨w', outcome, hrun, hasked, h.counted.asked hasked, h.agreed.asked h.counted hasked⟩

/-- **A chore that spares the references of others** leaves the handles agreeing. -/
theorem chore (h : Concord cs w) {x : Chore} (hx : x.Spares cs w) : Concord cs (x.perform w) := by
  by_cases hcounts : x.counts = false
  · exact h.sameHoldings (x.sameHoldings_perform w hcounts)
  cases x with
  | getCoordinator r path =>
    exact ⟨(h.counted.getCoordinator r path).of_cons, h.agreed.getCoordinator r path⟩
  | retainCoordinator c =>
    exact ⟨(h.counted.retainCoordinator c).of_cons, h.agreed.retainCoordinator c⟩
  | releaseCoordinator c =>
    have hheld : Counted (c :: cs) w := by
      refine { h.counted with held := fun d => ?_ }
      have hall := h.counted.held d
      rw [List.count_cons]
      by_cases hd : d = c
      · subst hd
        simp only [Chore.Spares] at hx
        simp only [beq_self_eq_true, if_true]
        omega
      · simp only [beq_iff_eq, Ne.symm hd, if_false]
        omega
    exact h.wanes (wanes_releaseCoordinator w c) hheld.releaseCoordinator
  | retainHandle i => exact h.wanes (wanes_retainHandle w i) (h.counted.retainHandle i)
  | releaseHandle i => exact h.wanes (wanes_releaseHandle w i) (h.counted.releaseHandle i)
  | closeHandle i => exact h.wanes (wanes_closeHandle w i) (h.counted.closeHandle i)
  | retainNotifier n =>
    exact ⟨h.counted.of_handles rfl (fun _ => rfl) fun _ => rfl, h.agreed.of_eq rfl rfl⟩
  | releaseNotifier n => exact h.wanes (wanes_releaseNotifier w n) (h.counted.releaseNotifier n)
  | resetRegistry r =>
    exact ⟨h.counted.resetRegistry r,
      h.agreed.reset (reset_resetRegistry h.counted r) (h.counted.resetRegistry r)⟩
  | getHandle c thread config =>
    obtain ⟨w', outcome, hrun, -, hconcord⟩ := h.getHandle c thread config
    show Concord cs ((Step.getHandle c thread config).run w).1
    rw [hrun]
    exact hconcord
  | _ => exact absurd rfl hcounts

end Concord

namespace Moment

/-- References to coordinators are taken while these are alive, and given up only by those who have
them: nobody gives up one that an open handle has. -/
def AllowsHeld (m : Moment) : Section → Prop
  | .chore x => x.Spares [] m.world
  | _ => True

instance (m : Moment) : (s : Section) → Decidable (m.AllowsHeld s)
  | .chore x => inferInstanceAs (Decidable (x.Spares [] m.world))
  | .kill _ | .setVersion .. | .register .. | .beginCycle _ | .startRun .. | .concludeCycle .. =>
    .isTrue trivial

end Moment

namespace Concord

/-- The step lemma. -/
theorem perform {m : Moment} {s : Section} (hallowed : m.AllowsHeld s) (h : Concord [] m.world) :
    Concord [] (m.perform s).world := by
  cases s with
  | chore x => exact h.chore hallowed
  | _ => exact h.sameHoldings (m.sameHoldings_perform fun _ => Section.noConfusion)

/-- The run lemma. -/
theorem after {sections : List Section} (hallowed : Moment.start.Follows Moment.AllowsHeld sections) :
    Concord [] (Moment.start.after sections).world :=
  hallowed.preserves (I := fun m => Concord [] m.world) (fun _ _ => perform) ⟨.start, .start⟩

end Concord

/-! ## What becomes of one coordinator -/

namespace Moment

/-- Coordinator `c` is asked for a handle next, and hands one out. -/
def HandsOut (m : Moment) (c : CoordinatorId) (s : Section) : Prop :=
  ∃ thread config h, s = .chore (.getHandle c thread config) ∧
    ((Step.getHandle c thread config).run m.world).2 = .ok h

/-- What can become of coordinator `c` in a section. -/
inductive Fate (m : Moment) (c : CoordinatorId) (s : Section) : Prop where
  /-- It keeps its configuration, and its notifier to its end. -/
  | kept (hconfig : ((m.perform s).world.coordinator c).config = (m.world.coordinator c).config)
      (hnotifier : ((m.perform s).world.coordinator c).notifier =
        (m.world.coordinator c).notifier ∨ ((m.perform s).world.coordinator c).refs = 0)
      (halive : (m.perform s).world.isAliveCoordinator c →
        (m.world.coordinator c).config.isSome → m.world.isAliveCoordinator c)
      (hidle : ¬ m.HandsOut c s)
  /-- Its registry is reset. -/
  | reset (r : RegistryId) (hs : s = .chore (.resetRegistry r)) (hlisted : c ∈ m.world.listed r)
      (hconfig : ((m.perform s).world.coordinator c).config = (m.world.coordinator c).config)
  /-- It hands out a handle; it may get a configuration then, if no handle is open. -/
  | handsOut (canonical : Config)
      (hcanonical : ((m.perform s).world.coordinator c).config = some canonical)
      (hnotifier : ((m.perform s).world.coordinator c).notifier.isSome ↔
        canonical.readOnly = false)
      (hfixed : (m.world.coordinator c).config = some canonical ∨
        ∀ h, (m.world.handle h).coordinator ≠ some c)

variable {m : Moment} {c : CoordinatorId}

theorem Fate.of_wanes {x : Chore} (h : Wanes m.world (x.perform m.world))
    (hx : ∀ thread config, x ≠ .getHandle c thread config) : m.Fate c (.chore x) := by
  refine .kept (h.config c) ((h.notifier c).imp_right And.right) (fun halive _ => ?_) ?_
  · have hle := h.refs c
    change decide (0 < ((x.perform m.world).coordinator c).refs) = true at halive
    simp only [World.isAliveCoordinator, decide_eq_true_eq] at halive ⊢
    omega
  · rintro ⟨thread, config, i, hs, -⟩
    exact hx thread config (Section.chore.inj hs)

theorem Fate.of_same {s : Section}
    (h : ((m.perform s).world.coordinator c).foreground = (m.world.coordinator c).foreground)
    (hidle : ¬ m.HandsOut c s) : m.Fate c s := by
  refine .kept (congrArg Foreground.config h) (.inl (congrArg Foreground.notifier h))
    (fun halive _ => ?_) hidle
  have hrefs : ((m.perform s).world.coordinator c).refs = (m.world.coordinator c).refs :=
    congrArg Foreground.refs h
  unfold World.isAliveCoordinator at halive ⊢
  rw [← hrefs]
  exact halive

/-- Somebody gets a reference to a coordinator that is alive. -/
theorem Fate.of_retained {s : Section} {d : CoordinatorId} (halive : m.world.isAliveCoordinator d)
    (hworld : (m.perform s).world = m.world.retainCoordinator d) (hidle : ¬ m.HandsOut c s) :
    m.Fate c s := by
  have hafter := World.coordinator_retainCoordinator m.world d c
  rw [← hworld] at hafter
  by_cases hc : c = d
  · subst hc
    rw [if_pos rfl] at hafter
    exact .kept (by rw [hafter]) (.inl (by rw [hafter])) (fun _ _ => halive) hidle
  · rw [if_neg hc] at hafter
    exact .of_same (by rw [hafter]) hidle

/-- A coordinator that is made for a path has no configuration yet. -/
theorem fate_getCoordinator (r : RegistryId) (path : String) :
    m.Fate c (.chore (.getCoordinator r path)) := by
  have hworld : (m.perform (.chore (.getCoordinator r path))).world =
      (m.world.getCoordinator r path).1 := rfl
  have hidle : ¬ m.HandsOut c (.chore (.getCoordinator r path)) := by
    rintro ⟨_, _, _, hs, -⟩
    cases hs
  unfold World.getCoordinator at hworld
  split at hworld
  · next d hfound =>
    exact .of_retained (Option.filter_eq_some_iff.mp hfound).2 hworld hidle
  · have hafter := m.world.coordinators.get_push (.made (FilePath.key path) r) c
    have hcoordinator : (m.perform (.chore (.getCoordinator r path))).world.coordinator c =
        if c = m.world.coordinators.size then .made (FilePath.key path) r
        else m.world.coordinator c := by
      rw [hworld]
      exact hafter
    by_cases hc : c = m.world.coordinators.size
    · have hfresh : m.world.coordinator c = default := hc ▸ m.world.coordinators.get_size
      rw [if_pos hc] at hcoordinator
      refine .kept (by rw [hcoordinator, hfresh]; rfl) (.inl (by rw [hcoordinator, hfresh]; rfl))
        (fun _ hconfig => ?_) hidle
      rw [hfresh] at hconfig
      cases hconfig
    · rw [if_neg hc] at hcoordinator
      exact .of_same (by rw [hcoordinator]) hidle

/-- Somebody else asks for a handle, or it comes to nothing. -/
theorem fate_getHandle (hconcord : Concord [] m.world) (d : CoordinatorId) (thread : Thread)
    (config : Config) : m.Fate c (.chore (.getHandle d thread config)) := by
  obtain ⟨w', outcome, hrun, hasked, -⟩ := hconcord.getHandle d thread config
  have hworld : (m.perform (.chore (.getHandle d thread config))).world = w' := by
    show ((Step.getHandle d thread config).run m.world).1 = w'
    rw [hrun]
  have hsame : w'.coordinator c = m.world.coordinator c → (c = d → ∀ h, outcome ≠ .ok h) →
      m.Fate c (.chore (.getHandle d thread config)) := by
    intro hcoordinator hfailed
    refine .of_same (by rw [hworld, hcoordinator]) ?_
    rintro ⟨thread', config', h, hs, hok⟩
    cases hs
    rw [hrun] at hok
    exact hfailed rfl h hok
  cases hasked with
  | refused _ failure hlooked => exact hsame (hlooked.coordinator c) nofun
  | abandoned f w₁ failure hf hnone hlooked =>
    refine hsame ?_ nofun
    rw [World.coordinator_releaseNotifier, hlooked.coordinator]
    rfl
  | reused i canonical hmem halive hcanonical hkept =>
    by_cases hd : c = d
    · subst hd
      refine .handsOut canonical (by rw [hworld]; exact hcanonical) ?_ (.inl hcanonical)
      rw [hworld]
      show (m.world.coordinator c).notifier.isSome ↔ _
      constructor
      · intro hsome
        obtain ⟨other, hother, hwritable⟩ := hconcord.agreed.writable c hsome
        rw [hcanonical, Option.some_inj] at hother
        exact hother ▸ hwritable
      · intro hwritable
        rw [Coordinator.adoptsNext, hcanonical] at hkept
        simpa [hwritable] using hkept
    · exact hsame rfl fun heq => absurd heq hd
  | made adoption cursor w₁ _ hprepared hf hadmitted =>
    by_cases hd : c = d
    · subst hd
      obtain ⟨canonical, hdecided⟩ := hconcord.agreed.decided hconcord.counted hprepared
        (Config.isSome_engine_of_file? hf)
      obtain ⟨reusable, hself⟩ := hadmitted.self
      refine .handsOut canonical ?_ ?_ ?_
      · rw [hworld, hself]
        exact hdecided.adopted
      · rw [hworld, hself]
        exact hdecided.notifier
      · have hadopted := hdecided.adopted
        rw [hprepared.coordinator] at hadopted
        -- whatever is adopted, no handle is open
        have hnobody : (m.world.coordinator c).adoptsNext →
            ∀ h, (m.world.handle h).coordinator ≠ some c := by
          intro hadopts h hopen
          have hmem := (hconcord.counted.member c h).mpr hopen
          rw [World.remembered, hconcord.agreed.idle hconcord.counted hadopts] at hmem
          cases hmem
        cases hprepared with
        | agreed => exact .inl hadopted
        | plain hadopts => exact .inr (hnobody hadopts)
        | heard f hf hadopts => exact .inr (hnobody hadopts)
    · refine hsame ?_ fun heq => absurd heq hd
      rw [hadmitted.others c hd, hprepared.coordinator]

/-- **What becomes of a coordinator** in a section. -/
theorem fate_perform (hconcord : Concord [] m.world) {s : Section} (hallowed : m.AllowsHeld s) :
    m.Fate c s := by
  cases s with
  | chore x =>
    by_cases hcounts : x.counts = false
    · have hsame := x.sameHoldings_perform m.world hcounts
      refine .of_same (hsame.coordinator c) ?_
      rintro ⟨thread, config, h, hs, -⟩
      cases hs
      cases hcounts
    cases x with
    | getCoordinator r path => exact fate_getCoordinator r path
    | retainCoordinator d => exact .of_retained hallowed rfl nofun
    | releaseCoordinator d => exact .of_wanes (wanes_releaseCoordinator _ d) fun _ _ => Chore.noConfusion
    | retainHandle i => exact .of_wanes (wanes_retainHandle _ i) fun _ _ => Chore.noConfusion
    | releaseHandle i => exact .of_wanes (wanes_releaseHandle _ i) fun _ _ => Chore.noConfusion
    | closeHandle i => exact .of_wanes (wanes_closeHandle _ i) fun _ _ => Chore.noConfusion
    | retainNotifier n => exact .of_wanes (.of_eq rfl (fun _ => rfl) fun _ => rfl) nofun
    | releaseNotifier n => exact .of_wanes (wanes_releaseNotifier _ n) fun _ _ => Chore.noConfusion
    | resetRegistry r =>
      have hreset := reset_resetRegistry hconcord.counted r
      by_cases hlisted : c ∈ m.world.listed r
      · exact .reset r rfl hlisted (hreset.config c)
      · refine .kept (hreset.config c) ?_ (fun halive _ => hreset.alive c halive) nofun
        rcases hreset.notifier c with hsame | ⟨-, hdead | hmem⟩
        · exact .inl hsame
        · exact .inr hdead
        · exact absurd hmem hlisted
    | getHandle d thread config => exact fate_getHandle hconcord d thread config
    | _ => exact absurd rfl hcounts
  | _ =>
    refine .of_same ((m.sameHoldings_perform ?_).coordinator c) ?_
    · exact fun _ => Section.noConfusion
    · rintro ⟨_, _, _, hs, -⟩
      cases hs

/-- **A notifier goes missing in a reset only.** If a live coordinator has none although its
canonical configuration is writable, its registry was reset, and it has handed out no handle since.
-/
theorem reset_of_deaf {sections : List Section} (hallowed : start.Follows AllowsHeld sections)
    {canonical : Config} (halive : (start.after sections).world.isAliveCoordinator c)
    (hcanonical : ((start.after sections).world.coordinator c).config = some canonical)
    (hwritable : canonical.readOnly = false)
    (hnone : ((start.after sections).world.coordinator c).notifier = none) :
    ∃ before r rest, sections = before ++ .chore (.resetRegistry r) :: rest ∧
      c ∈ (start.after before).world.listed r ∧
      (start.after (before ++ [.chore (.resetRegistry r)])).Follows
        (fun m s => ¬ m.HandsOut c s) rest := by
  induction sections using List.reverseRecOn generalizing canonical with
  | nil => cases hcanonical
  | append_singleton sections s ih =>
    obtain ⟨hearlier, hlast, -⟩ := hallowed.of_append
    rw [after_append] at halive hcanonical hnone
    change ((((start.after sections).perform s).world.coordinator c).config = _) at hcanonical
    change ((((start.after sections).perform s).world.coordinator c).notifier = _) at hnone
    cases fate_perform (c := c) (.after hearlier) hlast with
    | kept hconfig hnotifier hbefore hidle =>
      rw [hconfig] at hcanonical
      rcases hnotifier with hsame | hdead
      · obtain ⟨before, r, rest, rfl, hlisted, hrest⟩ := ih hearlier
          (hbefore halive (by rw [hcanonical]; rfl)) hcanonical hwritable (hsame ▸ hnone)
        refine ⟨before, r, rest ++ [s], ?_, hlisted, hrest.append ⟨?_, trivial⟩⟩
        · rw [List.append_assoc, List.cons_append]
        · rw [← after_append, List.append_assoc]
          exact hidle
      · change decide (0 < (((start.after sections).perform s).world.coordinator c).refs) = true
          at halive
        rw [hdead] at halive
        cases halive
    | reset r hs hlisted hconfig => exact ⟨sections, r, [], by rw [hs], hlisted, trivial⟩
    | handsOut other hother hnotifier hfixed =>
      rw [hother, Option.some_inj] at hcanonical
      rw [hnone, hcanonical] at hnotifier
      cases hnotifier.mpr hwritable

end Moment

/-! ## Agreement -/

/-- **All handles of a coordinator agree.** Whatever went on in a process, in which references were
given up only by those who had them: if a handle is open with coordinator `c`, there is a canonical
configuration, with which every such handle goes along, and any two of them agree. The next section
gives the coordinator another canonical configuration only if no handle is open. There is a notifier
only if the canonical configuration is writable; if it is and there is none, the registry of the
coordinator was reset, and no open has gone well since. -/
theorem handles_agree {sections : List Section} (c : CoordinatorId)
    (hallowed : Moment.start.Follows Moment.AllowsHeld sections) :
    let m := Moment.start.after sections
    let s := m.world.coordinator c
    (∀ h, (m.world.handle h).coordinator = some c → (m.world.handle h).isOpen ∧
      ∃ canonical, s.config = some canonical ∧ canonical.Suits (m.world.handle h).config) ∧
    (∀ h i, (m.world.handle h).coordinator = some c → (m.world.handle i).coordinator = some c →
      let x := (m.world.handle h).config
      let y := (m.world.handle i).config
      x.readOnly = y.readOnly ∧ x.inMemory = y.inMemory ∧ x.encryptionKey = y.encryptionKey ∧
        x.engine = y.engine ∧
        (x.schemaVersion = none ∨ y.schemaVersion = none ∨ x.schemaVersion = y.schemaVersion)) ∧
    (∀ next, m.AllowsHeld next → ((m.perform next).world.coordinator c).config ≠ s.config →
      ∀ h, (m.world.handle h).coordinator ≠ some c) ∧
    (s.notifier.isSome → ∃ canonical, s.config = some canonical ∧ canonical.readOnly = false) ∧
    ∀ canonical, m.world.isAliveCoordinator c → s.config = some canonical →
      canonical.readOnly = false → s.notifier = none →
      ∃ before r rest, sections = before ++ .chore (.resetRegistry r) :: rest ∧
        c ∈ (Moment.start.after before).world.listed r ∧
        (Moment.start.after (before ++ [.chore (.resetRegistry r)])).Follows
          (fun m s => ¬ m.HandsOut c s) rest := by
  intro m s
  have hconcord : Concord [] m.world := .after hallowed
  have hsuits : ∀ h, (m.world.handle h).coordinator = some c → ∃ canonical,
      s.config = some canonical ∧ canonical.Suits (m.world.handle h).config :=
    fun h => hconcord.agreed.suits h c
  refine ⟨fun h hopen => ⟨?_, hsuits h hopen⟩, fun h i hh hi => ?_, fun next hnext hchanged => ?_,
    hconcord.agreed.writable c, fun canonical halive hcanonical hwritable hnone => ?_⟩
  · rw [hconcord.counted.isOpen, hopen]
    rfl
  · obtain ⟨canonical, hcanonical, hx⟩ := hsuits h hh
    obtain ⟨other, hother, hy⟩ := hsuits i hi
    obtain rfl : canonical = other := Option.some_inj.mp (hcanonical.symm.trans hother)
    refine ⟨hx.readOnly.trans hy.readOnly.symm, hx.inMemory.trans hy.inMemory.symm,
      hx.encryptionKey.trans hy.encryptionKey.symm, hx.engine.trans hy.engine.symm, ?_⟩
    rcases hx.schemaVersion with hnone | hsame
    · exact .inl hnone
    · exact .inr (hy.schemaVersion.imp_right fun hsame' => hsame.trans hsame'.symm)
  · cases Moment.fate_perform (c := c) hconcord hnext with
    | kept hconfig => exact absurd hconfig hchanged
    | reset r hs hlisted hconfig => exact absurd hconfig hchanged
    | handsOut canonical hcanonical hnotifier hfixed =>
      exact hfixed.resolve_left fun hsame => hchanged (hcanonical.trans hsame.symm)
  · exact Moment.reset_of_deaf hallowed halive hcanonical hwritable hnone

/-- A read-only handle comes and goes, a writable one is opened and one that cannot go along with it
is refused; then the registry is reset while a reference to the coordinator is held, and an open
fails for want of cursors. -/
def resetWhileHeld : List Section :=
  [.chore .makeEngine, .chore .makeRegistry, .chore (.getCoordinator 0 "/a"),
    .chore (.getHandle 0 none { Config.forFile "/a" 0 with readOnly := true }),
    .chore (.releaseHandle 0), .chore (.getHandle 0 none (.forFile "/a" 0)),
    .chore (.getHandle 0 (some "t") { Config.forFile "/a" 0 with schemaVersion := some 3 }),
    .chore (.getHandle 0 (some "t") { Config.forFile "/a" 0 with engine := none }),
    .chore (.getHandle 0 (some "t") { Config.forFile "/a" 0 with cache := false }),
    .chore (.resetRegistry 0), .chore (.setFaults 0 true false),
    .chore (.getHandle 0 none (.forFile "/a" 0))]

/-- The two handles that are open before the reset agree, and it is the reset that took the
notifier. -/
theorem handles_agree_resetWhileHeld :
    let w := (Moment.start.after (resetWhileHeld.take 9)).world
    let s := (Moment.start.after resetWhileHeld).world.coordinator 0
    Moment.start.Follows Moment.AllowsHeld resetWhileHeld ∧
      ((w.handle 1).coordinator = some 0 ∧ (w.handle 2).coordinator = some 0 ∧
        (w.handle 1).config ≠ (w.handle 2).config ∧
        (w.handle 1).config.engine = (w.handle 2).config.engine) ∧
      (0 < s.refs ∧ s.config = some (.forFile "/a" 0) ∧ s.notifier = none) ∧
      ∃ before r rest, resetWhileHeld = before ++ .chore (.resetRegistry r) :: rest ∧
        0 ∈ (Moment.start.after before).world.listed r := by
  intro w s
  have hallowed : Moment.start.Follows Moment.AllowsHeld resetWhileHeld := by decide +kernel
  have hearlier : Moment.start.Follows Moment.AllowsHeld (resetWhileHeld.take 9) := by
    decide +kernel
  have hone : (w.handle 1).coordinator = some 0 := by decide +kernel
  have htwo : (w.handle 2).coordinator = some 0 := by decide +kernel
  obtain ⟨-, hpair, -⟩ := handles_agree 0 hearlier
  obtain ⟨-, -, -, hengine, -⟩ := hpair 1 2 hone htwo
  obtain ⟨-, -, -, -, hmissing⟩ := handles_agree 0 hallowed
  obtain ⟨before, r, rest, hsplit, hlisted, -⟩ :=
    hmissing (.forFile "/a" 0) (by decide +kernel) (by decide +kernel) rfl (by decide +kernel)
  exact ⟨hallowed, ⟨hone, htwo, by decide +kernel, hengine⟩, by decide +kernel,
    before, r, rest, hsplit, hlisted⟩

end SnapshotCoordination
