import Mathlib.Order.Basic
import SnapshotCoordination.Proofs.Coordination.Footprint
import SnapshotCoordination.Proofs.Coordination.Replays

/-!
# Captured failures

A failure that was captured in the background stays captured as long as a query is left to hear of
it, and a failure of consistency for good. Meanwhile a change cycle asks nothing of any query: it
only lets the dead ones go and has the waiting ones join main rotation, where they wait for the
failure to be delivered. A query that got there in this way was never taken over by the query
cursor, so it must not be run, and it is not: while it lives the failure stays, and once it is dead
no cycle runs it.

* **`asyncError_operate`** — what one operation makes of a captured failure;
* **`operate_cycle_of_failed`** — what a cycle does meanwhile;
* **`Stranded`** — the invariant of a query that joined main rotation without being imported;
* **`captured_failure_lasts`** — the three together, for every row of operations.
-/

namespace SnapshotCoordination

/-! ## Sweeping and abandoning -/

namespace Coordinator

variable {s : Coordinator} {dead : QueryId → Bool}

/-- A sweep forgets a captured failure only if no query is left, and never one of consistency. -/
theorem asyncError_swept (dead : QueryId → Bool) {e : Failure} (h : s.asyncError = some e) :
    (s.swept dead).asyncError = some e ∨
      e.isConsistency = false ∧ (s.swept dead).queries = [] ∧ (s.swept dead).newQueries = [] := by
  dsimp only [swept]
  split
  · next hempty =>
    rw [Bool.and_eq_true, List.isEmpty_iff, List.isEmpty_iff] at hempty
    cases hkind : e.isConsistency with
    | true => left; simp [h, hkind]
    | false => exact .inr ⟨rfl, hempty⟩
  · exact .inl h

theorem count_queries_swept_le (s : Coordinator) (dead : QueryId → Bool) (q : QueryId) :
    (s.swept dead).queries.count q ≤ s.queries.count q := by
  refine (count_sweep_kept s.queries q).trans_le ?_
  split <;> simp

/-- The coordinator after all waiting queries have joined main rotation as they are. -/
def abandoned (s : Coordinator) : Coordinator :=
  { s with queries := s.queries ++ s.newQueries, newQueries := [] }

theorem abandoned_of_empty (hmain : s.queries = []) (hwaiting : s.newQueries = []) :
    s.abandoned = s := by
  cases s
  subst hmain hwaiting
  rfl

/-- Only a coordinator with which a file was opened has queries or captures a failure. -/
def Configured (s : Coordinator) : Prop := s.config = none → s.lists = [] ∧ s.asyncError = none

theorem Configured.config (h : s.Configured) (hfailed : s.asyncError.isSome) :
    ∃ config, s.config = some config := by
  rcases hconfig : s.config with _ | config
  · rw [(h hconfig).2] at hfailed
    cases hfailed
  · exact ⟨config, rfl⟩

theorem Configured.swept (h : s.Configured) : (s.swept dead).Configured := by
  intro hconfig
  obtain ⟨hlists, hnone⟩ := h hconfig
  have hleft : (s.swept dead).lists = [] := by
    refine List.eq_nil_iff_forall_not_mem.mpr fun q hq => ?_
    rw [mem_lists_swept, hlists] at hq
    cases hq.1
  refine ⟨hleft, ?_⟩
  dsimp only [Coordinator.swept]
  split <;> simp [hnone]

end Coordinator

/-! ## The pipeline while a failure is captured -/

namespace Step

variable {c : CoordinatorId} {config : Config} {w : World}

theorem run_pinVersion_of_failed (h : (w.coordinator c).asyncError.isSome) (version : Version) :
    (pinVersion c config version).run w = (w, .ok ()) := by
  unfold pinVersion
  rw [run_bind_ok (run_coordinator c w), if_pos h]
  rfl

/-- A registration then sweeps the coordinator and lets the query wait, and that is all. -/
theorem run_registerQuery_of_failed (hconfig : (w.coordinator c).config = some config)
    (hfailed : (w.sweptCoordinator c).asyncError.isSome) (q : QueryId) :
    ∃ w', (registerQuery c q).run w = (w', .ok ()) ∧ Within c w w' ∧
      w'.coordinator c =
        { w.sweptCoordinator c with newQueries := (w.sweptCoordinator c).newQueries ++ [q] } := by
  obtain ⟨w₁, hclean, hwithin, hself, -, -⟩ := run_cleanUp c w
  have hpin : ∀ version, (pinVersion c config version).run w₁ = (w₁, .ok ()) :=
    run_pinVersion_of_failed (by rw [hself]; exact hfailed)
  refine ⟨_, ?_, hwithin.trans (.onCoordinator w₁
    (f := fun s => { s with newQueries := s.newQueries ++ [q] }) rfl), ?_⟩
  · unfold registerQuery
    rw [run_bind_ok (run_coordinator c w), Coordinator.config?, hconfig,
      run_bind_ok (run_ofExcept (.ok config) w), run_bind_ok (run_world w), run_bind_ok hclean,
      run_bind_ok (hpin _)]
    rfl
  · rw [World.coordinator_onCoordinator_self, hself]

/-- A cycle then sweeps the coordinator and abandons the import, and that is all. -/
theorem run_beginCycle_of_failed (hconfig : (w.coordinator c).config = some config)
    (hfailed : (w.coordinator c).asyncError.isSome) :
    ∃ w', (beginCycle c).run w = (w', .ok none) ∧ Within c w w' ∧
      w'.coordinator c = (w.sweptCoordinator c).abandoned ∧
      w'.trace = w.trace ++ w.releases c ∧ ∀ f, w'.file f = w.file f := by
  obtain ⟨w₁, hclean, hwithin, hself, htrace, hengines⟩ := run_cleanUp c w
  have hfile : ∀ f, w₁.file f = w.file f := World.file_congr hengines
  rw [run_beginCycle_of_swept hconfig hclean hself]
  by_cases hidle : ((w.sweptCoordinator c).queries.isEmpty &&
    (w.sweptCoordinator c).newQueries.isEmpty) = true
  · rw [if_pos hidle]
    rw [Bool.and_eq_true, List.isEmpty_iff, List.isEmpty_iff] at hidle
    refine ⟨w₁, rfl, hwithin, ?_, htrace, hfile⟩
    rw [hself, Coordinator.abandoned_of_empty hidle.1 hidle.2]
  · rw [if_neg hidle]
    -- a query is left, so the sweep has not forgotten the failure
    obtain ⟨e, he⟩ := Option.isSome_iff_exists.mp hfailed
    have hkept : (w.sweptCoordinator c).asyncError = some e := by
      refine (Coordinator.asyncError_swept _ he).resolve_right fun ⟨_, hmain, hwaiting⟩ => hidle ?_
      unfold World.sweptCoordinator
      simp [hmain, hwaiting]
    rw [hkept, if_neg (by simp), run_resumeCycle_of_failed (by simp [hself, hkept])]
    refine ⟨_, rfl, hwithin.trans (.onCoordinator w₁ rfl), ?_, htrace, hfile⟩
    rw [World.coordinator_onCoordinator_self, hself]
    rfl

end Step

/-! ## One operation -/

/-- An operation that is no part of a cycle. -/
def Operation.isWhole : Operation → Bool
  | .alone s => !s.isPart
  | .cycle _ => true

namespace Moment

variable {m : Moment} {c : CoordinatorId}

theorem preserved_afterAll {I : Moment → Prop} (hstep : ∀ m s, I m → I (m.perform s))
    (hm : I m) (operations : List Operation) : I (m.afterAll operations) := by
  induction operations generalizing m with
  | nil => exact hm
  | cons o operations ih => exact ih (preserved_after hstep hm (m.sectionsOf o))

theorem coordinator_operate_cycle_of_ne {d : CoordinatorId} (hd : c ≠ d) :
    (m.operate (.cycle d)).world.coordinator c = m.world.coordinator c := by
  obtain ⟨w, outcome, hrun, houtcome⟩ := Step.run_beginCycle d m.world
  have hother := houtcome.within.others c hd
  by_cases hbegun : ∃ cycle, outcome = .ok (some cycle)
  · obtain ⟨cycle, rfl⟩ := hbegun
    rw [(after_begun hrun).1, if_neg hd, hother]
  · rw [world_operate_of_idle hrun fun cycle h => hbegun ⟨cycle, h⟩, hother]

theorem coordinator_register_of_ne {d : CoordinatorId} (hd : c ≠ d) (q : QueryId) :
    (m.perform (.register d q)).world.coordinator c = m.world.coordinator c := by
  cases hconfig : (m.world.coordinator d).config with
  | none =>
    rw [perform_register_of_none hconfig]
  | some config =>
    obtain ⟨w', s, hrun, hwithin, -, -⟩ := Step.run_registerQuery hconfig q
    rw [perform_register hrun]
    exact hwithin.others c hd

theorem operate_register_of_failed {e : Failure}
    (hconfigured : (m.world.coordinator c).Configured)
    (hfailed : (m.world.sweptCoordinator c).asyncError = some e) (q : QueryId) :
    let w' := (m.operate (.alone (.register c q))).world
    Within c m.world w' ∧ w'.coordinator c = { m.world.sweptCoordinator c with
      newQueries := (m.world.sweptCoordinator c).newQueries ++ [q] } := by
  obtain ⟨config, hconfig⟩ := hconfigured.swept.config (Option.isSome_iff_exists.mpr ⟨e, hfailed⟩)
  obtain ⟨w', hrun, hwithin, hself⟩ := Step.run_registerQuery_of_failed hconfig
    (Option.isSome_iff_exists.mpr ⟨e, hfailed⟩) q
  have hworld : (m.operate (.alone (.register c q))).world = w' := by
    show (m.perform (.register c q)).world = w'
    dsimp only [perform]
    rw [hrun]
  rw [hworld]
  exact ⟨hwithin, hself⟩

/-- **A cycle with a captured failure** replays nothing and tells the queries nothing but that the
dead ones are let go. -/
theorem operate_cycle_of_failed (hconfigured : (m.world.coordinator c).Configured)
    (hfailed : (m.world.coordinator c).asyncError.isSome) :
    let w' := (m.operate (.cycle c)).world
    Within c m.world w' ∧ w'.coordinator c = (m.world.sweptCoordinator c).abandoned ∧
      w'.trace = m.world.trace ++ m.world.releases c ∧ ∀ f, w'.file f = m.world.file f := by
  obtain ⟨config, hconfig⟩ := hconfigured.config hfailed
  obtain ⟨w', hrun, hwithin, hself, htrace, hfile⟩ := Step.run_beginCycle_of_failed hconfig hfailed
  rw [world_operate_of_idle hrun nofun]
  exact ⟨hwithin, hself, htrace, hfile⟩

/-- Without an open file there is nothing to keep up to date. -/
theorem configured_perform (m : Moment) (s : Section)
    (h : (m.world.coordinator c).Configured) : ((m.perform s).world.coordinator c).Configured := by
  -- a step of the pipeline leaves the configuration as it is
  have hpipeline : ∀ {d w' config}, (m.world.coordinator d).config = some config →
      Within d m.world w' → (w'.coordinator c).Configured := by
    intro d w' config hconfig hwithin
    by_cases hc : c = d
    · subst hc
      intro hnone
      rw [hwithin.config, hconfig] at hnone
      cases hnone
    · rw [hwithin.others c hc]
      exact h
  cases s with
  | chore x =>
    have hundisturbed := x.undisturbed_perform m.world
    intro hconfig
    have hnone : (m.world.coordinator c).config = none := by
      by_contra hsome
      have hconfig' := hundisturbed.configured c (Option.isSome_iff_ne_none.mpr hsome)
      change ((x.perform m.world).coordinator c).config = none at hconfig
      rw [hconfig] at hconfig'
      cases hconfig'
    obtain ⟨hlists, herror⟩ := h hnone
    refine ⟨?_, (congrArg Background.asyncError (hundisturbed.background c)).trans herror⟩
    rw [← hlists, Coordinator.lists, Coordinator.lists, ← hundisturbed.main c,
      ← hundisturbed.waiting c]
    rfl
  | kill q => exact h
  | setVersion q version => exact h
  | register d q =>
    cases hconfig : (m.world.coordinator d).config with
    | none =>
      rw [perform_register_of_none hconfig]
      exact h
    | some config =>
      obtain ⟨w', s, hrun, hwithin, -, -⟩ := Step.run_registerQuery hconfig q
      rw [perform_register hrun]
      exact hpipeline hconfig hwithin
  | beginCycle d =>
    cases hconfig : (m.world.coordinator d).config with
    | none =>
      dsimp only [perform]
      rw [Step.run_beginCycle_of_none hconfig]
      exact h
    | some config =>
      obtain ⟨w', outcome, hrun, houtcome⟩ := Step.run_beginCycle d m.world
      rw [world_beginCycle hrun]
      exact hpipeline hconfig houtcome.within
  | startRun changes q => exact h
  | concludeCycle d queries =>
    obtain ⟨w₁, w', hrun, hover, hwithin, hself, -⟩ := Step.run_concludeCycle d queries m.world
    dsimp only [perform]
    rw [hrun]
    by_cases hc : c = d
    · subst hc
      show (w'.coordinator c).Configured
      rw [hself]
      exact h.swept
    · show (w'.coordinator c).Configured
      rw [hwithin.others c hc, hover.coordinator]
      exact h

/-- Only a registration or a cycle of its own touches the background of a coordinator. -/
theorem background_operate {o : Operation} (ho : o.isWhole) :
    ((m.operate o).world.coordinator c).background = (m.world.coordinator c).background ∨
      (∃ q, o = .alone (.register c q)) ∨ o = .cycle c := by
  cases o with
  | alone s =>
    cases s with
    | chore x => exact .inl ((x.undisturbed_perform m.world).background c)
    | kill q => exact .inl rfl
    | setVersion q version => exact .inl rfl
    | register d q =>
      by_cases hd : c = d
      · exact .inr (.inl ⟨q, by rw [hd]⟩)
      · left
        show ((m.perform (.register d q)).world.coordinator c).background = _
        rw [coordinator_register_of_ne hd]
    | beginCycle d => cases ho
    | startRun changes q => cases ho
    | concludeCycle d queries => cases ho
  | cycle d =>
    by_cases hd : c = d
    · exact .inr (.inr (by rw [hd]))
    · left
      rw [coordinator_operate_cycle_of_ne hd]

/-- **A captured failure** outlives every operation but a registration or a cycle whose sweep finds
that no query is left, and a failure of consistency outlives even that. -/
theorem asyncError_operate {o : Operation} {e : Failure} (ho : o.isWhole)
    (hconfigured : (m.world.coordinator c).Configured)
    (h : (m.world.coordinator c).asyncError = some e) :
    ((m.operate o).world.coordinator c).asyncError = some e ∨
      e.isConsistency = false ∧ (o = .cycle c ∨ ∃ q, o = .alone (.register c q)) ∧
        (m.world.sweptCoordinator c).queries = [] ∧
        (m.world.sweptCoordinator c).newQueries = [] := by
  have hfailed : (m.world.coordinator c).asyncError.isSome := by simp [h]
  -- the sweep comes first, so it decides
  have hswept := Coordinator.asyncError_swept m.world.isDead h
  rcases background_operate (m := m) (c := c) ho with hsame | ⟨q, rfl⟩ | rfl
  · exact .inl ((congrArg Background.asyncError hsame).trans h)
  · rcases hswept with hkept | ⟨hkind, hleft⟩
    · obtain ⟨-, hself⟩ := operate_register_of_failed hconfigured hkept q
      exact .inl (by rw [hself]; exact hkept)
    · exact .inr ⟨hkind, .inr ⟨q, rfl⟩, hleft⟩
  · rcases hswept with hkept | ⟨hkind, hleft⟩
    · obtain ⟨-, hself, -, -⟩ := operate_cycle_of_failed hconfigured hfailed
      exact .inl (by rw [hself]; exact hkept)
    · exact .inr ⟨hkind, .inl rfl, hleft⟩

/-- The run lemma: a captured failure is there to the end, unless a sweep in between found that no
query was left. -/
theorem asyncError_afterAll {operations : List Operation} {e : Failure}
    (hwhole : ∀ o ∈ operations, o.isWhole) (hconfigured : (m.world.coordinator c).Configured)
    (h : (m.world.coordinator c).asyncError = some e) :
    ((m.afterAll operations).world.coordinator c).asyncError = some e ∨
      e.isConsistency = false ∧ ∃ before o after, operations = before ++ o :: after ∧
        (o = .cycle c ∨ ∃ q, o = .alone (.register c q)) ∧
        let w := (m.afterAll before).world
        (w.coordinator c).asyncError = some e ∧ (w.sweptCoordinator c).queries = [] ∧
          (w.sweptCoordinator c).newQueries = [] := by
  induction operations generalizing m with
  | nil => exact .inl h
  | cons o operations ih =>
    rcases asyncError_operate (hwhole o List.mem_cons_self) hconfigured h with
      hkept | ⟨hkind, ho, hleft⟩
    · have hnext := preserved_afterAll (I := fun m => (m.world.coordinator c).Configured)
        configured_perform hconfigured [o]
      rcases ih (fun p hp => hwhole p (List.mem_cons_of_mem o hp)) hnext hkept with
        hend | ⟨hkind, before, p, after, rfl, hp, hleft⟩
      · exact .inl hend
      · exact .inr ⟨hkind, o :: before, p, after, rfl, hp, hleft⟩
    · exact .inr ⟨hkind, [], o, operations, rfl, ho, h, hleft⟩

/-! ## Queries that were not imported -/

theorem alive_of_perform (m : Moment) (s : Section) {q : QueryId}
    (h : ((m.perform s).world.query q).alive) : (m.world.query q).alive := by
  cases s with
  | chore x =>
    by_cases hmade : q < m.world.queries.size
    · rwa [← (x.undisturbed_perform m.world).alive hmade]
    · -- a query that was not made yet is taken to be alive
      unfold World.query
      rw [Table.get_of_size_le _ (Nat.le_of_not_lt hmade)]
      rfl
  | kill p =>
    change ((m.world.onQuery p _).query q).alive at h
    rw [World.query_onQuery] at h
    split at h
    · cases h
    · exact h
  | setVersion p version =>
    change ((m.world.onQuery p _).query q).alive at h
    rw [World.query_onQuery] at h
    split at h
    · next hp => rw [hp]; exact h
    · exact h
  | register d p =>
    cases hconfig : (m.world.coordinator d).config with
    | none =>
      rwa [perform_register_of_none hconfig] at h
    | some config =>
      obtain ⟨w', s, hrun, hwithin, -, -⟩ := Step.run_registerQuery hconfig p
      rw [perform_register hrun] at h
      rwa [← hwithin.query]
  | beginCycle d =>
    obtain ⟨w', outcome, hrun, houtcome⟩ := Step.run_beginCycle d m.world
    rw [world_beginCycle hrun] at h
    rwa [← houtcome.within.query]
  | startRun changes p => exact h
  | concludeCycle d queries =>
    obtain ⟨w₁, w', hrun, hover, hwithin, -, -⟩ := Step.run_concludeCycle d queries m.world
    dsimp only [perform] at h
    rw [hrun] at h
    rw [← hover.alive, ← hwithin.query]
    exact h

theorem alive_of_operate {o : Operation} {q : QueryId}
    (h : ((m.operate o).world.query q).alive) : (m.world.query q).alive := by
  by_contra hdead
  exact preserved_afterAll (I := fun m => ¬ (m.world.query q).alive) (fun m s hdead hlive =>
    hdead (m.alive_of_perform s hlive)) hdead [o] h

end Moment

/-- As long as it lives, the query is in main rotation of coordinator `c`, where a failure is
captured. -/
def Stranded (c : CoordinatorId) (q : QueryId) (w : World) : Prop :=
  (w.query q).alive → q ∈ (w.coordinator c).queries ∧ (w.coordinator c).asyncError.isSome

namespace Stranded

variable {m : Moment} {c : CoordinatorId} {q : QueryId}

theorem swept {w : World} (h : Stranded c q w) (hlive : (w.query q).alive) :
    q ∈ (w.sweptCoordinator c).queries ∧
      (w.sweptCoordinator c).asyncError = (w.coordinator c).asyncError := by
  have hmem : q ∈ (w.sweptCoordinator c).queries :=
    Coordinator.mem_queries_swept.mpr ⟨(h hlive).1, World.isDead_of_alive hlive⟩
  exact ⟨hmem, Coordinator.asyncError_swept_of_mem (.inl hmem)⟩

/-- No operation gets a stranded query off, for nothing clears the failure while it lives. -/
theorem operate {o : Operation} (ho : o.isWhole)
    (hconfigured : (m.world.coordinator c).Configured) (h : Stranded c q m.world) :
    Stranded c q (m.operate o).world := by
  intro hlive'
  have hlive : (m.world.query q).alive := Moment.alive_of_operate hlive'
  obtain ⟨hmem, hfailed⟩ := h hlive
  obtain ⟨hswept, herror⟩ := h.swept hlive
  rcases Moment.background_operate (m := m) (c := c) ho with hsame | ⟨p, rfl⟩ | rfl
  · have hmain := congrArg Background.queries hsame
    have herror := congrArg Background.asyncError hsame
    change ((m.operate o).world.coordinator c).queries = _ at hmain
    change ((m.operate o).world.coordinator c).asyncError = _ at herror
    rw [hmain, herror]
    exact ⟨hmem, hfailed⟩
  · obtain ⟨e, he⟩ := Option.isSome_iff_exists.mp hfailed
    obtain ⟨-, hself⟩ := Moment.operate_register_of_failed hconfigured (herror.trans he) p
    rw [hself]
    exact ⟨hswept, by rw [herror]; exact hfailed⟩
  · obtain ⟨-, hself, -, -⟩ := Moment.operate_cycle_of_failed hconfigured hfailed
    rw [hself]
    exact ⟨List.mem_append_left _ hswept, by rw [← herror] at hfailed; exact hfailed⟩

theorem afterAll {operations : List Operation} (hwhole : ∀ o ∈ operations, o.isWhole)
    (hconfigured : (m.world.coordinator c).Configured) (h : Stranded c q m.world) :
    Stranded c q (m.afterAll operations).world := by
  induction operations generalizing m with
  | nil => exact h
  | cons o operations ih =>
    have hnext := Moment.preserved_afterAll (I := fun m => (m.world.coordinator c).Configured)
      Moment.configured_perform hconfigured [o]
    exact ih (fun p hp => hwhole p (List.mem_cons_of_mem o hp)) hnext
      (h.operate (hwhole o List.mem_cons_self) hconfigured)

theorem timesRun_operate (hconfigured : (m.world.coordinator c).Configured)
    (h : Stranded c q m.world) :
    (m.operate (.cycle c)).world.timesRun q = m.world.timesRun q := by
  obtain ⟨w₂, outcome, hrun, houtcome⟩ := Step.run_beginCycle c m.world
  have hruns := houtcome.within.runs
  by_cases hbegun : ∃ cycle, outcome = .ok (some cycle)
  · obtain ⟨cycle, rfl⟩ := hbegun
    have hran := (after_begun hrun).2.2.1
    rw [hruns] at hran
    rw [World.timesRun_of_runs hran, List.count_eq_zero.mpr, Nat.add_zero]
    -- only live queries are run, and if this one lived nothing would be
    intro hmem
    obtain ⟨-, hperm, -, hqueries⟩ := lists_of_begun houtcome
    rw [hqueries] at hmem
    have hlisted := hperm.mem_iff.mp (Coordinator.mem_lists.mpr (.inl hmem))
    obtain ⟨-, hfailed⟩ := h (World.mem_lists_sweptCoordinator.mp hlisted).2
    obtain ⟨config, hconfig⟩ := hconfigured.config hfailed
    obtain ⟨w', hrun', -⟩ := Step.run_beginCycle_of_failed hconfig hfailed
    rw [hrun] at hrun'
    cases hrun'
  · rw [Moment.world_operate_of_idle hrun fun cycle heq => hbegun ⟨cycle, heq⟩]
    unfold World.timesRun
    rw [hruns]

end Stranded

/-! ## Queries that were imported -/

/-- Nothing that was told is taken back. -/
def World.Remembered (w w' : World) : Prop := w.trace <+: w'.trace

instance : IsPreorder World World.Remembered where
  refl w := List.prefix_refl w.trace
  trans _ _ _ h h' := List.IsPrefix.trans h h'

theorem covers_remembered (c : CoordinatorId) : Covers c World.Remembered where
  looked {w w'} h := by
    have htrace : w'.trace = w.trace := by rw [h.eq]
    show w.trace <+: w'.trace
    exact htrace ▸ List.prefix_refl w.trace
  file _ _ _ _ _ := List.prefix_refl _
  coordinator _ _ _ := List.prefix_refl _
  query _ _ _ := List.prefix_refl _
  told _ _ _ := List.prefix_append _ _

namespace Step

variable {c : CoordinatorId} {config : Config} {recorder : ChangeRecorder}

theorem infix_moves {ready : List QueryId} {q : QueryId} (h : q ∈ ready)
    (target : Option Version) : [.detach q, .attach q target] <:+: moves ready target := by
  rw [moves, List.flatMap_def]
  exact List.infix_of_mem_flatten (List.mem_map.mpr ⟨q, h, rfl⟩)

/-- The last thing that queries are told in an import that succeeds is where the query cursor is
that they are moved over to. -/
theorem trace_of_importAndReplay {w w' : World} {changes : Changes} {latest : Version}
    (h : (importAndReplay c config recorder).run w = (w', .ok changes))
    (hlatest : ∀ f, config.file? = some f → latest = (w.file f).latest) :
    ∃ told target, w'.trace = w.trace ++ told ++ moves (w.ready c latest) target := by
  have hopen := isSome_queryCursor_of_import h
  by_cases hwaiting : (w.coordinator c).newQueries = []
  · have hgrown := (covers_remembered c).importAndReplay config recorder w
    rw [h] at hgrown
    obtain ⟨told, htold⟩ := hgrown
    exact ⟨told, none, by rw [w.ready_of_nil c _ hwaiting, htold]; simp [moves]⟩
  · rw [run_import_of_waiting hopen hwaiting] at h
    cases hf : config.file? with
    | none =>
      rw [run_bind_error (run_latestVersion_of_none hf w)] at h
      cases h
    | some f =>
      obtain ⟨w₁, hlooked, hfound⟩ := run_latestVersion hf w
      rw [run_bind_ok hfound, run_bind_ok (run_onCoordinator c _ w₁), ← hlatest f hf] at h
      obtain ⟨w₃, hlift, -, rfl⟩ := finishImport_eq_ok h
      let w₂ := w₁.onCoordinator c fun s => { s with newQueries := w.deferred c latest }
      -- everything before the queries are moved over only adds to what was told
      obtain ⟨w₄, _, hlifted, h⟩ := run_bind_eq_ok hlift
      obtain ⟨w₅, target, hstepped, h⟩ := run_bind_eq_ok h
      obtain ⟨w₆, found, hreplayed, h⟩ := run_bind_eq_ok h
      rw [run_bind_ok (run_moveOver _ w₆)] at h
      cases h
      have h₁ := (covers_remembered c).lift w (w.ready c latest) w₂
      have h₂ := (covers_remembered c).stepAdvancer (some latest) w₄
      have h₃ := (covers_remembered c).replayQueryCursor target recorder w₅
      rw [hlifted] at h₁
      rw [hstepped] at h₂
      rw [hreplayed] at h₃
      obtain ⟨told, htold⟩ := (h₁.trans h₂).trans h₃
      refine ⟨told, (w₆.coordinator c).queryCursor.bind (·.current), ?_⟩
      have htrace : w₂.trace = w.trace := by
        show w₁.trace = w.trace
        rw [hlooked.eq]
      show w₆.trace ++ _ = _
      rw [← htold, htrace]

end Step

namespace Moment

variable {m : Moment} {c : CoordinatorId}

theorem remembered_of_begun {w : World} {cycle : Step.Cycle}
    (h : (Step.beginCycle c).run m.world = (w, .ok (some cycle))) :
    w.Remembered (m.operate (.cycle c)).world := by
  rw [operate_cycle_of_begun h]
  let m₁ : Moment := { m with world := w, begun := m.begun ++ [(c, cycle)] }
  obtain ⟨-, hruns, -⟩ := after_runSections cycle.changes cycle.queries m₁
  have hran := Step.Stays.forM (fun q => (covers_remembered c).runQuery cycle.changes q)
    cycle.queries w
  rw [hruns] at hran
  exact hran.trans ((covers_remembered c).concludeCycle cycle.queries _)

theorem runs_operate_of_failed
    (h : ((m.operate (.cycle c)).world.coordinator c).asyncError.isSome) :
    (m.operate (.cycle c)).world.runs = m.world.runs := by
  obtain ⟨w₂, outcome, hrun, houtcome⟩ := Step.run_beginCycle c m.world
  by_cases hbegun : ∃ cycle, outcome = .ok (some cycle)
  · obtain ⟨cycle, rfl⟩ := hbegun
    rw [(after_begun hrun).1, if_pos rfl] at h
    cases houtcome with
    | begun config w₁ changes hopened himport =>
      have hnone := (Step.importAndReplay_eq_ok himport).asyncError.trans hopened.asyncError
      dsimp only [World.sweptCoordinator, Coordinator.swept] at h
      rw [hnone] at h
      split at h <;> cases h
  · rw [world_operate_of_idle hrun fun cycle heq => hbegun ⟨cycle, heq⟩]
    exact houtcome.within.runs

/-- A query that joins main rotation was moved over to the query cursor in that cycle, unless the
cycle ends with a captured failure. -/
theorem moved_or_stranded {q : QueryId}
    (hgrown : (m.world.coordinator c).queries.count q <
      ((m.operate (.cycle c)).world.coordinator c).queries.count q) :
    let w' := (m.operate (.cycle c)).world
    (∃ v, [.detach q, .attach q v] <:+: w'.trace.drop m.world.trace.length) ∨
      Stranded c q w' ∧ w'.timesRun q = m.world.timesRun q := by
  obtain ⟨w₂, outcome, hrun, houtcome⟩ := Step.run_beginCycle c m.world
  have hruns := houtcome.within.runs
  have hmem := List.count_pos_iff.mp (Nat.lt_of_le_of_lt (Nat.zero_le _) hgrown)
  by_cases hbegun : ∃ cycle, outcome = .ok (some cycle)
  · left
    obtain ⟨cycle, rfl⟩ := hbegun
    obtain ⟨rest, hrest⟩ := remembered_of_begun hrun
    rw [(after_begun hrun).1, if_pos rfl] at hgrown
    cases houtcome with
    | begun config w₁ changes hopened himport =>
      obtain ⟨latest, hlatest, hmain, -⟩ := (Step.importAndReplay_eq_ok himport).lists
      obtain ⟨told, target, htrace⟩ := Step.trace_of_importAndReplay himport hlatest
      -- sweeps only take out, so it was the import that added the query
      have hready : q ∈ w₁.ready c latest := by
        have hafter := Coordinator.count_queries_swept_le (w₂.coordinator c) w₂.isDead q
        have hbefore :=
          Coordinator.count_queries_swept_le (m.world.coordinator c) m.world.isDead q
        rw [hmain, List.count_append, hopened.main] at hafter
        change (w₂.sweptCoordinator c).queries.count q ≤ _ at hafter
        change (m.world.sweptCoordinator c).queries.count q ≤ _ at hbefore
        exact List.count_pos_iff.mp (by omega)
      obtain ⟨pre, post, hmoved⟩ := Step.infix_moves hready target
      refine ⟨target, m.world.releases c ++ told ++ pre, post ++ rest, ?_⟩
      rw [← hrest, htrace, hopened.trace, ← hmoved]
      simp
  · right
    have hworld := world_operate_of_idle hrun fun cycle heq => hbegun ⟨cycle, heq⟩
    rw [hworld] at hgrown hmem ⊢
    have hran : w₂.timesRun q = m.world.timesRun q := by
      unfold World.timesRun
      rw [hruns]
    refine ⟨fun _ => ⟨hmem, ?_⟩, hran⟩
    cases houtcome with
    | unconfigured hconfig hsame =>
      rw [hsame] at hgrown
      exact absurd hgrown (Nat.lt_irrefl _)
    | idle hwithin hself hmain hwaiting =>
      rw [hself, hmain] at hmem
      cases hmem
    | abandoned hwithin hleft hmain hwaiting hquery hadvancer hfailed => exact hfailed
    | refused config w₁ w₃ failure captured hopened himport hcaptured hbecomes =>
      rw [hbecomes.self]
      rfl
    | begun config w₁ changes hopened himport => exact absurd ⟨_, rfl⟩ hbegun

end Moment

/-! ## Every row of operations -/

/-- What a cycle with a captured failure makes of the two lists, if a query is left to hear of it. -/
theorem lists_of_failed {w : World} {c : CoordinatorId} :
    (w.sweptCoordinator c).abandoned.queries.Perm
      (((w.coordinator c).queries ++ (w.coordinator c).newQueries).filter
        fun q => (w.query q).alive) := by
  have hkept : ∀ queries, (sweep w.isDead queries).1.Perm
      (queries.filter fun q => (w.query q).alive) := by
    intro queries
    refine (sweep_kept_perm w.isDead queries).trans (List.Perm.of_eq ?_)
    congr 1
    funext q
    simp [World.isDead]
  rw [List.filter_append]
  exact (hkept _).append (hkept _)

/-- **The life of a captured failure.** Let operations be made one at a time. A failure that
coordinator `c` has captured is captured from then on, until a registration or a cycle finds that no
query is left; a failure of consistency stays even then. Meanwhile a cycle changes no file and tells
queries nothing but that the dead ones are let go; all live queries are in main rotation after it.
Nor has a cycle run anything that ends with a captured failure. A query that got to main rotation in
a cycle in which it was not moved over to the query cursor was not run in it, and the next cycle
does not run it either, however much later that is. -/
theorem captured_failure_lasts {c : CoordinatorId} {operations : List Operation}
    (hwhole : ∀ o ∈ operations, o.isWhole) :
    let m := Moment.start.afterAll operations
    let w := m.world
    let w' := (m.operate (.cycle c)).world
    (∀ earlier later e, operations = earlier ++ later →
      ((Moment.start.afterAll earlier).world.coordinator c).asyncError = some e →
      (w.coordinator c).asyncError = some e ∨
        e.isConsistency = false ∧ ∃ before o after, later = before ++ o :: after ∧
          (o = .cycle c ∨ ∃ q, o = .alone (.register c q)) ∧
          let w₁ := (Moment.start.afterAll (earlier ++ before)).world
          (w₁.coordinator c).asyncError = some e ∧ (w₁.sweptCoordinator c).queries = [] ∧
            (w₁.sweptCoordinator c).newQueries = []) ∧
    ((w.coordinator c).asyncError.isSome →
      (∀ f, w'.file f = w.file f) ∧ w'.trace = w.trace ++ w.releases c ∧
        (w'.coordinator c).newQueries = [] ∧
        (w'.coordinator c).queries.Perm
          (((w.coordinator c).queries ++ (w.coordinator c).newQueries).filter
            fun q => (w.query q).alive)) ∧
    ((w'.coordinator c).asyncError.isSome → w'.runs = w.runs) ∧
    ∀ earlier later q, operations = earlier ++ .cycle c :: later →
      let w₁ := (Moment.start.afterAll earlier).world
      let w₂ := (Moment.start.afterAll (earlier ++ [.cycle c])).world
      (w₁.coordinator c).queries.count q < (w₂.coordinator c).queries.count q →
      (∃ v, [.detach q, .attach q v] <:+: w₂.trace.drop w₁.trace.length) ∨
        w₂.timesRun q = w₁.timesRun q ∧ w'.timesRun q = w.timesRun q := by
  intro m w w'
  have hconfigured : ∀ operations,
      ((Moment.start.afterAll operations).world.coordinator c).Configured :=
    Moment.preserved_afterAll (I := fun m => (m.world.coordinator c).Configured)
      Moment.configured_perform fun _ => ⟨rfl, rfl⟩
  refine ⟨?_, ?_, Moment.runs_operate_of_failed, ?_⟩
  · rintro earlier later e rfl hcaptured
    have hlater := Moment.asyncError_afterAll (c := c)
      (fun o ho => hwhole o (List.mem_append_right _ ho)) (hconfigured earlier) hcaptured
    simp only [← Moment.afterAll_append] at hlater
    exact hlater
  · intro hfailed
    obtain ⟨-, hself, htrace, hfile⟩ :=
      Moment.operate_cycle_of_failed (hconfigured operations) hfailed
    refine ⟨hfile, htrace, ?_, ?_⟩
    · rw [hself]
      rfl
    · rw [hself]
      exact lists_of_failed
  · rintro earlier later q rfl w₁ w₂ hgrown
    have hw₂ : w₂ = ((Moment.start.afterAll earlier).operate (.cycle c)).world := by
      show (Moment.start.afterAll (earlier ++ [.cycle c])).world = _
      rw [Moment.afterAll_append]
      rfl
    rw [hw₂] at hgrown ⊢
    refine (Moment.moved_or_stranded hgrown).imp_right fun ⟨hstranded, hran⟩ => ⟨hran, ?_⟩
    -- the query is stranded still when the next cycle begins
    have hrest : ∀ o ∈ later, o.isWhole := fun o ho =>
      hwhole o (List.mem_append_right _ (List.mem_cons_of_mem _ ho))
    have hlater := hstranded.afterAll hrest (hw₂ ▸ hconfigured (earlier ++ [.cycle c]))
    have hm : ((Moment.start.afterAll earlier).operate (.cycle c)).afterAll later = m := by
      show _ = Moment.start.afterAll (earlier ++ .cycle c :: later)
      rw [Moment.afterAll_append]
      rfl
    rw [hm] at hlater
    exact hlater.timesRun_operate (hconfigured (earlier ++ .cycle c :: later))

/-- A query is registered while no cursor can be opened; by the time one could be, the query is in
main rotation. -/
def failingFile : List Operation :=
  [.alone (.chore .makeEngine), .alone (.chore .makeRegistry),
    .alone (.chore (.getCoordinator 0 "/a")),
    .alone (.chore (.getHandle 0 none (.forFile "/a" 0))),
    .alone (.chore (.makeQuery none [] ⟨1, 0⟩)), .alone (.chore (.setFaults 0 true false)),
    .alone (.register 0 0), .cycle 0, .alone (.chore (.setFaults 0 false false)),
    .alone (.chore (.commit (.forFile "/a" 0) [.selectTable 0]))]

/-- The failure is captured still, the query is not run, and once it is dead the failure goes. -/
theorem captured_failure_lasts_failingFile :
    let w := (Moment.start.afterAll failingFile).world
    let w' := (Moment.start.afterAll (failingFile ++ [.cycle 0])).world
    let w'' := (Moment.start.afterAll (failingFile ++ [.alone (.kill 0), .cycle 0])).world
    (∀ o ∈ failingFile ++ [.alone (.kill 0), .cycle 0], o.isWhole) ∧
      (w.coordinator 0).asyncError.isSome ∧ (w.coordinator 0).queries = [0] ∧
      w'.trace = w.trace ∧ w'.timesRun 0 = 0 ∧ (w''.coordinator 0).asyncError = none := by
  intro w w' w''
  have hwhole : ∀ o ∈ failingFile ++ [.alone (.kill 0), .cycle 0], o.isWhole := by decide
  have hfailed : (w.coordinator 0).asyncError.isSome := by decide +kernel
  have hearlier : ∀ o ∈ failingFile, o.isWhole := fun o ho => hwhole o (List.mem_append_left _ ho)
  obtain ⟨-, hidle, -, hunrun⟩ := captured_failure_lasts (c := 0) hearlier
  have hw' : ((Moment.start.afterAll failingFile).operate (.cycle 0)).world = w' := by
    show _ = (Moment.start.afterAll (failingFile ++ [.cycle 0])).world
    rw [Moment.afterAll_append]
    rfl
  obtain ⟨-, htrace, -, -⟩ := hidle hfailed
  have hnot := hunrun (failingFile.take 7) (failingFile.drop 8) 0 rfl (by decide +kernel)
  rw [hw'] at htrace hnot
  refine ⟨hwhole, hfailed, by decide +kernel, htrace.trans (by decide +kernel), ?_,
    by decide +kernel⟩
  refine (hnot.resolve_left ?_).2.trans (by decide +kernel)
  -- nothing was told in the first cycle
  rintro ⟨v, hinfix⟩
  have hnil : (Moment.start.afterAll (failingFile.take 7 ++ [.cycle 0])).world.trace = [] := by
    decide +kernel
  rw [hnil, List.drop_nil, List.infix_nil] at hinfix
  cases hinfix

end SnapshotCoordination
