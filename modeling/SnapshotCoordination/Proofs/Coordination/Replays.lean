import SnapshotCoordination.Proofs.Coordination.Operations
import SnapshotCoordination.Proofs.Storage.Histories

/-!
# One replay a cycle

Where operations are made one at a time, a cycle that ends without a captured failure has replayed
the logs of its file once, however many queries it imported and at however many versions, and all
its queries were run over what that one replay recorded. The replay starts where the query cursor
was, and that is where the last replay ended, as long as a query stays that was run over it.

* **`Cycled`** — what a whole cycle does that has something to run;
* **`Settled`** — the query cursor is where a query in main rotation was last run;
* **`one_replay_per_cycle`** — both together, for every cycle of every row of operations.
-/

namespace SnapshotCoordination

namespace File

/-- The logs that lead from a version to the latest one are those of the commits after it. -/
theorem logsBetween_latest (f : File) (start : Version) :
    f.logsBetween start f.latest = f.commits.drop (start.number - 1) := by
  rw [logsBetween_eq (Version.le_refl _), latest, Nat.add_sub_cancel, List.take_length]

end File

/-! ## What the start of a cycle does -/

/-- A cycle of coordinator `c` begins in `w` that has something to run. It reaches its import in `w₁`,
where the query cursor reads version `start` of file `f`, and replays the logs from there; its runs are
due in `w'`. -/
structure Replayed (c : CoordinatorId) (f : FileId) (start : Version) (cycle : Step.Cycle)
    (w w₁ w' : World) : Prop where
  within : Within c w w'
  cursor : (w₁.coordinator c).queryCursor = some ⟨f, some start⟩
  le : start ≤ (w.file f).latest
  read : ∃ recorder,
    LogReader.replay (ChangeRecorder.observing (w.observed (w.sweptCoordinator c).lists))
      ((w.file f).logsBetween start (w.file f).latest).flatten = (recorder, none) ∧
    cycle.changes = recorder.changes
  file : ∀ g, w'.file g = if g = f then (w.file f).countReplay else w.file g
  queries : cycle.queries = (w.sweptCoordinator c).queries ++ w₁.ready c (w.file f).latest
  main : (w'.coordinator c).queries = cycle.queries
  queryCursor : (w'.coordinator c).queryCursor = some ⟨f, some (w.file f).latest⟩

theorem replayed_of_begun {c : CoordinatorId} {w w' : World} {cycle : Step.Cycle}
    (haimed : Aimed (w.coordinator c))
    (hrun : (Step.beginCycle c).run w = (w', .ok (some cycle))) :
    ∃ config w₁ f start, Opened c config w w₁ ∧ config.file? = some f ∧
      Replayed c f start cycle w w₁ w' := by
  obtain ⟨w', outcome, hbegin, houtcome⟩ := Step.run_beginCycle c w
  rw [hrun] at hbegin
  obtain ⟨rfl, rfl⟩ := Prod.mk.inj hbegin
  have hwithin := houtcome.within
  cases houtcome with
  | begun config w₁ changes hopened himport =>
    obtain ⟨⟨f, current⟩, u, hcursor, rfl⟩ := hopened.reads
    have hf : config.file? = some f :=
      hopened.file?.symm.trans ((hopened.aimed haimed).query f (by rw [hcursor]; rfl))
    obtain ⟨start, hu, hle, hread, hchanges, hfiles, hquery⟩ :=
      Step.replayed_of_importAndReplay himport hf hcursor
    obtain rfl : u = start := Option.some_inj.mp hu
    obtain ⟨latest, hlatest, hmain, -⟩ := (Step.importAndReplay_eq_ok himport).lists
    obtain rfl := hlatest f hf
    simp only [hopened.file] at hle hread hchanges hfiles hquery
    rw [hopened.main, hopened.file] at hmain
    exact ⟨config, w₁, f, u, hopened, hf, hwithin, hcursor, hle, ⟨_, Prod.ext rfl hread, hchanges⟩,
      hfiles, hmain, rfl, hquery⟩

/-- Whatever is run is alive and was listed. -/
theorem Replayed.live {c : CoordinatorId} {f : FileId} {start : Version} {cycle : Step.Cycle}
    {config : Config} {w w₁ w' : World} (h : Replayed c f start cycle w w₁ w')
    (hopened : Opened c config w w₁) {q : QueryId} (hq : q ∈ cycle.queries) :
    q ∈ (w.coordinator c).lists ∧ (w.query q).alive := by
  rw [h.queries, List.mem_append, World.mem_ready, hopened.waiting] at hq
  exact World.mem_lists_sweptCoordinator.mp (Coordinator.mem_lists.mpr (hq.imp_right And.left))

/-! ## What a whole cycle does -/

/-- What a fresh recorder that observes the lists of all live queries of a coordinator makes of the
commits after a version of a file. -/
def World.reading (w : World) (c : CoordinatorId) (f : FileId) (start : Version) :
    ChangeRecorder × Option Failure :=
  LogReader.replay (ChangeRecorder.observing (w.observed (w.sweptCoordinator c).lists))
    ((w.file f).commits.drop (start.number - 1)).flatten

/-- A cycle of coordinator `c` that has something to run takes `w` to `w'`. It reaches its import in
`w₁`, where the query cursor reads version `start` of file `f`. -/
structure Cycled (c : CoordinatorId) (f : FileId) (start : Version) (cycle : Step.Cycle)
    (w w₁ w' : World) : Prop where
  cursor : (w₁.coordinator c).queryCursor = some ⟨f, some start⟩
  queries : cycle.queries = (w.sweptCoordinator c).queries ++ w₁.ready c (w.file f).latest
  accepted : (w.reading c f start).2 = none
  changes : cycle.changes = (w.reading c f start).1.changes
  file : ∀ g, w'.file g = if g = f then (w.file f).countReplay else w.file g
  runs : w'.runs = w.runs ++ cycle.queries.map (·, cycle.changes)
  alive : ∀ q, (w'.query q).alive = (w.query q).alive
  main : ∀ q ∈ cycle.queries, q ∈ (w'.coordinator c).queries
  queryCursor : ∀ q ∈ cycle.queries,
    (w'.coordinator c).queryCursor = some ⟨f, some (w.file f).latest⟩

/-- What the runs and the end of a cycle make of the world that its start has left. -/
theorem after_begun {m : Moment} {c : CoordinatorId} {w₂ : World} {cycle : Step.Cycle}
    (hrun : (Step.beginCycle c).run m.world = (w₂, .ok (some cycle))) :
    let w' := (m.operate (.cycle c)).world
    (∀ d, w'.coordinator d = if d = c then w₂.sweptCoordinator c else w₂.coordinator d) ∧
      (∀ f, w'.file f = w₂.file f) ∧ w'.runs = w₂.runs ++ cycle.queries.map (·, cycle.changes) ∧
      w₂.queries.size ≤ w'.queries.size ∧ ∀ q, (w'.query q).alive = (w₂.query q).alive := by
  rw [Moment.operate_cycle_of_begun hrun]
  let m₁ : Moment := { m with world := w₂, begun := m.begun ++ [(c, cycle)] }
  let m₂ := m₁.after (runSections cycle.changes cycle.queries)
  obtain ⟨-, -, hran⟩ := Moment.after_runSections cycle.changes cycle.queries m₁
  obtain ⟨w₃, w', hconclude, hover, hwithin, hself, hengines⟩ :=
    Step.run_concludeCycle c cycle.queries m₂.world
  have hperform : (m₂.perform (.concludeCycle c cycle.queries)).world = w' := by
    show ((Step.concludeCycle c cycle.queries).run m₂.world).1 = w'
    rw [hconclude]
  intro w
  have hw : w = w' := hperform
  rw [hw]
  refine ⟨fun d => ?_, fun f => ?_, ?_, ?_, fun q => ?_⟩
  · split
    · next hd =>
      rw [hd, hself]
      exact hran.sweptCoordinator c
    · next hd => rw [hwithin.others d hd, hover.coordinator, hran.coordinator]
  · rw [World.file_congr hengines]
    exact hran.file f
  · rw [hwithin.runs, hover.runs]
    exact hran.runs
  · rw [hwithin.queries]
    exact Nat.le_trans hran.made hover.made
  · rw [hwithin.query, hover.alive]
    exact hran.alive q

/-- A cycle that has something to run has replayed the logs once. -/
theorem cycled_of_begun {m : Moment} {c : CoordinatorId} {w₂ : World} {cycle : Step.Cycle}
    (haimed : Aimed (m.world.coordinator c))
    (hrun : (Step.beginCycle c).run m.world = (w₂, .ok (some cycle))) :
    ∃ config w₁ f start, Opened c config m.world w₁ ∧ config.file? = some f ∧
      Cycled c f start cycle m.world w₁ (m.operate (.cycle c)).world := by
  obtain ⟨hcoordinator, hfile, hruns, -, halive⟩ := after_begun hrun
  obtain ⟨config, w₁, f, start, hopened, hf, hreplayed⟩ := replayed_of_begun haimed hrun
  obtain ⟨recorder, hread, hchanges⟩ := hreplayed.read
  rw [File.logsBetween_latest] at hread
  have hreading : m.world.reading c f start = (recorder, none) := hread
  -- whatever is run is alive, so it is still there after the sweep at the end
  have hstays : ∀ q ∈ cycle.queries, q ∈ (w₂.sweptCoordinator c).queries := by
    intro q hq
    refine Coordinator.mem_queries_swept.mpr ⟨hreplayed.main ▸ hq, World.isDead_of_alive ?_⟩
    rw [hreplayed.within.query]
    exact (hreplayed.live hopened hq).2
  refine ⟨config, w₁, f, start, hopened, hf, hreplayed.cursor, hreplayed.queries, by rw [hreading],
    by rw [hreading, hchanges], fun g => ?_, ?_, fun q => ?_, fun q hq => ?_, fun q hq => ?_⟩
  · rw [hfile, hreplayed.file]
  · rw [hruns, hreplayed.within.runs]
  · rw [halive, hreplayed.within.query]
  · rw [hcoordinator, if_pos rfl]
    exact hstays q hq
  · rw [hcoordinator, if_pos rfl]
    exact (Coordinator.queryCursor_swept_of_mem (hstays q hq)).trans hreplayed.queryCursor

namespace Cycled

variable {c : CoordinatorId} {f : FileId} {start : Version} {cycle : Step.Cycle} {config : Config}
  {w w₁ w' : World}

/-- The cycle runs every live query but those that are ahead of the latest version. -/
theorem mem_queries (h : Cycled c f start cycle w w₁ w') (hopened : Opened c config w w₁)
    (q : QueryId) : q ∈ cycle.queries ↔ (w.query q).alive ∧ (q ∈ (w.coordinator c).queries ∨
      q ∈ (w.coordinator c).newQueries ∧ (w.query q).version ≤ (w.file f).latest) := by
  have hmain : q ∈ (w.sweptCoordinator c).queries ↔
      q ∈ (w.coordinator c).queries ∧ (w.query q).alive := by
    refine Coordinator.mem_queries_swept.trans (and_congr_right fun _ => ?_)
    rw [World.isDead, Bool.not_eq_false']
  have hready : q ∈ w₁.ready c (w.file f).latest ↔ (q ∈ (w.coordinator c).newQueries ∧
      (w.query q).alive) ∧ (w.query q).version ≤ (w.file f).latest := by
    rw [World.mem_ready, hopened.waiting, World.mem_newQueries_sweptCoordinator,
      hopened.within.query]
  rw [h.queries, List.mem_append, hmain, hready]
  tauto

/-- It runs none of them twice. -/
theorem nodup_queries (h : Cycled c f start cycle w w₁ w') (hopened : Opened c config w w₁)
    (hnodup : (w.sweptCoordinator c).lists.Nodup) : cycle.queries.Nodup := by
  have hperm : (w₁.ready c (w.file f).latest ++ w₁.deferred c (w.file f).latest).Perm
      (w.sweptCoordinator c).newQueries := by
    rw [← hopened.waiting]
    exact w₁.ready_append_deferred_perm c _
  have hall := (hperm.append_left (w.sweptCoordinator c).queries).nodup_iff.mpr hnodup
  rw [← List.append_assoc] at hall
  rw [h.queries]
  exact hall.of_append_left

end Cycled

/-! ## Where a replay starts -/

/-- While the query lives it is in main rotation, and the query cursor reads version `v`. -/
structure Settled (c : CoordinatorId) (q : QueryId) (f : FileId) (v : Version) (w : World) :
    Prop where
  made : q < w.queries.size
  main : (w.query q).alive → q ∈ (w.coordinator c).queries
  cursor : (w.query q).alive → (w.coordinator c).queryCursor = some ⟨f, some v⟩

namespace Settled

variable {c : CoordinatorId} {q : QueryId} {f : FileId} {v : Version} {w w' : World}

theorem congr (h : Settled c q f v w) (hmade : w.queries.size ≤ w'.queries.size)
    (halive : (w'.query q).alive → (w.query q).alive)
    (hmain : (w'.coordinator c).queries = (w.coordinator c).queries)
    (hcursor : (w'.coordinator c).queryCursor = (w.coordinator c).queryCursor) :
    Settled c q f v w' where
  made := Nat.lt_of_lt_of_le h.made hmade
  main hlive := hmain ▸ h.main (halive hlive)
  cursor hlive := hcursor.trans (h.cursor (halive hlive))

/-- A sweep leaves a live query in main rotation, and with it the query cursor where it is. -/
theorem swept (h : Settled c q f v w) (hlive : (w.query q).alive) :
    q ∈ (w.sweptCoordinator c).queries ∧
      (w.sweptCoordinator c).queryCursor = some ⟨f, some v⟩ := by
  have hmem : q ∈ (w.sweptCoordinator c).queries :=
    Coordinator.mem_queries_swept.mpr ⟨h.main hlive, World.isDead_of_alive hlive⟩
  exact ⟨hmem, (Coordinator.queryCursor_swept_of_mem hmem).trans (h.cursor hlive)⟩

/-- Within its coordinator, more queries may join main rotation. -/
theorem within (h : Settled c q f v w) (hwithin : Within c w w')
    (hmain : ∀ p ∈ (w.sweptCoordinator c).queries, p ∈ (w'.coordinator c).queries)
    (hcursor : (w'.coordinator c).queryCursor = (w.sweptCoordinator c).queryCursor) :
    Settled c q f v w' where
  made := by rw [hwithin.queries]; exact h.made
  main hlive := by
    rw [hwithin.query] at hlive
    exact hmain q (h.swept hlive).1
  cursor hlive := by
    rw [hwithin.query] at hlive
    exact hcursor.trans (h.swept hlive).2

/-- With a query in main rotation, a cycle finds the query cursor where it was. -/
theorem opened (h : Settled c q f v w) (hlive : (w.query q).alive) {config : Config} {w₁ : World}
    (hopened : Opened c config w w₁) : (w₁.coordinator c).queryCursor = some ⟨f, some v⟩ := by
  obtain ⟨hmem, hcursor⟩ := h.swept hlive
  obtain ⟨s, hs⟩ : ∃ s, s = w₁.coordinator c := ⟨_, rfl⟩
  have hready := hopened.ready
  have hnone := hopened.asyncError
  rw [← hs] at hready hnone ⊢
  cases hready with
  | captured failure => cases hnone
  | kept => exact hcursor
  | started cursor hfile hu hmain =>
    have hstopped := hmain (List.ne_nil_of_mem hmem) _ hcursor
    cases hstopped

end Settled

namespace World

/-- How often a query was run. -/
def timesRun (w : World) (q : QueryId) : Nat := (w.runs.map Prod.fst).count q

theorem timesRun_le {w w' : World} (h : w.runs <+: w'.runs) (q : QueryId) :
    w.timesRun q ≤ w'.timesRun q := (h.map Prod.fst).sublist.count_le q

/-- A query is run once more for each of its places among the queries that are run. -/
theorem timesRun_of_runs {w w' : World} {queries : List QueryId} {changes : Changes}
    (h : w'.runs = w.runs ++ queries.map (·, changes)) (q : QueryId) :
    w'.timesRun q = w.timesRun q + queries.count q := by
  unfold timesRun
  rw [h, List.map_append, List.count_append, List.map_map]
  congr 1
  exact congrArg (List.count q) (List.map_id _)

end World

namespace Moment

/-- No run is taken back. -/
theorem runs_after (m : Moment) (sections : List Section) :
    m.world.runs <+: (m.after sections).world.runs := by
  induction sections generalizing m with
  | nil => exact List.prefix_refl _
  | cons s sections ih =>
    have hstep : m.world.runs <+: (m.perform s).world.runs := by
      rw [runs_perform]
      exact List.prefix_append _ _
    exact hstep.trans (ih (m.perform s))

theorem runs_afterAll (m : Moment) (operations : List Operation) :
    m.world.runs <+: (m.afterAll operations).world.runs := by
  induction operations generalizing m with
  | nil => exact List.prefix_refl _
  | cons o operations ih => exact (m.runs_after (m.sectionsOf o)).trans (ih (m.operate o))

end Moment

/-- A cycle that runs a query runs it once. -/
theorem Cycled.timesRun {c : CoordinatorId} {f : FileId} {start : Version} {cycle : Step.Cycle}
    {w w₁ w' : World} (h : Cycled c f start cycle w w₁ w') (q : QueryId) :
    w'.timesRun q = w.timesRun q + cycle.queries.count q := World.timesRun_of_runs h.runs q

namespace Settled

variable {c : CoordinatorId} {q : QueryId} {f : FileId} {v : Version} {w w' : World}

/-- What happens within another coordinator does not matter. -/
theorem other (h : Settled c q f v w) {d : CoordinatorId} (hwithin : Within d w w')
    (hd : c ≠ d) : Settled c q f v w' := by
  have hsame := hwithin.others c hd
  refine h.congr (Nat.le_of_eq (by rw [hwithin.queries])) (fun hlive => ?_) (by rw [hsame])
    (by rw [hsame])
  rwa [hwithin.query] at hlive

/-- Nothing but a cycle moves the query cursor. -/
theorem perform {m : Moment} {s : Section} (hpart : s.isPart = false)
    (h : Settled c q f v m.world) : Settled c q f v (m.perform s).world := by
  cases s with
  | chore x =>
    have hundisturbed := x.undisturbed_perform m.world
    have hbackground := hundisturbed.background c
    refine h.congr hundisturbed.made (fun hlive => ?_) (hundisturbed.main c)
      (congrArg Background.queryCursor hbackground)
    rwa [← hundisturbed.alive h.made]
  | kill p =>
    have hkill := Accounted.relisted_kill m.world p
    exact h.congr hkill.made (hkill.alive q h.made) rfl rfl
  | setVersion p version =>
    have hset := Accounted.relisted_setVersion m.world p version
    exact h.congr hset.made (hset.alive q h.made) rfl rfl
  | register d p =>
    cases hconfig : (m.world.coordinator d).config with
    | none =>
      rw [Moment.perform_register_of_none hconfig]
      exact h
    | some config =>
      obtain ⟨w', s, hrun, hwithin, hself, hpin⟩ := Step.run_registerQuery hconfig p
      rw [Moment.perform_register hrun]
      by_cases hd : c = d
      · subst hd
        refine h.within hwithin (fun r hr => ?_) ?_
        · rw [hself, hpin.main]
          exact hr
        · rw [hself]
          exact hpin.queryCursor
      · exact h.other hwithin hd
  | beginCycle d => exact nomatch hpart
  | startRun changes p => exact nomatch hpart
  | concludeCycle d queries => exact nomatch hpart

/-- A cycle that has nothing to run leaves the query cursor where it is, even if it fails. -/
theorem of_idle {outcome : Except Failure (Option Step.Cycle)}
    (houtcome : CycleOutcome c w w' outcome) (hidle : ∀ cycle, outcome ≠ .ok (some cycle))
    (h : Settled c q f v w) : Settled c q f v w' := by
  have hwithin := houtcome.within
  cases houtcome with
  | unconfigured hconfig hsame =>
    rw [hsame]
    exact h
  | idle _ hself hmain hwaiting =>
    refine h.within hwithin (fun p hp => ?_) (by rw [hself])
    rw [hself]
    exact hp
  | abandoned _ hleft hmain hwaiting hquery hadvancer hfailed =>
    refine h.within hwithin (fun p hp => ?_) hquery
    rw [hmain]
    exact List.mem_append_left _ hp
  | refused config w₁ w₃ failure captured hopened himport hcaptured hbecomes =>
    -- the query was in main rotation, so the query cursor was not started again
    have hfailed := Step.importAndReplay_eq_error hopened.isOpen himport
    refine ⟨?_, fun hlive => ?_, fun hlive => ?_⟩
    · rw [hwithin.queries]
      exact h.made
    · rw [hwithin.query] at hlive
      rw [hbecomes.self]
      refine List.mem_append_left _ ?_
      rw [hfailed.main, hopened.main]
      exact (h.swept hlive).1
    · rw [hwithin.query] at hlive
      rw [hbecomes.self]
      exact hfailed.queryCursor.trans (h.opened hlive hopened)
  | begun config w₁ changes hopened himport => exact absurd rfl (hidle _)

/-- An operation that does not run the query leaves the query cursor where it is. -/
theorem operate {m : Moment} {o : Operation} (hallowed : m.AllowsAlone c o)
    (haimed : Aimed (m.world.coordinator c)) (h : Settled c q f v m.world)
    (hruns : (m.operate o).world.timesRun q = m.world.timesRun q) :
    Settled c q f v (m.operate o).world := by
  cases o with
  | alone s => exact h.perform hallowed.1
  | cycle d =>
    obtain ⟨w₂, outcome, hrun, houtcome⟩ := Step.run_beginCycle d m.world
    by_cases hbegun : ∃ cycle, outcome = .ok (some cycle)
    · obtain ⟨cycle, rfl⟩ := hbegun
      obtain ⟨hcoordinator, -, -, hmade, halive⟩ := after_begun hrun
      by_cases hd : c = d
      · subst hd
        obtain ⟨config, w₁, g, start, hopened, -, hcycled⟩ := cycled_of_begun haimed hrun
        -- if the query lived, it would have been run
        have hdead : ¬ (m.world.query q).alive := by
          intro hlive
          have hmem := (hcycled.mem_queries hopened q).mpr ⟨hlive, .inl (h.main hlive)⟩
          have hcount := List.count_pos_iff.mpr hmem
          rw [hcycled.timesRun] at hruns
          omega
        have hstill : ¬ ((m.operate (.cycle c)).world.query q).alive := by
          rw [hcycled.alive]
          exact hdead
        refine ⟨?_, fun hlive => absurd hlive hstill, fun hlive => absurd hlive hstill⟩
        have hsize : m.world.queries.size = w₂.queries.size := by rw [houtcome.within.queries]
        exact Nat.lt_of_lt_of_le h.made (Nat.le_trans (Nat.le_of_eq hsize) hmade)
      · have hsame : (m.operate (.cycle d)).world.coordinator c = w₂.coordinator c := by
          rw [hcoordinator, if_neg hd]
        have hother := h.other houtcome.within hd
        exact hother.congr hmade (by rw [halive]; exact id) (by rw [hsame]) (by rw [hsame])
    · have hidle : ∀ cycle, outcome ≠ .ok (some cycle) := fun cycle heq => hbegun ⟨cycle, heq⟩
      rw [Moment.world_operate_of_idle hrun hidle]
      by_cases hd : c = d
      · subst hd
        exact h.of_idle houtcome hidle
      · exact h.other houtcome.within hd

/-- The run lemma: until the query is run again, the query cursor stays where it is. -/
theorem afterAll {m : Moment} {operations : List Operation} (hallowed : m.OneByOne c operations)
    (haimed : Aimed (m.world.coordinator c)) (h : Settled c q f v m.world)
    (hruns : (m.afterAll operations).world.timesRun q = m.world.timesRun q) :
    Settled c q f v (m.afterAll operations).world := by
  induction operations generalizing m with
  | nil => exact h
  | cons o operations ih =>
    have hfirst : m.world.timesRun q ≤ (m.operate o).world.timesRun q :=
      World.timesRun_le (m.runs_after (m.sectionsOf o)) q
    have hrest : (m.operate o).world.timesRun q ≤
        ((m.operate o).afterAll operations).world.timesRun q :=
      World.timesRun_le ((m.operate o).runs_afterAll operations) q
    have hsame : ((m.operate o).afterAll operations).world.timesRun q = m.world.timesRun q := hruns
    have haimed' : Aimed ((m.operate o).world.coordinator c) :=
      (Moment.follows_sectionsOf hallowed.1).preserves (I := fun m => Aimed (m.world.coordinator c))
        (fun _ _ => Aimed.perform) haimed
    exact ih hallowed.2 haimed' (h.operate hallowed.1 haimed (by omega)) (by omega)

/-- A cycle that runs a query leaves the query cursor at the latest version. -/
theorem of_run {m : Moment} (haccounted : Accounted m) (haimed : Aimed (m.world.coordinator c))
    (hran : m.world.timesRun q < (m.operate (.cycle c)).world.timesRun q) :
    ∃ f, (m.world.coordinator c).file? = some f ∧
      Settled c q f (m.world.file f).latest (m.operate (.cycle c)).world := by
  obtain ⟨w₂, outcome, hrun, houtcome⟩ := Step.run_beginCycle c m.world
  by_cases hbegun : ∃ cycle, outcome = .ok (some cycle)
  · obtain ⟨cycle, rfl⟩ := hbegun
    obtain ⟨config, w₁, f, start, hopened, hf, hcycled⟩ := cycled_of_begun haimed hrun
    obtain ⟨-, -, -, hmade, -⟩ := after_begun hrun
    have hmem : q ∈ cycle.queries := by
      rw [hcycled.timesRun] at hran
      exact List.count_pos_iff.mp (by omega)
    have hlisted : q ∈ (m.world.coordinator c).lists := by
      obtain ⟨-, hmain | ⟨hwaiting, -⟩⟩ := (hcycled.mem_queries hopened q).mp hmem
      · exact Coordinator.mem_lists.mpr (.inl hmain)
      · exact Coordinator.mem_lists.mpr (.inr hwaiting)
    refine ⟨f, ?_, ?_, fun _ => hcycled.main q hmem, fun _ => hcycled.queryCursor q hmem⟩
    · rw [Coordinator.file?, hopened.configured]
      exact hf
    · refine Nat.lt_of_lt_of_le (haccounted.made q c (haccounted.listed q c hlisted)) ?_
      rw [← houtcome.within.queries]
      exact hmade
  · -- then nothing was run
    have hidle : ∀ cycle, outcome ≠ .ok (some cycle) := fun cycle heq => hbegun ⟨cycle, heq⟩
    have hperform : (m.operate (.cycle c)).world = w₂ := Moment.world_operate_of_idle hrun hidle
    rw [hperform] at hran
    unfold World.timesRun at hran
    rw [houtcome.within.runs] at hran
    exact absurd hran (Nat.lt_irrefl _)

end Settled

/-! ## Between any two operations -/

/-- A cycle that finds a live query and no captured failure, and leaves none, has runs. -/
theorem begun_of_unfailed {m : Moment} {c : CoordinatorId}
    (haimed : Aimed (m.world.coordinator c))
    (hlive : ∃ q ∈ (m.world.coordinator c).lists, (m.world.query q).alive)
    (hunfailed : ((m.operate (.cycle c)).world.coordinator c).asyncError = none) :
    ∃ w₂ cycle, (Step.beginCycle c).run m.world = (w₂, .ok (some cycle)) := by
  obtain ⟨q, hq, halive⟩ := hlive
  have hswept : q ∈ (m.world.sweptCoordinator c).lists :=
    World.mem_lists_sweptCoordinator.mpr ⟨hq, halive⟩
  obtain ⟨w₂, outcome, hrun, houtcome⟩ := Step.run_beginCycle c m.world
  by_cases hbegun : ∃ cycle, outcome = .ok (some cycle)
  · obtain ⟨cycle, rfl⟩ := hbegun
    exact ⟨w₂, cycle, hrun⟩
  rw [Moment.world_operate_of_idle hrun fun cycle heq => hbegun ⟨cycle, heq⟩] at hunfailed
  cases houtcome with
  | unconfigured hconfig hsame =>
    have hsome := haimed.configured (List.ne_nil_of_mem hq)
    rw [hconfig] at hsome
    cases hsome
  | idle _ hself hmain hwaiting =>
    rw [Coordinator.lists, hmain, hwaiting] at hswept
    cases hswept
  | abandoned _ hleft hmain hwaiting hquery hadvancer hfailed =>
    rw [hunfailed] at hfailed
    cases hfailed
  | refused config w₁ w₃ failure captured hopened himport hcaptured hbecomes =>
    rw [hbecomes.self] at hunfailed
    cases hunfailed
  | begun config w₁ changes hopened himport => exact absurd ⟨_, rfl⟩ hbegun

/-- **One replay a cycle.** Let operations be made one at a time, let every query be registered
once, and let coordinator `c` keep its configuration. Take a cycle that finds a live query and no
captured failure and leaves none. It replays the logs of its file once. It runs every live query,
unless that waits at a version ahead of the latest, once and over the same changes: what a fresh
recorder, which observes the lists of all live queries, makes of the commits after the version that
the query cursor reads when it is open. If one of these queries was run by an earlier cycle and not
since, that is the version at which that cycle left off. -/
theorem one_replay_per_cycle {c : CoordinatorId} {operations : List Operation}
    (hallowed : Moment.start.OneByOne c operations) :
    let m := Moment.start.afterAll operations
    let w := m.world
    let w' := (m.operate (.cycle c)).world
    (∃ q ∈ (w.coordinator c).queries ++ (w.coordinator c).newQueries, (w.query q).alive) →
    (w.coordinator c).asyncError = none → (w'.coordinator c).asyncError = none →
    ∃ config f start, (w.coordinator c).config = some config ∧ config.file? = some f ∧
      (((Step.openCycle c config).run w).1.coordinator c).queryCursor = some ⟨f, some start⟩ ∧
      (∀ g, (w'.file g).replays = (w.file g).replays + if g = f then 1 else 0) ∧
      (w.reading c f start).2 = none ∧
      (∃ ran : List QueryId, ran.Nodup ∧
        (∀ q, q ∈ ran ↔ (w.query q).alive ∧ (q ∈ (w.coordinator c).queries ∨
          q ∈ (w.coordinator c).newQueries ∧ (w.query q).version ≤ (w.file f).latest)) ∧
        w'.runs = w.runs ++ ran.map (·, (w.reading c f start).1.changes)) ∧
      ∀ earlier between q, operations = earlier ++ .cycle c :: between →
        let m₁ := Moment.start.afterAll earlier
        let w₁ := m₁.world
        let w₂ := (m₁.operate (.cycle c)).world
        w₁.timesRun q < w₂.timesRun q → w.timesRun q = w₂.timesRun q →
        w.timesRun q < w'.timesRun q → start = (w₁.file f).latest := by
  intro m w w' hlive _ hunfailed
  obtain ⟨haccounted, haimed⟩ := hallowed.invariants
  obtain ⟨w₂, cycle, hrun⟩ := begun_of_unfailed haimed hlive hunfailed
  obtain ⟨config, wₒ, f, start, hopened, hf, hcycled⟩ := cycled_of_begun haimed hrun
  refine ⟨config, f, start, hopened.configured, hf, ?_, fun g => ?_, hcycled.accepted,
    ⟨cycle.queries, hcycled.nodup_queries hopened (haccounted.nodup_lists c),
      hcycled.mem_queries hopened, ?_⟩, ?_⟩
  · rw [hopened.opens]
    exact hcycled.cursor
  · rw [hcycled.file]
    split
    · next hg => rw [hg, File.countReplay]
    · rfl
  · rw [hcycled.runs, hcycled.changes]
  · intro earlier between q hsplit m₁ w₁ w₂ hran hsince hagain
    have hparts := hsplit ▸ hallowed
    obtain ⟨hearlier, hbetween⟩ := hparts.of_append
    obtain ⟨haccounted₁, haimed₁⟩ := hearlier.invariants
    have haimed₂ : Aimed (w₂.coordinator c) :=
      (Moment.follows_sectionsOf (o := .cycle c) (c := c) (m := m₁) trivial).preserves
        (I := fun m => Aimed (m.world.coordinator c)) (fun _ _ => Aimed.perform) haimed₁
    have hm : (m₁.operate (.cycle c)).afterAll between = m := by
      show _ = Moment.start.afterAll operations
      rw [hsplit, Moment.afterAll_append]
      rfl
    -- the query cursor has stayed where the earlier cycle left it
    obtain ⟨f₁, -, hsettled⟩ := Settled.of_run haccounted₁ haimed₁ hran
    have hkept := hsettled.afterAll hbetween.2 haimed₂ (by rw [hm]; exact hsince)
    rw [hm] at hkept
    have hcount : q ∈ cycle.queries := by
      have htimes := hcycled.timesRun q
      change w'.timesRun q = w.timesRun q + _ at htimes
      exact List.count_pos_iff.mp (by omega)
    have hfound := hkept.opened ((hcycled.mem_queries hopened q).mp hcount).1 hopened
    rw [hcycled.cursor, Option.some_inj, Cursor.mk.injEq, Option.some_inj] at hfound
    obtain ⟨rfl, hstart⟩ := hfound
    exact hstart

/-- Two queries are registered at different versions, run, and one of them dies; a third one is
registered, and there are commits all along. -/
def busyFile : List Operation :=
  [.alone (.chore .makeEngine), .alone (.chore .makeRegistry),
    .alone (.chore (.getCoordinator 0 "/a")),
    .alone (.chore (.getHandle 0 none (.forFile "/a" 0))),
    .alone (.chore (.makeQuery none [⟨0, 0, 0⟩] ⟨1, 0⟩)), .alone (.register 0 0),
    .alone (.chore (.commit (.forFile "/a" 0) [.selectTable 0])),
    .alone (.chore (.makeQuery none [] ⟨2, 0⟩)), .alone (.register 0 1), .cycle 0,
    .alone (.kill 1), .alone (.chore (.commit (.forFile "/a" 0) [.insertTable 0 "t"])),
    .alone (.chore (.makeQuery none [] ⟨3, 0⟩)), .alone (.register 0 2),
    .alone (.chore (.commit (.forFile "/a" 0) [.selectTable 1]))]

/-- The next cycle replays the logs once more, from where the first one left off. -/
theorem one_replay_per_cycle_busyFile :
    let m := Moment.start.afterAll busyFile
    let w := m.world
    let w' := (m.operate (.cycle 0)).world
    Moment.start.OneByOne 0 busyFile ∧
      (w'.file ⟨0, "/a"⟩).replays = (w.file ⟨0, "/a"⟩).replays + 1 ∧
      (((Step.openCycle 0 (.forFile "/a" 0)).run w).1.coordinator 0).queryCursor =
        some ⟨⟨0, "/a"⟩, some ⟨2, 0⟩⟩ := by
  intro m w w'
  have hallowed : Moment.start.OneByOne 0 busyFile := by decide +kernel
  obtain ⟨config, f, start, hconfig, hf, hcursor, hreplays, -, -, hadjacent⟩ :=
    one_replay_per_cycle hallowed ⟨0, by decide +kernel, by decide +kernel⟩ (by decide +kernel)
      (by decide +kernel)
  obtain rfl : config = .forFile "/a" 0 :=
    Option.some_inj.mp (hconfig.symm.trans (by decide +kernel))
  obtain rfl : f = ⟨0, "/a"⟩ := Option.some_inj.mp (hf.symm.trans (by decide +kernel))
  have hstart := hadjacent (busyFile.take 9) (busyFile.drop 10) 0 rfl (by decide +kernel)
    (by decide +kernel) (by decide +kernel)
  refine ⟨hallowed, ?_, ?_⟩
  · rw [hreplays, if_pos rfl]
  · rw [hcursor, hstart]
    decide +kernel

end SnapshotCoordination
