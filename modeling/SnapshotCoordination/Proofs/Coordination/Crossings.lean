import Mathlib.Data.List.Induction
import SnapshotCoordination.Proofs.Coordination.CapturedFailures
import SnapshotCoordination.Proofs.Coordination.Overlapping
import SnapshotCoordination.Proofs.Coordination.Pinning
import SnapshotCoordination.Proofs.Replay.Recording

/-!
# What is checked on the way of a query

A query waits at the version it was registered at, and is run at the latest one. The advancer that
takes it there reads no logs. They are read by the query cursor, on its way from where it is to the
latest version, to a recorder that takes in nothing its schema guard refuses. So what is checked on
the way of a query is what the query cursor has before it when the query is imported, and whatever
comes later.

* **`World.resumesAt`** — where the query cursor sets out in the next cycle;
* **`Crossed`** — the invariant of a query in main rotation: all logs were checked from where the
  query cursor was at its import to where it is now;
* **`checked_since_import`** — what that means for a query that is run, and when a cycle is refused;
* **`exists_unchecked_way`** — with nobody in main rotation the query cursor sets out at the latest
  version, so the way of a query that waits behind that is not checked.
-/

namespace SnapshotCoordination

/-! ## Where the query cursor sets out -/

namespace World

/-- The version from which a cycle replays the logs of a file: the one that the query cursor reads,
or the latest one if no live query is in main rotation. -/
def resumesAt (w : World) (c : CoordinatorId) (f : FileId) : Option Version :=
  if (w.sweptCoordinator c).queries = [] then some (w.file f).latest
  else (w.coordinator c).queryCursor.bind (·.current)

end World

/-- Query `q` is imported by a cycle that begins in `w`, and the query cursor sets out at version
`u` of file `f`. -/
structure Joins (c : CoordinatorId) (q : QueryId) (f : FileId) (u : Version) (w : World) :
    Prop where
  importable : q ∈ w.importable c
  file : (w.coordinator c).file? = some f
  resumes : w.resumesAt c f = some u

/-- A cycle that finds nobody in main rotation has the query cursor start at the latest version. -/
theorem Opened.latest {c : CoordinatorId} {config : Config} {w w₁ : World}
    (h : Opened c config w w₁) (hmain : (w.sweptCoordinator c).queries = []) {f : FileId}
    {u : Version} (hcursor : (w₁.coordinator c).queryCursor = some ⟨f, some u⟩) :
    u = (w.file f).latest := by
  obtain ⟨s, hs⟩ : ∃ s, s = w₁.coordinator c := ⟨_, rfl⟩
  have hready := h.ready
  have hnone := h.asyncError
  rw [← hs] at hready hnone hcursor
  cases hready with
  | captured failure => cases hnone
  | kept cursor v hkept hv hne => exact absurd hmain hne
  | started cursor hfile hv hne =>
    cases hcursor
    exact Option.some_inj.mp hv

/-- A live query of main rotation holds the query cursor where it is. -/
theorem Settled.resumesAt {c : CoordinatorId} {q : QueryId} {f : FileId} {v : Version} {w : World}
    (h : Settled c q f v w) (hlive : (w.query q).alive) : w.resumesAt c f = some v := by
  unfold World.resumesAt
  rw [if_neg (List.ne_nil_of_mem (h.swept hlive).1), h.cursor hlive]
  rfl

/-- A replay sets out where the query cursor was. -/
theorem Replayed.resumesAt {c : CoordinatorId} {f : FileId} {start : Version} {cycle : Step.Cycle}
    {config : Config} {w w₁ w' : World} (h : Replayed c f start cycle w w₁ w')
    (hopened : Opened c config w w₁)
    (hsettled : ∀ p ∈ (w.coordinator c).queries, (w.query p).alive → ∃ g v, Settled c p g v w) :
    w.resumesAt c f = some start := by
  by_cases hmain : (w.sweptCoordinator c).queries = []
  · rw [World.resumesAt, if_pos hmain, hopened.latest hmain h.cursor]
  · obtain ⟨p, hp⟩ := List.exists_mem_of_ne_nil _ hmain
    obtain ⟨hlisted, hdead⟩ := Coordinator.mem_queries_swept.mp hp
    have hlive : (w.query p).alive := by rwa [World.isDead, Bool.not_eq_false'] at hdead
    obtain ⟨g, v, hv⟩ := hsettled p hlisted hlive
    obtain ⟨rfl, rfl⟩ := h.resumes hopened hv hlive
    exact hv.resumesAt hlive

/-- Whatever a replay took in, the schema guard allows. -/
theorem Replayed.passable {c : CoordinatorId} {f : FileId} {start : Version} {cycle : Step.Cycle}
    {w w₁ w' : World} (h : Replayed c f start cycle w w₁ w') :
    (w.file f).Passable start (w.file f).latest := by
  obtain ⟨recorder, hread, -⟩ := h.read
  refine .hop h.le (Version.le_refl _) (SchemaGuard.allows_iff.mpr ?_)
  exact ChangeRecorder.allows_of_replay (congrArg Prod.snd hread)

/-! ## What a section makes of main rotation -/

/-- A version is held only while no failure is captured. -/
theorem PinOutcome.unfailed {w : World} {config : Config} {version : Version}
    {s s' : Coordinator} (h : PinOutcome w config version s s') (hnone : s'.asyncError = none) :
    s.asyncError = none := by
  cases h with
  | skipped hfailed => exact hnone
  | captured advancer failure hfile => cases hnone
  | held cursor u hunfailed => exact hunfailed

namespace Moment

variable {m : Moment} {c : CoordinatorId} {q : QueryId} {s : Section}

/-- Nothing but a cycle brings a query into main rotation, and while one is there no failure is
forgotten. -/
theorem main_of_perform (hbegun : ∀ d, s ≠ .beginCycle d)
    (hnone : ((m.perform s).world.coordinator c).asyncError = none)
    (hq : q ∈ ((m.perform s).world.coordinator c).queries) :
    (m.world.coordinator c).asyncError = none ∧ q ∈ (m.world.coordinator c).queries := by
  -- a sweep that leaves the query there leaves the failure as it was
  have hswept : (m.world.sweptCoordinator c).asyncError = none →
      q ∈ (m.world.sweptCoordinator c).queries →
      (m.world.coordinator c).asyncError = none ∧ q ∈ (m.world.coordinator c).queries := by
    intro hnone hq
    have hsame : (m.world.sweptCoordinator c).asyncError = _ :=
      Coordinator.asyncError_swept_of_mem (.inl hq)
    exact ⟨hsame ▸ hnone, (Coordinator.mem_queries_swept.mp hq).1⟩
  have htouched := m.touched_perform s c
  generalize (m.perform s).world = w' at hnone hq htouched
  cases htouched with
  | spared s hsame =>
    have herror := congrArg Background.asyncError hsame
    have hmain : (w'.coordinator c).queries = (m.world.coordinator c).queries :=
      congrArg Background.queries hsame
    exact ⟨herror.symm.trans hnone, hmain ▸ hq⟩
  | registered p config s hpin hself =>
    rw [hself] at hnone hq
    exact hswept (hpin.unfailed hnone) (hpin.main ▸ hq)
  | cycled outcome hrun houtcome => exact absurd rfl (hbegun c)
  | concluded queries hself =>
    rw [hself] at hnone hq
    exact hswept hnone hq

/-- A live query that is in main rotation while no failure is captured was so before the last
section, which left the query cursor where it was; or the section is the start of a cycle that
runs it. -/
theorem stayed_or_run (hlive : ((m.perform s).world.query q).alive)
    (hnone : ((m.perform s).world.coordinator c).asyncError = none)
    (hq : q ∈ ((m.perform s).world.coordinator c).queries) :
    ((m.world.coordinator c).asyncError = none ∧ q ∈ (m.world.coordinator c).queries ∧
      ∀ f v, Settled c q f v m.world → Settled c q f v (m.perform s).world) ∨
    ∃ w cycle, s = .beginCycle c ∧ (Step.beginCycle c).run m.world = (w, .ok (some cycle)) ∧
      q ∈ cycle.queries := by
  by_cases hbegin : ∃ d, s = .beginCycle d
  swap
  · have hbegun : ∀ d, s ≠ .beginCycle d := fun d hd => hbegin ⟨d, hd⟩
    obtain ⟨hnone, hq⟩ := main_of_perform hbegun hnone hq
    exact .inl ⟨hnone, hq, fun f v hv => hv.perform_of_begun hbegun⟩
  obtain ⟨d, rfl⟩ := hbegin
  obtain ⟨w, outcome, hrun, houtcome⟩ := Step.run_beginCycle d m.world
  rw [world_beginCycle hrun] at hnone hq ⊢
  by_cases hd : c = d
  swap
  · rw [houtcome.within.others c hd] at hnone hq
    exact .inl ⟨hnone, hq, fun f v hv => hv.other houtcome.within hd⟩
  subst hd
  have hwithin := houtcome.within
  cases houtcome with
  | unconfigured hconfig hsame =>
    subst hsame
    exact .inl ⟨hnone, hq, fun f v hv => hv⟩
  | idle _ hself hmain hwaiting =>
    rw [hself, hmain] at hq
    cases hq
  | abandoned _ hleft hmain hwaiting hquery hadvancer hfailed =>
    rw [hnone] at hfailed
    cases hfailed
  | refused config w₁ w₂ failure captured hopened himport hcaptured hbecomes =>
    rw [hbecomes.self] at hnone
    cases hnone
  | begun config w₁ changes hopened himport => exact .inr ⟨w, _, rfl, hrun, hq⟩

end Moment

/-! ## Since the import -/

/-- While query `q` lives in main rotation and no failure is captured, it was imported by a cycle,
the query cursor reads, and all logs were checked on the way there from where that cycle set out. -/
def Crossed (c : CoordinatorId) (q : QueryId) (sections : List Section) : Prop :=
  let w := (Moment.start.after sections).world
  (w.coordinator c).asyncError = none → (w.query q).alive → q ∈ (w.coordinator c).queries →
    ∃ before after f u v, sections = before ++ .beginCycle c :: after ∧
      Joins c q f u (Moment.start.after before).world ∧ Settled c q f v w ∧
      (w.file f).Passable u v

namespace Crossed

variable {c : CoordinatorId} {q : QueryId} {sections : List Section}

/-- A cycle that runs a query takes it from where the query cursor was to the latest version. -/
theorem run (h : ∀ p, Crossed c p sections)
    (hallowed : Moment.start.Follows (Moment.AllowsKept c) sections) {w' : World}
    {cycle : Step.Cycle}
    (hrun : (Step.beginCycle c).run (Moment.start.after sections).world = (w', .ok (some cycle)))
    (hq : q ∈ cycle.queries) :
    ∃ before after f u, sections ++ [.beginCycle c] = before ++ .beginCycle c :: after ∧
      Joins c q f u (Moment.start.after before).world ∧
      Settled c q f (w'.file f).latest w' ∧ (w'.file f).Passable u (w'.file f).latest := by
  have haccounted := Accounted.start.after (hallowed.mono fun _ _ => And.left)
  obtain ⟨config, w₁, f, start, hopened, hf, hreplayed⟩ :=
    replayed_of_begun (Aimed.after hallowed) hrun
  have hwithin := hreplayed.within
  obtain ⟨hlisted, hlive⟩ := hreplayed.live hopened hq
  have hsettled := hreplayed.settled hq (haccounted.made q c (haccounted.listed q c hlisted))
  rw [← hwithin.latest] at hsettled
  have hgrown : ∀ {u v}, ((Moment.start.after sections).world.file f).Passable u v →
      (w'.file f).Passable u v := fun h => h.mono (hwithin.commits f ▸ List.prefix_refl _)
  have hpassable := hgrown hreplayed.passable
  rw [← hwithin.latest] at hpassable
  -- a live query of main rotation was imported, for no failure is captured
  have hmain : ∀ p ∈ ((Moment.start.after sections).world.coordinator c).queries,
      ((Moment.start.after sections).world.query p).alive →
      ((Moment.start.after sections).world.coordinator c).asyncError = none := by
    intro p hp hlive
    have hkept : ((Moment.start.after sections).world.sweptCoordinator c).asyncError = _ :=
      Coordinator.asyncError_swept_of_mem (.inl (Coordinator.mem_queries_swept.mpr
        ⟨hp, World.isDead_of_alive hlive⟩))
    exact hkept ▸ hopened.unfailed
  rw [hreplayed.queries, List.mem_append] at hq
  rcases hq with hq | hq
  · have hq := (Coordinator.mem_queries_swept.mp hq).1
    obtain ⟨before, after, g, u, v, hsplit, hjoins, hv, hway⟩ := h q (hmain q hq hlive) hlive hq
    obtain ⟨rfl, rfl⟩ := hreplayed.resumes hopened hv hlive
    refine ⟨before, after ++ [.beginCycle c], g, u, ?_, hjoins, hsettled,
      (hgrown hway).trans hpassable⟩
    rw [hsplit, List.append_assoc, List.cons_append]
  · have hfile : ((Moment.start.after sections).world.coordinator c).file? = some f := by
      rw [Coordinator.file?, hopened.configured]
      exact hf
    refine ⟨sections, [], f, start, rfl, ⟨?_, hfile, ?_⟩, hsettled, hpassable⟩
    · rw [World.mem_ready, hopened.waiting, World.mem_newQueries_sweptCoordinator,
        hopened.within.query] at hq
      unfold World.importable
      rw [hfile]
      simp [hq.1.1, hq.1.2, hq.2]
    · refine hreplayed.resumesAt hopened fun p hp hlive => ?_
      obtain ⟨-, -, g, -, v, -, -, hv, -⟩ := h p (hmain p hp hlive) hlive hp
      exact ⟨g, v, hv⟩

/-- The run lemma. -/
theorem after (hallowed : Moment.start.Follows (Moment.AllowsKept c) sections) :
    ∀ q, Crossed c q sections := by
  induction sections using List.reverseRecOn with
  | nil => exact fun q _ _ hq => nomatch hq
  | append_singleton sections s ih =>
    obtain ⟨hbefore, -⟩ := hallowed.of_append
    have hlast : Moment.start.after (sections ++ [s]) = (Moment.start.after sections).perform s :=
      Moment.start.after_append sections [s]
    unfold Crossed
    rw [hlast]
    intro q w hnone hlive hq
    rcases Moment.stayed_or_run hlive hnone hq with
      ⟨hunfailed, hlisted, hstays⟩ | ⟨w', cycle, rfl, hrun, hmem⟩
    · obtain ⟨before, after, f, u, v, rfl, hjoins, hv, hway⟩ := ih hbefore q hunfailed
        ((Moment.start.after sections).alive_of_perform s hlive) hlisted
      refine ⟨before, after ++ [s], f, u, v, ?_, hjoins, hstays f v hv,
        hway.mono (Moment.commits_perform _ s f)⟩
      rw [List.append_assoc, List.cons_append]
    · obtain ⟨before, after, f, u, hsplit, hjoins, hv, hway⟩ := run (ih hbefore) hbefore hrun hmem
      have hworld : w = w' := Moment.world_beginCycle hrun
      rw [hworld]
      exact ⟨before, after, f, u, _, hsplit, hjoins, hv, hway⟩

end Crossed

/-! ## While a query waits -/

namespace Moment

variable {m : Moment} {c : CoordinatorId} {q : QueryId} {s : Section}

/-- Nothing but its registration has a query wait. -/
theorem waiting_of_perform (hq : q ∈ ((m.perform s).world.coordinator c).newQueries) :
    q ∈ (m.world.coordinator c).newQueries ∨ s = .register c q := by
  have hswept : q ∈ (m.world.sweptCoordinator c).newQueries →
      q ∈ (m.world.coordinator c).newQueries ∨ s = .register c q :=
    fun hq => .inl (World.mem_newQueries_sweptCoordinator.mp hq).1
  have htouched := m.touched_perform s c
  generalize (m.perform s).world = w' at hq htouched
  cases htouched with
  | spared s hsame =>
    have hwaiting : (w'.coordinator c).newQueries = (m.world.coordinator c).newQueries :=
      congrArg Background.newQueries hsame
    exact .inl (hwaiting ▸ hq)
  | registered p config s hpin hself =>
    rw [hself, List.mem_append, List.mem_singleton, hpin.waiting] at hq
    rcases hq with hq | rfl
    · exact hswept hq
    · exact .inr rfl
  | cycled outcome hrun houtcome =>
    cases houtcome with
    | unconfigured hconfig hsame => exact .inl (hsame ▸ hq)
    | idle _ hself hmain hwaiting => exact hswept (hself ▸ hq)
    | abandoned _ hleft hmain hwaiting hquery hadvancer hfailed =>
      rw [hwaiting] at hq
      cases hq
    | refused config w₁ w₂ failure captured hopened himport hcaptured hbecomes =>
      rw [hbecomes.self] at hq
      cases hq
    | begun config w₁ changes hopened himport =>
      obtain ⟨-, -, hwaiting, -⟩ := lists_of_begun (.begun config w₁ changes hopened himport)
      exact hswept (hwaiting q hq)
  | concluded queries hself => exact hswept (hself ▸ hq)

/-- A query that still waits has the version it was registered at. -/
theorem version_of_waiting {sections : List Section}
    (hallowed : m.Follows (AllowsSteady c) sections) (haccounted : Accounted m)
    (hregistered : (q, c) ∈ m.registered)
    (hq : q ∈ ((m.after sections).world.coordinator c).newQueries) :
    ((m.after sections).world.query q).version = (m.world.query q).version := by
  induction sections using List.reverseRecOn with
  | nil => rfl
  | append_singleton sections s ih =>
    obtain ⟨hbefore, hs, -⟩ := hallowed.of_append
    have hlast : m.after (sections ++ [s]) = (m.after sections).perform s :=
      m.after_append sections [s]
    rw [hlast] at hq ⊢
    have hknown := (m.registered_after sections).subset hregistered
    have hwaited := (waiting_of_perform hq).resolve_right fun hs' => by
      -- no query is registered twice
      subst hs'
      exact hs.1.1.2 _ hknown rfl
    have hthen := haccounted.after (hbefore.mono fun _ _ h => h.1.1)
    rw [version_perform hs hthen hwaited, ih hbefore hwaited]

/-- A query waits only after its registration, the one time it is registered. -/
theorem registered_before {before after earlier later : List Section}
    (hallowed : start.Follows Allows (earlier ++ .register c q :: later))
    (hsplit : earlier ++ .register c q :: later ++ [.beginCycle c] =
      before ++ .beginCycle c :: after)
    (hq : q ∈ ((start.after before).world.coordinator c).newQueries) :
    ∃ between, before = earlier ++ .register c q :: between ∧
      later ++ [.beginCycle c] = between ++ .beginCycle c :: after := by
  rw [List.append_assoc, List.cons_append] at hsplit
  rcases List.append_eq_append_iff.mp hsplit with ⟨rest, rfl, hrest⟩ | ⟨rest, rfl, hrest⟩
  · cases rest with
    | nil => cases hrest
    | cons s between =>
      obtain ⟨rfl, hbetween⟩ := List.cons.inj hrest
      exact ⟨between, rfl, hbetween⟩
  · -- it waited before, so it was registered before
    obtain ⟨hearlier, hagain, -⟩ := hallowed.of_append
    obtain ⟨hbefore, -⟩ := hearlier.of_append
    have hlisted := (Accounted.start.after hbefore).listed q c (Coordinator.mem_lists.mpr (.inr hq))
    rw [after_append] at hagain
    exact absurd rfl (hagain.2 _ (((start.after before).registered_after rest).subset hlisted))

end Moment

/-! ## What a cycle refuses -/

/-- With a live query in main rotation that holds the query cursor, a cycle gets to its import. -/
theorem Settled.reaches {c : CoordinatorId} {q : QueryId} {f : FileId} {v : Version} {w : World}
    (h : Settled c q f v w) (hlive : (w.query q).alive) {config : Config}
    (hconfig : (w.coordinator c).config = some config)
    (hnone : (w.coordinator c).asyncError = none) : ∃ w₁, Opened c config w w₁ := by
  obtain ⟨w₁, hclean, hwithin, hself, htrace, hengines⟩ := Step.run_cleanUp c w
  obtain ⟨hmem, hcursor⟩ := h.swept hlive
  have hunfailed : (w.sweptCoordinator c).asyncError = none :=
    (Coordinator.asyncError_swept_of_mem (.inl hmem)).trans hnone
  have hmain : (w.sweptCoordinator c).queries ≠ [] := List.ne_nil_of_mem hmem
  have hopen : (Step.openQueryCursor c config).run w₁ = (w₁, .ok ()) := by
    rw [Step.run_openQueryCursor_of_some (by rw [hself]; exact hcursor), hself,
      if_neg (by simpa [Cursor.isReading] using hmain)]
  have hready : (Step.readyQueryCursor c config).run w₁ = (w₁, .ok ()) :=
    Step.run_capturing_ok hopen
  exact ⟨w₁, hconfig, by rw [Step.openCycle, Step.run_bind_ok hclean, hready], hwithin,
    World.file_congr hengines, htrace, .inl hmain, hunfailed, by rw [hself, hunfailed],
    by rw [hself]; exact .kept _ v hcursor rfl hmain⟩

/-- **What the guard refuses, a cycle refuses.** If the guard refuses the logs that are before the
query cursor, so does the import, and the failure is captured. -/
theorem Settled.refused {c : CoordinatorId} {q : QueryId} {f : FileId} {v : Version} {w : World}
    (h : Settled c q f v w) (hlive : (w.query q).alive) (haimed : Aimed (w.coordinator c))
    (hpinned : Pinned w (w.coordinator c)) (hnone : (w.coordinator c).asyncError = none)
    (hrefused : SchemaGuard.allows ((w.file f).logsBetween v (w.file f).latest).flatten = false) :
    ∃ w' failure, (Step.beginCycle c).run w = (w', .error failure) ∧
      (w'.coordinator c).asyncError = some failure ∧ failure.isConsistency ∧
      ((∀ i ∈ ((w.file f).logsBetween v (w.file f).latest).flatten, i.isRecordable) →
        failure = .schemaMismatch) := by
  have hlisted := Coordinator.mem_lists.mpr (.inl (h.main hlive))
  obtain ⟨config, hconfig⟩ := Option.isSome_iff_exists.mp
    (haimed.configured (List.ne_nil_of_mem hlisted))
  obtain ⟨w₁, hopened⟩ := h.reaches hlive hconfig hnone
  obtain ⟨g, u, hg, hcursor, hule, hheld⟩ := hopened.poised haimed hpinned
  have hfound := h.opened hlive hopened
  rw [hcursor, Option.some_inj, Cursor.mk.injEq, Option.some_inj] at hfound
  obtain ⟨rfl, rfl⟩ := hfound
  obtain ⟨w₂, himport, -⟩ := Step.run_importAndReplay (.observing (w.observed
    ((w.sweptCoordinator c).queries ++ (w.sweptCoordinator c).newQueries))) hg hcursor rfl rfl
    hule hheld
  rw [hopened.file] at himport
  -- the recorder takes in nothing that its guard refuses
  cases hread : (LogReader.replay (ChangeRecorder.observing (w.observed
      ((w.sweptCoordinator c).queries ++ (w.sweptCoordinator c).newQueries)))
        ((w.file g).logsBetween u (w.file g).latest).flatten).2 with
  | none =>
    have hallows := SchemaGuard.allows_iff.mpr (ChangeRecorder.allows_of_replay hread)
    rw [hallows] at hrefused
    cases hrefused
  | some failure =>
    rw [Step.outcomeOf, hread] at himport
    have hkind := ChangeRecorder.isConsistency_of_replay hread
    have hresumed := Step.run_resumeCycle_of_refused hopened himport
    simp only [hkind, if_true] at hresumed
    refine ⟨_, failure, (Step.run_beginCycle_of_opened hopened).trans hresumed, ?_, hkind,
      fun hlog => ?_⟩
    · rw [World.coordinator_onCoordinator_self, World.coordinator_onCoordinator_self]
    · rw [ChangeRecorder.replay_of_isRecordable hlog] at hread
      exact SchemaGuard.replay_eq_schemaMismatch hread

/-! ## Between any two sections -/

/-- **A query is checked from where the query cursor was at its import.** Let every query be
registered once, let coordinator `c` keep its configuration, and let its waiting queries keep their
versions.

A cycle that runs a query is the one that imported it, or comes after that; at its import the query
had the version it was registered at. From where the query cursor set out in that cycle up to the
version the query is run at, every log was taken in by a guard.

A cycle that finds a live query in main rotation and no captured failure fails if the guard refuses
the logs from where the query cursor sets out up to the latest version, whoever waits. The failure
is captured; it is that of the guard, unless an erase that cannot be recorded is in between. -/
theorem checked_since_import {c : CoordinatorId} {q : QueryId} {earlier later : List Section}
    (hallowed : Moment.start.Follows (Moment.AllowsSteady c) (earlier ++ .register c q :: later))
    (hregistered : (q, c) ∈ (Moment.start.after (earlier ++ [.register c q])).registered) :
    let pinned := ((Moment.start.after earlier).world.query q).version
    let w := (Moment.start.after (earlier ++ .register c q :: later)).world
    ∀ w' outcome, (Step.beginCycle c).run w = (w', outcome) →
      (∀ cycle, outcome = .ok (some cycle) → q ∈ cycle.queries →
        ∃ before after f u, later ++ [.beginCycle c] = before ++ .beginCycle c :: after ∧
          let w₀ := (Moment.start.after (earlier ++ .register c q :: before)).world
          q ∈ w₀.importable c ∧ (w₀.query q).version = pinned ∧
            (w₀.coordinator c).file? = some f ∧ w₀.resumesAt c f = some u ∧
            (w'.file f).Passable u (w'.file f).latest) ∧
      ((w.coordinator c).asyncError = none →
        (∃ p ∈ (w.coordinator c).queries, (w.query p).alive) →
        ∃ f u, (w.coordinator c).file? = some f ∧ w.resumesAt c f = some u ∧
          let logs := ((w.file f).logsBetween u (w.file f).latest).flatten
          (SchemaGuard.allows logs = false → ∃ failure, outcome = .error failure ∧
            (w'.coordinator c).asyncError = some failure ∧ failure.isConsistency ∧
            ((∀ i ∈ logs, i.isRecordable) → failure = .schemaMismatch))) := by
  intro pinned w w' outcome hrun
  have hkept := hallowed.mono fun _ _ => And.left
  have hplain := hkept.mono fun _ _ => And.left
  have hcrossed := Crossed.after hkept
  refine ⟨fun cycle hcycle hq => ?_, fun hnone ⟨p, hp, hlive⟩ => ?_⟩
  · subst hcycle
    obtain ⟨before, after, f, u, hsplit, hjoins, -, hway⟩ := Crossed.run hcrossed hkept hrun hq
    have hwaits := World.mem_newQueries_of_importable hjoins.importable
    obtain ⟨between, rfl, hrest⟩ := Moment.registered_before hplain hsplit hwaits
    refine ⟨between, after, f, u, hrest, hjoins.importable, ?_, hjoins.file, hjoins.resumes, hway⟩
    have hinitial : between <+: later := by
      have hleft : between <+: later ++ [.beginCycle c] := hrest ▸ List.prefix_append _ _
      refine List.prefix_of_prefix_length_le hleft (List.prefix_append _ _) ?_
      have hlength := congrArg List.length hrest
      simp only [List.length_append, List.length_cons, List.length_nil] at hlength
      omega
    obtain ⟨rest, rfl⟩ := hinitial
    -- from its registration to its import the query waits, and its version stays
    have hparts : ∀ row, earlier ++ .register c q :: row = (earlier ++ [.register c q]) ++ row :=
      fun row => by rw [List.append_assoc, List.singleton_append]
    rw [hparts] at hallowed hplain
    rw [hparts, Moment.after_append] at hwaits ⊢
    have hwaiting := hallowed.of_append.2.of_append.1
    have haccounted := Accounted.start.after hplain.of_append.1
    rw [Moment.version_of_waiting hwaiting haccounted hregistered hwaits, Moment.after_append]
    exact Moment.version_register _ c q q
  · obtain ⟨-, -, f, -, v, -, -, hv, -⟩ := hcrossed p hnone hlive hp
    have haimed := Aimed.after hkept
    refine ⟨f, v, haimed.query f (by rw [hv.cursor hlive]; rfl), hv.resumesAt hlive,
      fun hrefused => ?_⟩
    obtain ⟨w₂, failure, hrun', hcaptured⟩ := hv.refused hlive haimed (Pinned.after hallowed) hnone
      hrefused
    rw [hrun] at hrun'
    obtain ⟨rfl, rfl⟩ := Prod.mk.inj hrun'
    exact ⟨failure, rfl, hcaptured⟩

/-- An outcome that tells what is run is that of a cycle that runs it. -/
theorem begun_of_queries {outcome : Except Failure (Option Step.Cycle)} {queries : List QueryId}
    (h : outcome.toOption.join.map (·.queries) = some queries) :
    ∃ cycle, outcome = .ok (some cycle) ∧ cycle.queries = queries := by
  rcases outcome with failure | _ | cycle
  · cases h
  · cases h
  · exact ⟨cycle, rfl, Option.some_inj.mp h⟩

/-- A query was registered and run, and another one is made. -/
def oneInRotation : List Section :=
  [.chore .makeEngine, .chore .makeRegistry, .chore (.getCoordinator 0 "/a"),
    .chore (.getHandle 0 none (.forFile "/a" 0)), .chore (.makeQuery none [] ⟨1, 0⟩),
    .register 0 0, .beginCycle 0, .startRun .empty 0, .chore (.concludeRun 0),
    .concludeCycle 0 [0], .chore (.makeQuery none [] ⟨1, 0⟩)]

/-- Then that one is registered, and there is a commit. -/
def thenCommitted (log : Log) : List Section :=
  oneInRotation ++ .register 0 1 :: [.chore (.commit (.forFile "/a" 0) log)]

/-- If the commit makes a new table, the next cycle imports the new query and has checked its whole
way; if it takes away a primary key, that cycle fails. -/
theorem checked_since_import_oneInRotation :
    Moment.start.Follows (Moment.AllowsSteady 0) (thenCommitted [.insertTable 0 "t"]) ∧
      Moment.start.Follows (Moment.AllowsSteady 0) (thenCommitted [.removePrimaryKey]) ∧
      (∃ w' cycle, (Step.beginCycle 0).run
          (Moment.start.after (thenCommitted [.insertTable 0 "t"])).world = (w', .ok (some cycle)) ∧
        1 ∈ cycle.queries ∧ (w'.file ⟨0, "/a"⟩).Passable ⟨1, 0⟩ (w'.file ⟨0, "/a"⟩).latest) ∧
      ∃ w', (Step.beginCycle 0).run
        (Moment.start.after (thenCommitted [.removePrimaryKey])).world =
          (w', .error .schemaMismatch) := by
  have hallowed : Moment.start.Follows (Moment.AllowsSteady 0)
      (thenCommitted [.insertTable 0 "t"]) := by decide +kernel
  have hallowed' : Moment.start.Follows (Moment.AllowsSteady 0)
      (thenCommitted [.removePrimaryKey]) := by decide +kernel
  have hregistered : (1, 0) ∈
      (Moment.start.after (oneInRotation ++ [.register 0 1])).registered := by decide +kernel
  refine ⟨hallowed, hallowed', ?_, ?_⟩
  · rcases hrun : (Step.beginCycle 0).run
      (Moment.start.after (thenCommitted [.insertTable 0 "t"])).world with ⟨w', outcome⟩
    have hran : (outcome.toOption.join.map (·.queries)) = some [0, 1] := by
      rw [show outcome = _ from (congrArg Prod.snd hrun).symm]
      decide +kernel
    obtain ⟨hchecked, -⟩ := checked_since_import hallowed hregistered w' outcome hrun
    obtain ⟨cycle, rfl, hqueries⟩ := begun_of_queries hran
    have hmem : 1 ∈ cycle.queries := by rw [hqueries]; decide
    obtain ⟨before, after, f, u, hsplit, -, -, hf, hu, hway⟩ := hchecked cycle rfl hmem
    -- the only cycle since the registration is this one
    obtain rfl : before = [.chore (.commit (.forFile "/a" 0) [.insertTable 0 "t"])] := by
      rcases before with _ | ⟨s, _ | ⟨t, before⟩⟩
      · cases hsplit
      · cases hsplit
        rfl
      · cases before <;> cases hsplit
    obtain rfl : f = ⟨0, "/a"⟩ := Option.some_inj.mp (hf.symm.trans (by decide +kernel))
    obtain rfl : u = ⟨1, 0⟩ := Option.some_inj.mp (hu.symm.trans (by decide +kernel))
    exact ⟨w', cycle, rfl, hmem, hway⟩
  · rcases hrun : (Step.beginCycle 0).run
      (Moment.start.after (thenCommitted [.removePrimaryKey])).world with ⟨w', outcome⟩
    obtain ⟨-, hrefuses⟩ := checked_since_import hallowed' hregistered w' outcome hrun
    obtain ⟨f, u, hf, hu, hrefused⟩ := hrefuses (by decide +kernel)
      ⟨0, by decide +kernel, by decide +kernel⟩
    obtain rfl : f = ⟨0, "/a"⟩ := Option.some_inj.mp (hf.symm.trans (by decide +kernel))
    obtain rfl : u = ⟨1, 0⟩ := Option.some_inj.mp (hu.symm.trans (by decide +kernel))
    obtain ⟨failure, rfl, -, -, hmismatch⟩ := hrefused (by decide +kernel)
    exact ⟨w', by rw [hmismatch (by decide +kernel)]⟩

/-- Not every change between the version a query was registered at and the version it is run at was
checked: with nobody else in main rotation, the query cursor sets out behind all of them. -/
theorem exists_unchecked_way :
    ¬ ∀ (c : CoordinatorId) (q : QueryId) (earlier later : List Section),
      Moment.start.Follows (Moment.AllowsSteady c) (earlier ++ .register c q :: later) →
      (q, c) ∈ (Moment.start.after (earlier ++ [.register c q])).registered →
      ∀ w' cycle f, (Step.beginCycle c).run
        (Moment.start.after (earlier ++ .register c q :: later)).world = (w', .ok (some cycle)) →
      q ∈ cycle.queries → (w'.coordinator c).file? = some f →
      let pinned := ((Moment.start.after earlier).world.query q).version
      ∀ log ∈ (w'.file f).logsBetween pinned (w'.file f).latest, ∀ i ∈ log,
        i.isUnsupported = false := by
  intro hall
  let earlier : List Section := oneInRotation.take 5
  let later : List Section := [.chore (.commit (.forFile "/a" 0) [.removePrimaryKey])]
  rcases hrun : (Step.beginCycle 0).run
    (Moment.start.after (earlier ++ .register 0 0 :: later)).world with ⟨w', outcome⟩
  have hw' : w' = _ := (congrArg Prod.fst hrun).symm
  have hran : (outcome.toOption.join.map (·.queries)) = some [0] := by
    rw [show outcome = _ from (congrArg Prod.snd hrun).symm]
    decide +kernel
  obtain ⟨cycle, rfl, hqueries⟩ := begun_of_queries hran
  have hsupported := hall 0 0 earlier later (by decide +kernel) (by decide +kernel) w' cycle
    ⟨0, "/a"⟩ hrun (by rw [hqueries]; decide) (by rw [hw']; decide +kernel) [.removePrimaryKey]
    (by rw [hw']; decide +kernel) .removePrimaryKey (by decide)
  cases hsupported

end SnapshotCoordination
