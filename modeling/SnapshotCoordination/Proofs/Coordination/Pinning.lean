import SnapshotCoordination.Proofs.Coordination.Aiming
import SnapshotCoordination.Proofs.Replay.Recording
import SnapshotCoordination.Proofs.Storage.Histories

/-!
# The earliest waiting version is held

While no failure is captured and queries wait, the advancer reads a version that exists and that
none of them is behind (`Pinned.held`). So an import can always lift them, in whatever order they
came, and only the logs can be refused.

* **`Pinned`** — the invariant of one coordinator, with what it needs to know of the query cursor;
* **`Moment.AllowsSteady`** — the rule under which it holds: the coordinator keeps the
  configuration it has adopted, and its waiting queries keep their versions;
* **`advancer_holds_earliest`** — the invariant between any two sections, and what it means for a
  cycle that gets as far as its import.
-/

namespace SnapshotCoordination

/-- In a world, the query cursor of a coordinator reads no version that does not exist, and while no
failure is captured the advancer reads one that exists and that no waiting query is behind. -/
structure Pinned (w : World) (s : Coordinator) : Prop where
  queryLatest : ∀ cursor u, s.queryCursor = some cursor → cursor.current = some u →
    u ≤ (w.file cursor.file).latest
  held : s.asyncError = none → s.newQueries ≠ [] → ∃ cursor u, s.advancer = some cursor ∧
    cursor.current = some u ∧ u ≤ (w.file cursor.file).latest ∧
    ∀ q ∈ s.newQueries, u ≤ (w.query q).version

namespace Pinned

variable {w w' : World} {s s' : Coordinator}

/-- The invariant survives commits, and whatever leaves the waiting queries their versions. -/
theorem mono (h : Pinned w s) (hlatest : ∀ f, (w.file f).latest ≤ (w'.file f).latest)
    (hversion : ∀ q ∈ s.newQueries, (w'.query q).version = (w.query q).version) :
    Pinned w' s where
  queryLatest cursor u hcursor hu :=
    Version.le_trans (h.queryLatest cursor u hcursor hu) (hlatest _)
  held hnone hwaiting := by
    obtain ⟨cursor, u, hcursor, hu, hle, hfrom⟩ := h.held hnone hwaiting
    refine ⟨cursor, u, hcursor, hu, Version.le_trans hle (hlatest _), fun q hq => ?_⟩
    rw [hversion q hq]
    exact hfrom q hq

theorem within (h : Pinned w s) {c : CoordinatorId} (hwithin : Within c w w') : Pinned w' s :=
  h.mono (fun f => hwithin.latest f ▸ Version.le_refl _)
    fun q _ => congrArg Query.version (hwithin.query q)

/-- The invariant is about the background of the coordinator only. -/
theorem congr (h : Pinned w s) (hbackground : s'.background = s.background) : Pinned w s' := by
  have hquery : s'.queryCursor = s.queryCursor := congrArg Background.queryCursor hbackground
  have hadvancer : s'.advancer = s.advancer := congrArg Background.advancer hbackground
  have herror : s'.asyncError = s.asyncError := congrArg Background.asyncError hbackground
  have hwaiting : s'.newQueries = s.newQueries := congrArg Background.newQueries hbackground
  constructor
  case queryLatest => exact fun cursor u hcursor => h.queryLatest cursor u (hquery ▸ hcursor)
  case held =>
    intro hnone hne
    rw [hadvancer, hwaiting]
    exact h.held (herror ▸ hnone) (hwaiting ▸ hne)

/-! ## What the pipeline makes of it -/

theorem swept (h : Pinned w s) (dead : QueryId → Bool) : Pinned w (s.swept dead) where
  queryLatest cursor u hcursor hu := by
    dsimp only [Coordinator.swept] at hcursor
    split at hcursor
    · -- the cursor has stopped reading
      obtain ⟨before, -, rfl⟩ := Option.map_eq_some_iff.mp hcursor
      cases hu
    · exact h.queryLatest cursor u hcursor hu
  held hnone hwaiting := by
    obtain ⟨q, hq⟩ := List.exists_mem_of_ne_nil _ hwaiting
    rw [Coordinator.asyncError_swept_of_mem (.inr hq)] at hnone
    rw [Coordinator.advancer_swept_of_mem hq]
    have hmem := (Coordinator.mem_newQueries_swept.mp hq).1
    obtain ⟨cursor, u, hcursor, hu, hle, hfrom⟩ := h.held hnone (List.ne_nil_of_mem hmem)
    exact ⟨cursor, u, hcursor, hu, hle,
      fun p hp => hfrom p (Coordinator.mem_newQueries_swept.mp hp).1⟩

/-- A registration holds the version of its query. -/
theorem registered (h : Pinned w s) {config : Config} {q : QueryId}
    (hpin : PinOutcome w config (w.query q).version s s') :
    Pinned w { s' with newQueries := s'.newQueries ++ [q] } := by
  cases hpin with
  | skipped hfailed =>
    exact { h with held := fun hnone => by rw [hnone] at hfailed; cases hfailed }
  | captured advancer failure hsame => exact { h with held := fun hnone => nomatch hnone }
  | held cursor u hnone hu hle hcursor hlatest hother =>
    -- what is held from now on is not later than what was held before
    have hheld : s.newQueries ≠ [] → ∃ ahead v, s.advancer = some ahead ∧
        v ≤ (w.file ahead.file).latest ∧ u ≤ v ∧ ∀ p ∈ s.newQueries, v ≤ (w.query p).version := by
      intro hwaiting
      obtain ⟨ahead, v, hahead, hv, hvle, hfrom⟩ := h.held hnone hwaiting
      exact ⟨ahead, v, hahead, hvle, hother hwaiting ahead v hahead hv, hfrom⟩
    refine { h with held := fun _ _ => ⟨cursor, u, rfl, hu, ?_, fun p hp => ?_⟩ }
    · rcases hlatest with hlatest | ⟨hwaiting, hkept⟩
      · exact hlatest
      · obtain ⟨ahead, v, hahead, hvle, huv, -⟩ := hheld hwaiting
        rw [hkept, Option.some_inj] at hahead
        rw [hahead]
        exact Version.le_trans huv hvle
    · rcases List.mem_append.mp hp with hold | hnew
      · obtain ⟨ahead, v, -, -, huv, hfrom⟩ := hheld (List.ne_nil_of_mem hold)
        exact Version.le_trans huv (hfrom p hold)
      · rw [List.mem_singleton.mp hnew]
        exact hle

/-- When nothing waits any more, nothing needs to be held. -/
theorem idle (h : Pinned w s) (hquery : s'.queryCursor = s.queryCursor)
    (hwaiting : s'.newQueries = []) : Pinned w s' where
  queryLatest cursor u hcursor := h.queryLatest cursor u (hquery ▸ hcursor)
  held _ hne := absurd hwaiting hne

/-- A query cursor that is made to read starts at the latest version. -/
theorem readied (h : Pinned w s) {config : Config} (hready : ReadyOutcome w config s s') :
    Pinned w s' := by
  cases hready with
  | captured failure => exact { h with held := fun hnone => nomatch hnone }
  | kept cursor u hcursor hu hmain => exact h
  | started cursor hcursor hu hmain =>
    refine { h with queryLatest := fun moved u hmoved hat => ?_ }
    obtain rfl : cursor = moved := Option.some_inj.mp hmoved
    rw [hu, Option.some_inj] at hat
    rw [hat]
    exact Version.le_refl _

end Pinned

/-! ## The import of a cycle -/

/-- What a cycle of coordinator `c` comes to that began in `w` and reached its import in `w₁`, where
it read the logs of file `f`: they were taken in or refused, and nothing else went wrong. -/
inductive Reached (c : CoordinatorId) (f : FileId) (read : ChangeRecorder × Option Failure)
    (w₁ w' : World) : Except Failure (Option Step.Cycle) → Prop where
  | accepted (hread : read.2 = none) (himported : Accepted c f w₁ w') :
      Reached c f read w₁ w' (.ok (some ⟨(w'.coordinator c).queries, read.1.changes⟩))
  | refused (w₂ : World) (captured : Failure) (hread : read.2 ≠ none)
      (hconsistency : captured.isConsistency) (himported : Refused c f w₁ w₂)
      (hbecomes : Becomes c
        { w₂.coordinator c with
          asyncError := some captured
          queries := (w₂.coordinator c).queries ++ (w₂.coordinator c).newQueries
          newQueries := [] } w₂ w') :
      Reached c f read w₁ w' (.error captured)

/-- The invariant reaches the import. -/
theorem Opened.pinned {c : CoordinatorId} {config : Config} {w w₁ : World}
    (h : Opened c config w w₁) (hpinned : Pinned w (w.coordinator c)) :
    Pinned w₁ (w₁.coordinator c) :=
  ((hpinned.swept w.isDead).readied h.ready).within h.within

/-- So when the import begins, both cursors are where they have to be. -/
theorem Opened.poised {c : CoordinatorId} {config : Config} {w w₁ : World}
    (h : Opened c config w w₁) (haimed : Aimed (w.coordinator c))
    (hpinned : Pinned w (w.coordinator c)) :
    ∃ f u, config.file? = some f ∧ (w₁.coordinator c).queryCursor = some ⟨f, some u⟩ ∧
      u ≤ (w₁.file f).latest ∧
      ((w₁.coordinator c).newQueries ≠ [] → ∃ ahead v,
        (w₁.coordinator c).advancer = some ahead ∧ ahead.file = f ∧ ahead.current = some v ∧
          v ≤ (w₁.file f).latest ∧
            ∀ q ∈ (w₁.coordinator c).newQueries, v ≤ (w₁.query q).version) := by
  have hthen := h.pinned hpinned
  have hon := h.aimed haimed
  obtain ⟨⟨f, current⟩, u, hcursor, rfl⟩ := h.reads
  have hf := hon.query f (by rw [hcursor]; rfl)
  refine ⟨f, u, h.file?.symm.trans hf, hcursor, hthen.queryLatest _ u hcursor rfl,
    fun hwaiting => ?_⟩
  obtain ⟨ahead, v, hahead, hv, hle, hfrom⟩ := hthen.held h.asyncError hwaiting
  have hsame : ahead.file = f := Option.some_inj.mp
    ((hon.advancer ahead.file (by rw [hahead]; rfl)).symm.trans hf)
  rw [hsame] at hle
  exact ⟨ahead, v, hahead, hsame, hv, hle, hfrom⟩

/-- With both cursors where they have to be, a cycle that has something to run reaches its import,
and only the logs can be refused. -/
theorem CycleOutcome.reached {c : CoordinatorId} {w w' : World}
    {outcome : Except Failure (Option Step.Cycle)} (h : CycleOutcome c w w' outcome)
    (haimed : Aimed (w.coordinator c)) (hpinned : Pinned w (w.coordinator c))
    (hreached : outcome ≠ .ok none) :
    ∃ config w₁ f u, Opened c config w w₁ ∧ config.file? = some f ∧
      (w₁.coordinator c).queryCursor = some ⟨f, some u⟩ ∧ u ≤ (w.file f).latest ∧
      Reached c f (LogReader.replay (ChangeRecorder.observing (w.observed
        ((w.sweptCoordinator c).queries ++ (w.sweptCoordinator c).newQueries)))
          ((w.file f).logsBetween u (w.file f).latest).flatten) w₁ w' outcome := by
  cases h with
  | unconfigured => exact absurd rfl hreached
  | idle => exact absurd rfl hreached
  | abandoned => exact absurd rfl hreached
  | refused config w₁ w₂ failure captured hopen himport hcaptured hbecomes =>
    obtain ⟨f, u, hf, hcursor, hule, hheld⟩ := hopen.poised haimed hpinned
    refine ⟨config, w₁, f, u, hopen, hf, hcursor, hopen.file f ▸ hule, ?_⟩
    rw [← hopen.file f]
    obtain ⟨w₃, hrun, -, hrefused⟩ := Step.run_importAndReplay (.observing (w.observed
      ((w.sweptCoordinator c).queries ++ (w.sweptCoordinator c).newQueries))) hf hcursor rfl rfl
      hule hheld
    rw [himport] at hrun
    obtain ⟨rfl, hout⟩ := Prod.mk.inj hrun
    unfold Step.outcomeOf at hout
    split at hout
    · cases hout
    · next refusal hread =>
      cases hout
      have hsome := Option.ne_none_iff_exists'.mpr ⟨_, hread⟩
      refine .refused w₂ captured hsome ?_ (hrefused hsome) hbecomes
      rw [hcaptured]
      exact ChangeRecorder.isConsistency_of_replay hread
  | begun config w₁ changes hopen himport =>
    obtain ⟨f, u, hf, hcursor, hule, hheld⟩ := hopen.poised haimed hpinned
    refine ⟨config, w₁, f, u, hopen, hf, hcursor, hopen.file f ▸ hule, ?_⟩
    rw [← hopen.file f]
    obtain ⟨w₃, hrun, haccepted, -⟩ := Step.run_importAndReplay (.observing (w.observed
      ((w.sweptCoordinator c).queries ++ (w.sweptCoordinator c).newQueries))) hf hcursor rfl rfl
      hule hheld
    rw [himport] at hrun
    obtain ⟨rfl, hout⟩ := Prod.mk.inj hrun
    unfold Step.outcomeOf at hout
    split at hout
    · next hread =>
      cases hout
      exact .accepted hread (haccepted hread)
    · cases hout

/-! ## What one section preserves -/

/-- After an import the advancer holds the latest version for the deferred queries. -/
theorem Accepted.pinned {c : CoordinatorId} {f : FileId} {w w' : World} (h : Accepted c f w w') :
    Pinned w' (w'.coordinator c) := by
  constructor
  case queryLatest =>
    intro cursor u hcursor hu
    rw [h.queryCursor] at hcursor
    cases hcursor
    cases hu
    exact h.within.latest f ▸ Version.le_refl _
  case held =>
    intro _ hdeferred
    rw [h.waiting] at hdeferred ⊢
    have hwaiting : (w.coordinator c).newQueries ≠ [] := fun hnil =>
      hdeferred (w.deferred_of_nil c _ hnil)
    refine ⟨_, (w.file f).latest, h.advancer hwaiting, ?_, h.within.latest f ▸ Version.le_refl _,
      fun q hq => ?_⟩
    · rw [if_neg (by simpa using hdeferred)]
    · rw [h.within.query]
      exact Version.le_of_lt ((w.mem_deferred c _).mp hq).2

/-- The start of a cycle leaves the invariant of its coordinator intact. -/
theorem CycleOutcome.pinned {c : CoordinatorId} {w w' : World}
    {outcome : Except Failure (Option Step.Cycle)} (h : CycleOutcome c w w' outcome)
    (haimed : Aimed (w.coordinator c)) (hpinned : Pinned w (w.coordinator c)) :
    Pinned w' (w'.coordinator c) := by
  have hwithin := h.within
  have hswept : Pinned w' (w.sweptCoordinator c) := (hpinned.swept w.isDead).within hwithin
  by_cases hreached : outcome ≠ .ok none
  · obtain ⟨config, w₁, f, u, hopened, -, -, -, hcase⟩ := h.reached haimed hpinned hreached
    cases hcase with
    | accepted hread himported => exact himported.pinned
    | refused w₂ captured hread hconsistency himported hbecomes =>
      have hthen := ((hopened.pinned hpinned).within himported.within).within hbecomes.within
      rw [hbecomes.self]
      exact hthen.idle himported.queryCursor rfl
  · cases h with
    | unconfigured hconfig hsame =>
      rw [hsame]
      exact hpinned
    | idle _ hself hmain hwaiting =>
      rw [hself]
      exact hswept
    | abandoned _ hleft hmain hwaiting hquery hadvancer hfailed => exact hswept.idle hquery hwaiting
    | refused => exact absurd nofun hreached
    | begun => exact absurd nofun hreached

namespace Moment

/-- The rule `Moment.AllowsKept`, and beside it: the waiting queries of coordinator `c` keep their
versions. -/
def AllowsSteady (c : CoordinatorId) (m : Moment) (s : Section) : Prop :=
  m.AllowsKept c s ∧
    match s with
    | .setVersion q _ => q ∉ (m.world.coordinator c).newQueries
    | _ => True

instance (c : CoordinatorId) (m : Moment) : (s : Section) → Decidable (m.AllowsSteady c s)
  | .setVersion .. => inferInstanceAs (Decidable (_ ∧ _ ∉ _))
  | .chore _ | .kill _ | .register .. | .beginCycle _ | .startRun .. | .concludeCycle .. =>
    inferInstanceAs (Decidable (_ ∧ True))

/-- A registration changes no query. -/
theorem version_register (m : Moment) (d : CoordinatorId) (p q : QueryId) :
    ((m.perform (.register d p)).world.query q).version = (m.world.query q).version := by
  cases hconfig : (m.world.coordinator d).config with
  | none =>
    rw [perform_register_of_none hconfig]
  | some config =>
    obtain ⟨w', s, hrun, hwithin, -, -⟩ := Step.run_registerQuery hconfig p
    rw [perform_register hrun]
    exact congrArg Query.version (hwithin.query q)

/-- By that rule a query that waits keeps its version. -/
theorem version_perform {c : CoordinatorId} {m : Moment} {s : Section}
    (hallowed : m.AllowsSteady c s) (haccounted : Accounted m) {q : QueryId}
    (hq : q ∈ (m.world.coordinator c).newQueries) :
    ((m.perform s).world.query q).version = (m.world.query q).version := by
  have hregistered := haccounted.listed q c (Coordinator.mem_lists.mpr (.inr hq))
  cases s with
  | chore x => exact (x.undisturbed_perform m.world).version (haccounted.made q c hregistered)
  | kill p =>
    show ((m.world.onQuery p _).query q).version = _
    rw [World.query_onQuery]
    split
    · next hp => rw [hp]
    · rfl
  | setVersion p version =>
    show ((m.world.onQuery p _).query q).version = _
    rw [World.query_onQuery, if_neg fun heq : q = p => hallowed.2 (heq ▸ hq)]
  | register d p => exact m.version_register d p q
  | beginCycle d =>
    obtain ⟨w', outcome, hrun, houtcome⟩ := Step.run_beginCycle d m.world
    rw [world_beginCycle hrun]
    exact congrArg Query.version (houtcome.within.query q)
  | startRun changes p => rfl
  | concludeCycle d queries =>
    obtain ⟨w₁, w', hrun, hover, hwithin, -, -⟩ := Step.run_concludeCycle d queries m.world
    -- the queries that hand over were run, so they do not wait
    have hstays : q ∉ queries := by
      intro hmem
      obtain ⟨b, hb, rfl, rfl⟩ := hallowed.1.1
      obtain ⟨hrunning, hnot⟩ := haccounted.running b hb q hmem
      rw [haccounted.once q b.1 c hrunning hregistered] at hnot
      exact hnot hq
    dsimp only [perform]
    rw [hrun]
    exact congrArg Query.version ((hwithin.query q).trans (hover.others q hstays))

end Moment

/-- The step lemma. -/
theorem Pinned.perform {c : CoordinatorId} {m : Moment} {s : Section}
    (hallowed : m.AllowsSteady c s) (haccounted : Accounted m)
    (haimed : Aimed (m.world.coordinator c)) (h : Pinned m.world (m.world.coordinator c)) :
    Pinned (m.perform s).world ((m.perform s).world.coordinator c) := by
  have hversion : ∀ q ∈ (m.world.coordinator c).newQueries,
      ((m.perform s).world.query q).version = (m.world.query q).version :=
    fun _ hq => Moment.version_perform hallowed haccounted hq
  -- what happens within another coordinator changes nothing
  have hother : ∀ {d w'}, Within d m.world w' → d ≠ c → Pinned w' (w'.coordinator c) := by
    intro d w' hwithin hd
    rw [hwithin.others c (Ne.symm hd)]
    exact h.within hwithin
  cases s with
  | chore x =>
    have hundisturbed := x.undisturbed_perform m.world
    have hthen := h.mono (fun f => File.latest_le_latest (hundisturbed.commits f)) hversion
    exact hthen.congr (hundisturbed.background c)
  | kill q => exact h.mono (fun f => Version.le_refl _) hversion
  | setVersion q version => exact h.mono (fun f => Version.le_refl _) hversion
  | register d q =>
    cases hconfig : (m.world.coordinator d).config with
    | none =>
      rw [Moment.perform_register_of_none hconfig]
      exact h
    | some config =>
      obtain ⟨w', s, hrun, hwithin, hself, hpin⟩ := Step.run_registerQuery hconfig q
      rw [Moment.perform_register hrun]
      by_cases hd : d = c
      · subst hd
        have hthen := (h.swept m.world.isDead).registered hpin
        dsimp only
        rw [hself]
        exact hthen.within hwithin
      · exact hother hwithin hd
  | beginCycle d =>
    obtain ⟨w', outcome, hrun, houtcome⟩ := Step.run_beginCycle d m.world
    rw [Moment.world_beginCycle hrun]
    by_cases hd : d = c
    · subst hd
      exact houtcome.pinned haimed h
    · exact hother houtcome.within hd
  | startRun changes q => exact h.mono (fun f => Version.le_refl _) hversion
  | concludeCycle d queries =>
    obtain ⟨w₁, w', hrun, hover, hwithin, hself, hengines⟩ :=
      Step.run_concludeCycle d queries m.world
    dsimp only [Moment.perform] at hversion ⊢
    rw [hrun] at hversion ⊢
    have hthen : Pinned w' (m.world.coordinator c) :=
      h.mono (fun f => World.file_congr hengines f ▸ Version.le_refl _) hversion
    by_cases hd : d = c
    · subst hd
      dsimp only
      rw [hself]
      exact hthen.swept m.world.isDead
    · dsimp only
      rw [hwithin.others c (Ne.symm hd), hover.coordinator]
      exact hthen

/-! ## Between any two sections -/

/-- A query that waits was not run yet. -/
theorem not_mem_runs_of_waiting {sections : List Section}
    (hallowed : Moment.start.Follows Moment.Allows sections) {c : CoordinatorId} {q : QueryId}
    (hq : q ∈ ((Moment.start.after sections).world.coordinator c).newQueries) (changes : Changes) :
    (q, changes) ∉ (Moment.start.after sections).world.runs := by
  have haccounted := Accounted.start.after hallowed
  intro hrun
  obtain ⟨b, hb, -, hmem⟩ := Moment.begun_of_mem_runs hallowed _ hrun
  obtain ⟨hrunning, hnot⟩ := haccounted.running b hb q hmem
  have hlisted := haccounted.listed q c (Coordinator.mem_lists.mpr (.inr hq))
  rw [haccounted.once q b.1 c hrunning hlisted] at hnot
  exact hnot hq

/-- The run lemma. -/
theorem Pinned.after {c : CoordinatorId} {sections : List Section}
    (hallowed : Moment.start.Follows (Moment.AllowsSteady c) sections) :
    Pinned (Moment.start.after sections).world
      ((Moment.start.after sections).world.coordinator c) := by
  have hall := hallowed.preserves
    (I := fun m => Accounted m ∧ Aimed (m.world.coordinator c) ∧
      Pinned m.world (m.world.coordinator c))
    (fun m s hs ⟨haccounted, haimed, hpinned⟩ => ⟨haccounted.perform s hs.1.1,
      haimed.perform hs.1, hpinned.perform hs haccounted haimed⟩)
    ⟨.start, ⟨fun hne => absurd rfl hne, nofun, nofun⟩, ⟨nofun, fun _ hne => absurd rfl hne⟩⟩
  exact hall.2.2

/-- **The advancer holds the earliest waiting version.** Let every query be registered once, let
coordinator `c` keep its configuration, and let its waiting queries keep their versions. Then
between any two sections in which no failure is captured and queries wait, the advancer reads a
version that exists and that none of them is behind.

So a cycle that reaches its import attaches every ready query to the advancer, once, while that
reads the version of the query. If the logs are refused, that was all. Otherwise every ready query
is moved over to the query cursor, once and before its first run, and the queries that are ahead of
the latest version go on waiting. -/
theorem advancer_holds_earliest {c : CoordinatorId} {sections : List Section}
    (hallowed : Moment.start.Follows (Moment.AllowsSteady c) sections) :
    let w := (Moment.start.after sections).world
    ((w.coordinator c).asyncError = none → (w.coordinator c).newQueries ≠ [] → ∃ f u,
      (w.coordinator c).file? = some f ∧ (w.coordinator c).advancer = some ⟨f, some u⟩ ∧
        u ≤ (w.file f).latest ∧ ∀ q ∈ (w.coordinator c).newQueries, u ≤ (w.query q).version) ∧
    ∀ w' outcome, (Step.beginCycle c).run w = (w', outcome) → outcome ≠ .ok none →
      ∃ f ready, (w.coordinator c).file? = some f ∧ ready.Nodup ∧
        (∀ q, q ∈ ready ↔ q ∈ w.importable c) ∧ w'.queries = w.queries ∧
        match outcome with
        | .ok none => False
        | .ok (some cycle) =>
          w'.trace = w.trace ++ w.releases c ++ Step.lifts w ready ++
              Step.moves ready (some (w.file f).latest) ∧
            (w'.coordinator c).queryCursor = some ⟨f, some (w.file f).latest⟩ ∧
            (∀ q ∈ ready, q ∈ cycle.queries ∧ ∀ changes, (q, changes) ∉ w'.runs) ∧
            ∀ q, q ∈ (w'.coordinator c).newQueries ↔ q ∈ (w.coordinator c).newQueries ∧
              (w.query q).alive ∧ (w.file f).latest < (w.query q).version
        | .error captured =>
          captured.isConsistency ∧ w'.trace = w.trace ++ w.releases c ++ Step.lifts w ready ∧
            (ready ≠ [] → (w'.coordinator c).advancer = some ⟨f, some (w.file f).latest⟩) := by
  have hplain := hallowed.mono fun _ _ h => h.1.1
  have haccounted := Accounted.start.after hplain
  have haimed := Aimed.after (hallowed.mono fun _ _ => And.left)
  have hpinned := Pinned.after hallowed
  intro w
  refine ⟨fun hnone hwaiting => ?_, fun w' outcome hrun hreached => ?_⟩
  · obtain ⟨⟨f, current⟩, u, hcursor, rfl, hle, hfrom⟩ := hpinned.held hnone hwaiting
    exact ⟨f, u, haimed.advancer f (by rw [hcursor]; rfl), hcursor, hle, hfrom⟩
  · obtain ⟨w₂, outcome₂, hrun₂, houtcome⟩ := Step.run_beginCycle c w
    rw [hrun] at hrun₂
    obtain ⟨rfl, rfl⟩ := Prod.mk.inj hrun₂
    obtain ⟨config, w₁, f, u, hopened, hf, -, -, hcase⟩ := houtcome.reached haimed hpinned hreached
    have hfile : (w.coordinator c).file? = some f := by
      rw [Coordinator.file?, hopened.configured]
      exact hf
    have hlatest : (w₁.file f).latest = (w.file f).latest := hopened.within.latest f
    have hwaiting : ∀ q, q ∈ (w₁.coordinator c).newQueries ↔
        q ∈ (w.coordinator c).newQueries ∧ (w.query q).alive := by
      intro q
      rw [hopened.waiting]
      exact World.mem_newQueries_sweptCoordinator
    have hready : ∀ q, q ∈ w₁.ready c (w.file f).latest ↔ q ∈ w.importable c := by
      intro q
      rw [World.mem_ready, hwaiting, hopened.within.query, World.importable, hfile, List.mem_filter,
        Bool.and_eq_true, decide_eq_true_eq, and_assoc]
    have hnodup : (w₁.ready c (w.file f).latest).Nodup := by
      refine (w₁.ready_perm c _).nodup_iff.mpr (List.Nodup.filter _ ?_)
      rw [hopened.waiting]
      exact (haccounted.nodup_lists c).of_append_right
    have hlifts : Step.lifts w₁ (w₁.ready c (w.file f).latest) =
        Step.lifts w (w₁.ready c (w.file f).latest) := by
      unfold Step.lifts
      simp only [hopened.within.query]
    refine ⟨f, w₁.ready c (w.file f).latest, hfile, hnodup, hready, houtcome.within.queries, ?_⟩
    cases hcase with
    | accepted hread himported =>
      have htrace := himported.trace
      have hdeferred := himported.waiting
      have hmain := himported.main
      rw [hlatest] at htrace hdeferred hmain
      refine ⟨?_, ?_, fun q hq => ⟨?_, fun changes => ?_⟩, fun q => ?_⟩
      · rw [htrace, hopened.trace, hlifts]
      · rw [himported.queryCursor, hlatest]
      · show q ∈ (w'.coordinator c).queries
        rw [hmain]
        exact List.mem_append_right _ hq
      · rw [houtcome.within.runs]
        exact not_mem_runs_of_waiting hplain
          (World.mem_newQueries_of_importable ((hready q).mp hq)) changes
      · rw [hdeferred, World.mem_deferred, hwaiting, hopened.within.query, and_assoc]
    | refused w₂ captured hread hconsistency himported hbecomes =>
      have htrace := himported.trace
      rw [hlatest] at htrace
      refine ⟨hconsistency, ?_, fun hne => ?_⟩
      · rw [hbecomes.trace, htrace, hopened.trace, hlifts]
      · rw [hbecomes.self, ← hlatest]
        refine himported.advancer fun hnil => hne ?_
        exact w₁.ready_of_nil c _ hnil

/-- Four queries are registered at versions in no order, one of them ahead of the latest version;
one of the others dies. -/
def mixedVersions : List Section :=
  [.chore .makeEngine, .chore .makeRegistry, .chore (.getCoordinator 0 "/a"),
    .chore (.getHandle 0 none (.forFile "/a" 0)), .chore (.commit (.forFile "/a" 0) []),
    .chore (.makeQuery none [] ⟨2, 0⟩), .chore (.makeQuery none [] ⟨9, 0⟩),
    .chore (.makeQuery none [] ⟨1, 0⟩), .chore (.makeQuery none [] ⟨2, 0⟩), .register 0 0,
    .register 0 1, .register 0 2, .register 0 3, .kill 0]

/-- The advancer holds a version that no waiting query is behind. The next cycle imports two of the
live queries; the one that is ahead goes on waiting. -/
theorem advancer_holds_earliest_mixedVersions :
    let w := (Moment.start.after mixedVersions).world
    Moment.start.Follows (Moment.AllowsSteady 0) mixedVersions ∧
      (∃ f u, (w.coordinator 0).advancer = some ⟨f, some u⟩ ∧
        ∀ q ∈ (w.coordinator 0).newQueries, u ≤ (w.query q).version) ∧
      ∃ w' cycle, (Step.beginCycle 0).run w = (w', .ok (some cycle)) ∧
        2 ∈ cycle.queries ∧ 3 ∈ cycle.queries ∧ 1 ∈ (w'.coordinator 0).newQueries := by
  intro w
  have hallowed : Moment.start.Follows (Moment.AllowsSteady 0) mixedVersions := by decide +kernel
  obtain ⟨hheld, hcycles⟩ := advancer_holds_earliest hallowed
  obtain ⟨f, u, -, hcursor, -, hfrom⟩ := hheld (by decide +kernel) (by decide +kernel)
  have hbegins : (((Step.beginCycle 0).run w).2.toOption.join).isSome := by decide +kernel
  rcases hrun : (Step.beginCycle 0).run w with ⟨w', failure | _ | cycle⟩
  · rw [hrun] at hbegins
    cases hbegins
  · rw [hrun] at hbegins
    cases hbegins
  · obtain ⟨g, ready, hg, -, hready, -, -, -, hmain, hwaiting⟩ := hcycles w' _ hrun nofun
    obtain rfl : g = ⟨0, "/a"⟩ := (Option.some_inj.mp (hg.symm.trans (by decide +kernel)))
    refine ⟨hallowed, ⟨f, u, hcursor, hfrom⟩, w', cycle, rfl, ?_, ?_, ?_⟩
    · exact (hmain 2 ((hready 2).mpr (by decide +kernel))).1
    · exact (hmain 3 ((hready 3).mpr (by decide +kernel))).1
    · exact (hwaiting 1).mpr (by decide +kernel)

end SnapshotCoordination
