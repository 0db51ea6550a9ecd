import SnapshotCoordination.Proofs.Coordination.Importing

/-!
# What a registration and the start of a cycle do

The steps of the pipeline that a coordinator is asked to make from outside, each with all it can
come to:

* **`run_pinVersion`**, **`run_registerQuery`** — a registration sweeps the coordinator, holds the
  version of the query on the advancer unless a failure is captured (`PinOutcome`), and lets the
  query wait;
* **`run_readyQueryCursor`**, **`run_beginCycle`** — a cycle sweeps the coordinator, has the query
  cursor read and imports (`CycleOutcome`);
* **`run_concludeCycle`** — after the runs the queries hand over and the coordinator is swept once
  more.
-/

namespace SnapshotCoordination

/-! ## Changes of one coordinator -/

/-- From one world to the other files were looked at and coordinator `c` became `s`, its
configuration as before. -/
structure Becomes (c : CoordinatorId) (s : Coordinator) (w w' : World) : Prop where
  within : Within c w w'
  self : w'.coordinator c = s
  file : ∀ f, w'.file f = w.file f
  trace : w'.trace = w.trace

namespace Becomes

variable {c : CoordinatorId} {s : Coordinator} {w w' w₁ : World}

theorem refl (w : World) : Becomes c (w.coordinator c) w w := ⟨.refl w, rfl, fun _ => rfl, rfl⟩

theorem onCoordinator (h : Becomes c s w w₁) {f : Coordinator → Coordinator}
    (hconfig : (f s).config = s.config) : Becomes c (f s) w (w₁.onCoordinator c f) where
  within := h.within.trans (.onCoordinator w₁ (by rw [h.self]; exact hconfig))
  self := by rw [World.coordinator_onCoordinator_self, h.self]
  file := h.file
  trace := h.trace

theorem of_looked (h : Looked w w₁) : Becomes c (w.coordinator c) w w₁ where
  within := .of_looked h
  self := by rw [h.eq]; rfl
  file := h.file
  trace := by rw [h.eq]

end Becomes

namespace Step

variable {c : CoordinatorId} {config : Config}

theorem run_capturing_ok {s : Step Unit} {w w' : World} (h : s.run w = (w', .ok ())) :
    (capturing c s).run w = (w', .ok ()) := by
  unfold capturing
  have hattempt : s.attempt.run w = (w', .ok (.ok ())) := by rw [run_attempt, h]
  rw [run_bind_ok hattempt]
  rfl

theorem run_capturing_error {s : Step Unit} {w w' : World} {failure : Failure}
    (h : s.run w = (w', .error failure)) :
    (capturing c s).run w =
      (w'.onCoordinator c fun s => { s with asyncError := some (s.backgroundFailure failure) },
        .ok ()) := by
  unfold capturing
  have hattempt : s.attempt.run w = (w', .ok (.error failure)) := by rw [run_attempt, h]
  rw [run_bind_ok hattempt]
  rfl

/-! ## Registration -/

end Step

/-- What holding a version on the advancer makes of a coordinator. -/
inductive PinOutcome (w : World) (config : Config) (version : Version) (s : Coordinator) :
    Coordinator → Prop where
  /-- With a captured failure nothing is held. -/
  | skipped (hfailed : s.asyncError.isSome) : PinOutcome w config version s s
  /-- The version cannot be held. -/
  | captured (advancer : Option Cursor) (failure : Failure)
      (hfile : advancer.map (·.file) = s.advancer.map (·.file)) :
      PinOutcome w config version s { s with advancer := advancer, asyncError := some failure }
  /-- The advancer reads a version that neither the query nor one that waits already is behind. -/
  | held (cursor : Cursor) (u : Version) (hnone : s.asyncError = none)
      (hu : cursor.current = some u) (hle : u ≤ version)
      (hfile : config.file? = some cursor.file ∨ s.advancer.map (·.file) = some cursor.file)
      (hlatest : u ≤ (w.file cursor.file).latest ∨ s.newQueries ≠ [] ∧ s.advancer = some cursor)
      (hother : s.newQueries ≠ [] → ∀ ahead v, s.advancer = some ahead → ahead.current = some v →
        u ≤ v) :
      PinOutcome w config version s { s with advancer := some cursor }

namespace PinOutcome

variable {w w₁ : World} {config : Config} {version : Version} {s s' : Coordinator}

theorem main (h : PinOutcome w config version s s') : s'.queries = s.queries := by
  cases h <;> rfl

theorem waiting (h : PinOutcome w config version s s') : s'.newQueries = s.newQueries := by
  cases h <;> rfl

theorem queryCursor (h : PinOutcome w config version s s') : s'.queryCursor = s.queryCursor := by
  cases h <;> rfl

/-- Holding a version looks at nothing but the files. -/
theorem congr (h : PinOutcome w₁ config version s s') (hfile : ∀ f, w₁.file f = w.file f) :
    PinOutcome w config version s s' := by
  cases h with
  | skipped hfailed => exact .skipped hfailed
  | captured advancer failure hfile => exact .captured advancer failure hfile
  | held cursor u hnone hu hle hcursor hlatest hother =>
    rw [hfile] at hlatest
    exact .held cursor u hnone hu hle hcursor hlatest hother

end PinOutcome

namespace Step

variable {c : CoordinatorId} {config : Config}

/-- Starting to read on the advancer, if it goes well. -/
theorem run_beginAdvancerRead (cursor : Cursor) (version : Version) (w : World) :
    (∃ failure, (beginAdvancerRead c cursor (some version)).run w = (w, .error failure)) ∨
      (beginAdvancerRead c cursor (some version)).run w =
        (w.onCoordinator c fun s =>
          { s with advancer := some { cursor with current := some version } }, .ok ()) ∧
        version ≤ (w.file cursor.file).latest := by
  unfold beginAdvancerRead
  rw [run_bind_ok (run_world w)]
  cases hread : cursor.beginRead (w.fileOf cursor) (some version) with
  | error failure => exact .inl ⟨failure, rfl⟩
  | ok cursor' =>
    obtain ⟨rfl, hle⟩ := Cursor.beginRead_eq_ok hread
    exact .inr ⟨rfl, hle⟩

/-- **Holding a version.** The step never fails; a failure to read is captured. -/
theorem run_pinVersion (config : Config) (version : Version) (w : World) :
    ∃ w' s, (pinVersion c config version).run w = (w', .ok ()) ∧ Becomes c s w w' ∧
      PinOutcome w config version (w.coordinator c) s := by
  unfold pinVersion
  rw [run_bind_ok (run_coordinator c w)]
  cases hfailed : (w.coordinator c).asyncError with
  | some failure => exact ⟨w, _, rfl, .refl w, .skipped (by rw [hfailed]; rfl)⟩
  | none =>
    rw [if_neg (by simp)]
    cases hadvancer : (w.coordinator c).advancer with
    | none =>
      dsimp only
      -- there is no advancer yet, so one is opened at the version
      have hlooked := stays_openCursorAt config (some version) w
      rcases hopen : (openCursorAt config (some version)).run w with ⟨w₁, failure | cursor⟩
      · rw [hopen] at hlooked
        refine ⟨_, _, run_capturing_error (run_bind_error hopen _),
          (Becomes.of_looked hlooked).onCoordinator rfl, ?_⟩
        exact .captured _ _ rfl
      · rw [hopen] at hlooked
        obtain ⟨hfile, hu, hle⟩ := openCursorAt_eq_ok hopen
        refine ⟨_, _, run_capturing_ok (run_bind_ok hopen _),
          (Becomes.of_looked hlooked).onCoordinator rfl, ?_⟩
        exact .held cursor version hfailed hu (Version.le_refl _) (.inl hfile) (.inl hle)
          fun _ ahead v h => by rw [hadvancer] at h; cases h
    | some cursor =>
      dsimp only
      have hsame : some cursor.file = (w.coordinator c).advancer.map (·.file) := by
        rw [hadvancer]
        rfl
      by_cases hwaiting : (w.coordinator c).newQueries = []
      · rw [if_pos (by rw [hwaiting]; rfl)]
        -- nothing waits, so the advancer may start anywhere
        rcases run_beginAdvancerRead cursor version w with ⟨failure, hread⟩ | ⟨hread, hle⟩
        · refine ⟨_, _, run_capturing_error hread, (Becomes.refl w).onCoordinator rfl, ?_⟩
          exact .captured _ _ rfl
        · refine ⟨_, _, run_capturing_ok hread, (Becomes.refl w).onCoordinator rfl, ?_⟩
          exact .held _ version hfailed rfl (Version.le_refl _) (.inr hsame.symm) (.inl hle)
            fun h => absurd hwaiting h
      · rw [if_neg (by simpa using hwaiting)]
        by_cases hahead : cursor.current.elim true (version < ·)
        · -- the advancer is ahead of the query, or does not read
          rw [if_pos hahead]
          have hended := Becomes.onCoordinator (c := c) (.refl w)
            (f := fun s => { s with advancer := some cursor.endRead }) rfl
          rcases run_beginAdvancerRead (c := c) cursor.endRead version _ with
            ⟨failure, hread⟩ | ⟨hread, hle⟩
          · refine ⟨_, _, run_capturing_error hread, hended.onCoordinator rfl, ?_⟩
            exact .captured _ _ (by rw [hadvancer]; rfl)
          · refine ⟨_, _, run_capturing_ok hread, hended.onCoordinator rfl, ?_⟩
            refine .held _ version hfailed rfl (Version.le_refl _) (.inr hsame.symm) (.inl hle) ?_
            intro _ ahead v h hv
            rw [hadvancer, Option.some_inj] at h
            rw [h, hv] at hahead
            exact Version.le_of_lt (of_decide_eq_true hahead)
        · rw [if_neg hahead]
          -- the advancer reads a version that is no later, and stays where it is
          refine ⟨_, _, run_capturing_ok (run_pure () w), .refl w, ?_⟩
          cases hu : cursor.current with
          | none => rw [hu] at hahead; exact absurd rfl hahead
          | some u =>
            rw [hu] at hahead
            have hle : u ≤ version := Version.not_lt.mp fun h => hahead (decide_eq_true h)
            have hheld : PinOutcome w config version (w.coordinator c)
                { w.coordinator c with advancer := some cursor } := by
              refine .held cursor u hfailed hu hle (.inr hsame.symm) (.inr ⟨hwaiting, hadvancer⟩) ?_
              intro _ ahead v h hv
              rw [hadvancer, Option.some_inj] at h
              rw [h, hv, Option.some_inj] at hu
              rw [hu]
              exact Version.le_refl _
            rwa [show ({ w.coordinator c with advancer := some cursor } : Coordinator) =
              w.coordinator c by rw [← hadvancer]] at hheld

/-- Nothing can be registered before a file was opened. -/
theorem run_registerQuery_of_none {w : World} (h : (w.coordinator c).config = none) (q : QueryId) :
    (registerQuery c q).run w = (w, .error (.notOpen (w.coordinator c).path)) := by
  unfold registerQuery
  rw [run_bind_ok (run_coordinator c w), Coordinator.config?, h]
  rfl

/-- **Registration.** Once a file was opened it never fails. The coordinator is swept, the version
of the query held, and the query waits behind all others. -/
theorem run_registerQuery {w : World} (h : (w.coordinator c).config = some config) (q : QueryId) :
    ∃ w' s, (registerQuery c q).run w = (w', .ok ()) ∧ Within c w w' ∧
      w'.coordinator c = { s with newQueries := s.newQueries ++ [q] } ∧
      PinOutcome w config (w.query q).version (w.sweptCoordinator c) s := by
  obtain ⟨w₁, hclean, hwithin, hswept, -, hengines⟩ := run_cleanUp c w
  obtain ⟨w₂, s, hpin, hbecomes, houtcome⟩ := run_pinVersion (c := c) config
    (w.query q).version w₁
  rw [hswept] at houtcome
  refine ⟨_, s, ?_, hwithin.trans (hbecomes.onCoordinator rfl).within,
    (hbecomes.onCoordinator (f := fun s => { s with newQueries := s.newQueries ++ [q] }) rfl).self,
    ?_⟩
  · unfold registerQuery
    rw [run_bind_ok (run_coordinator c w), Coordinator.config?, h,
      run_bind_ok (run_ofExcept (.ok config) w), run_bind_ok (run_world w), run_bind_ok hclean,
      run_bind_ok hpin]
    rfl
  · exact houtcome.congr fun f => World.file_congr hengines f

/-! ## The start of a cycle -/

end Step

/-- What getting the query cursor ready makes of a coordinator. -/
inductive ReadyOutcome (w : World) (config : Config) (s : Coordinator) : Coordinator → Prop where
  /-- It cannot read. -/
  | captured (failure : Failure) : ReadyOutcome w config s { s with asyncError := some failure }
  /-- A query in main rotation depends on where it is, so it stays there. -/
  | kept (cursor : Cursor) (u : Version) (hcursor : s.queryCursor = some cursor)
      (hu : cursor.current = some u) (hmain : s.queries ≠ []) : ReadyOutcome w config s s
  /-- It starts at the latest version. -/
  | started (cursor : Cursor)
      (hfile : config.file? = some cursor.file ∨ s.queryCursor.map (·.file) = some cursor.file)
      (hu : cursor.current = some (w.file cursor.file).latest)
      (hmain : s.queries ≠ [] → ∀ old, s.queryCursor = some old → old.current = none) :
      ReadyOutcome w config s { s with queryCursor := some cursor }

namespace ReadyOutcome

variable {w w₁ : World} {config : Config} {s s' : Coordinator}

theorem main (h : ReadyOutcome w config s s') : s'.queries = s.queries := by
  cases h <;> rfl

theorem waiting (h : ReadyOutcome w config s s') : s'.newQueries = s.newQueries := by
  cases h <;> rfl

theorem advancer (h : ReadyOutcome w config s s') : s'.advancer = s.advancer := by
  cases h <;> rfl

/-- The query cursor stays as it is if it cannot read. -/
theorem queryCursor (h : ReadyOutcome w config s s') (hfailed : s'.asyncError.isSome)
    (hnone : s.asyncError = none) : s'.queryCursor = s.queryCursor := by
  cases h with
  | captured failure => rfl
  | kept cursor u hcursor hu hmain => rfl
  | started cursor hfile hu hmain =>
    replace hfailed : s.asyncError.isSome := hfailed
    rw [hnone] at hfailed
    cases hfailed

/-- Getting the query cursor ready looks at nothing but the files. -/
theorem congr (h : ReadyOutcome w₁ config s s') (hfile : ∀ f, w₁.file f = w.file f) :
    ReadyOutcome w config s s' := by
  cases h with
  | captured failure => exact .captured failure
  | kept cursor u hcursor hu hmain => exact .kept cursor u hcursor hu hmain
  | started cursor hcursor hu hmain =>
    rw [hfile] at hu
    exact .started cursor hcursor hu hmain

end ReadyOutcome

namespace Step

variable {c : CoordinatorId} {config : Config}

/-- What can fail while the query cursor is got ready. -/
def openQueryCursor (c : CoordinatorId) (config : Config) : Step Unit := do
  let s ← coordinator c
  match s.queryCursor with
  | none => do
    let cursor ← openCursorAt config none
    onCoordinator c fun s => { s with queryCursor := some cursor }
  | some cursor =>
    if s.queries.isEmpty || !cursor.isReading then beginQueryRead c cursor none else return

theorem run_openQueryCursor_of_none {w : World} (h : (w.coordinator c).queryCursor = none) :
    (openQueryCursor c config).run w = (do
      let cursor ← openCursorAt config none
      onCoordinator c fun s => { s with queryCursor := some cursor } : Step Unit).run w := by
  unfold openQueryCursor
  rw [run_bind_ok (run_coordinator c w), h]

theorem run_openQueryCursor_of_some {w : World} {cursor : Cursor}
    (h : (w.coordinator c).queryCursor = some cursor) :
    (openQueryCursor c config).run w =
      if (w.coordinator c).queries.isEmpty || !cursor.isReading then
        (beginQueryRead c cursor none).run w
      else (w, .ok ()) := by
  unfold openQueryCursor
  rw [run_bind_ok (run_coordinator c w), h]
  dsimp only
  split <;> rfl

theorem run_beginQueryRead (cursor : Cursor) (w : World) :
    (∃ failure, (beginQueryRead c cursor none).run w = (w, .error failure)) ∨
      (beginQueryRead c cursor none).run w =
        (w.onCoordinator c fun s =>
          { s with
            queryCursor := some { cursor with current := some (w.file cursor.file).latest } },
          .ok ()) := by
  unfold beginQueryRead
  rw [run_bind_ok (run_world w)]
  cases hread : cursor.beginRead (w.fileOf cursor) none with
  | error failure => exact .inl ⟨failure, rfl⟩
  | ok cursor' =>
    obtain ⟨rfl, -⟩ := Cursor.beginRead_eq_ok hread
    exact .inr rfl

theorem run_openQueryCursor (w : World) :
    (∃ w' failure, (openQueryCursor c config).run w = (w', .error failure) ∧
      Becomes c (w.coordinator c) w w') ∨
    ∃ w' s, (openQueryCursor c config).run w = (w', .ok ()) ∧ Becomes c s w w' ∧
      ReadyOutcome w config (w.coordinator c) s := by
  cases hcursor : (w.coordinator c).queryCursor with
  | none =>
    rw [run_openQueryCursor_of_none hcursor]
    have hlooked := stays_openCursorAt config none w
    rcases hopen : (openCursorAt config none).run w with ⟨w₁, failure | cursor⟩
    · rw [hopen] at hlooked
      exact .inl ⟨w₁, failure, run_bind_error hopen _, .of_looked hlooked⟩
    · rw [hopen] at hlooked
      obtain ⟨hfile, hu, -⟩ := openCursorAt_eq_ok hopen
      refine .inr ⟨_, _, run_bind_ok hopen _, (Becomes.of_looked hlooked).onCoordinator rfl,
        .started cursor (.inl hfile) hu fun _ old h => ?_⟩
      rw [hcursor] at h
      cases h
  | some cursor =>
    rw [run_openQueryCursor_of_some hcursor]
    by_cases hrestart : ((w.coordinator c).queries.isEmpty || !cursor.isReading) = true
    · rw [if_pos hrestart]
      rcases run_beginQueryRead (c := c) cursor w with ⟨failure, hread⟩ | hread
      · exact .inl ⟨w, failure, hread, .refl w⟩
      · refine .inr ⟨_, _, hread, (Becomes.refl w).onCoordinator rfl,
          .started _ (.inr ?_) rfl fun hmain old hold => ?_⟩
        · rw [hcursor]
          rfl
        · rw [hcursor, Option.some_inj] at hold
          rw [Bool.or_eq_true, List.isEmpty_iff, or_iff_right hmain, hold] at hrestart
          cases hu : old.current with
          | none => rfl
          | some u =>
            rw [Cursor.isReading, hu] at hrestart
            cases hrestart
    · rw [if_neg hrestart]
      refine .inr ⟨w, _, rfl, .refl w, ?_⟩
      rw [Bool.or_eq_true, List.isEmpty_iff, not_or] at hrestart
      cases hu : cursor.current with
      | none =>
        rw [Cursor.isReading, hu] at hrestart
        exact absurd rfl hrestart.2
      | some u => exact .kept cursor u hcursor hu hrestart.1

/-- **Getting the query cursor ready.** The step never fails; a failure to read is captured. -/
theorem run_readyQueryCursor (config : Config) (w : World) :
    ∃ w' s, (readyQueryCursor c config).run w = (w', .ok ()) ∧ Becomes c s w w' ∧
      ReadyOutcome w config (w.coordinator c) s := by
  rcases run_openQueryCursor (c := c) w with ⟨w₁, failure, hopen, hbecomes⟩ |
    ⟨w₁, s, hopen, hbecomes, houtcome⟩
  · exact ⟨_, _, run_capturing_error hopen, hbecomes.onCoordinator rfl, .captured _⟩
  · exact ⟨w₁, s, run_capturing_ok hopen, hbecomes, houtcome⟩

end Step

/-! ## Everything up to the runs -/

namespace World

/-- The lists that some queries observe. -/
def observed (w : World) (queries : List QueryId) : List ListKey :=
  queries.flatMap fun q => (w.query q).observed

end World

/-- Everything in a cycle up to its import: dead queries are let go and the query cursor is made
ready. -/
def Step.openCycle (c : CoordinatorId) (config : Config) : Step Unit := do
  cleanUp c
  readyQueryCursor c config

/-- A cycle of coordinator `c` began in `w` and reached its import in `w'`: dead queries were let
go, queries are left, no failure is captured and the query cursor reads. -/
structure Opened (c : CoordinatorId) (config : Config) (w w' : World) : Prop where
  configured : (w.coordinator c).config = some config
  opens : (Step.openCycle c config).run w = (w', .ok ())
  within : Within c w w'
  file : ∀ f, w'.file f = w.file f
  trace : w'.trace = w.trace ++ w.releases c
  left : (w.sweptCoordinator c).queries ≠ [] ∨ (w.sweptCoordinator c).newQueries ≠ []
  unfailed : (w.sweptCoordinator c).asyncError = none
  asyncError : (w'.coordinator c).asyncError = none
  ready : ReadyOutcome w config (w.sweptCoordinator c) (w'.coordinator c)

namespace Opened

variable {c : CoordinatorId} {config : Config} {w w' : World}

theorem main (h : Opened c config w w') :
    (w'.coordinator c).queries = (w.sweptCoordinator c).queries := h.ready.main

theorem waiting (h : Opened c config w w') :
    (w'.coordinator c).newQueries = (w.sweptCoordinator c).newQueries := h.ready.waiting

theorem advancer (h : Opened c config w w') :
    (w'.coordinator c).advancer = (w.sweptCoordinator c).advancer := h.ready.advancer

/-- The query cursor reads by then. -/
theorem reads (h : Opened c config w w') :
    ∃ cursor u, (w'.coordinator c).queryCursor = some cursor ∧ cursor.current = some u := by
  obtain ⟨s, hs⟩ : ∃ s, s = w'.coordinator c := ⟨_, rfl⟩
  have hready := h.ready
  have hnone := h.asyncError
  rw [← hs] at hready hnone ⊢
  cases hready with
  | captured failure => cases hnone
  | kept cursor u hcursor hu hmain => exact ⟨cursor, u, hcursor, hu⟩
  | started cursor hfile hu hmain => exact ⟨cursor, _, rfl, hu⟩

theorem isOpen (h : Opened c config w w') : (w'.coordinator c).queryCursor.isSome := by
  obtain ⟨cursor, u, hcursor, -⟩ := h.reads
  rw [hcursor]
  rfl

theorem observed (h : Opened c config w w') (queries : List QueryId) :
    w'.observed queries = w.observed queries := by
  unfold World.observed World.query
  rw [h.within.queries]

end Opened

/-- All that a cycle of coordinator `c` can come to before its runs. -/
inductive CycleOutcome (c : CoordinatorId) (w w' : World) :
    Except Failure (Option Step.Cycle) → Prop where
  /-- No file was opened. -/
  | unconfigured (hconfig : (w.coordinator c).config = none) (hsame : w' = w) :
      CycleOutcome c w w' (.ok none)
  /-- No query is left. -/
  | idle (hwithin : Within c w w') (hself : w'.coordinator c = w.sweptCoordinator c)
      (hmain : (w.sweptCoordinator c).queries = [])
      (hwaiting : (w.sweptCoordinator c).newQueries = []) :
      CycleOutcome c w w' (.ok none)
  /-- A failure is captured, so nothing is imported and all queries wait for the failure to be
  delivered. -/
  | abandoned (hwithin : Within c w w')
      (hleft : (w.sweptCoordinator c).queries ≠ [] ∨ (w.sweptCoordinator c).newQueries ≠ [])
      (hmain : (w'.coordinator c).queries =
        (w.sweptCoordinator c).queries ++ (w.sweptCoordinator c).newQueries)
      (hwaiting : (w'.coordinator c).newQueries = [])
      (hquery : (w'.coordinator c).queryCursor = (w.sweptCoordinator c).queryCursor)
      (hadvancer : (w'.coordinator c).advancer = (w.sweptCoordinator c).advancer)
      (hfailed : (w'.coordinator c).asyncError.isSome) :
      CycleOutcome c w w' (.ok none)
  /-- The import failed, and the failure is captured. -/
  | refused (config : Config) (w₁ w₂ : World) (failure captured : Failure)
      (hopened : Opened c config w w₁)
      (himport : (Step.importAndReplay c config (.observing (w.observed
        ((w.sweptCoordinator c).queries ++ (w.sweptCoordinator c).newQueries)))).run w₁ =
          (w₂, .error failure))
      (hcaptured : captured.isConsistency = failure.isConsistency)
      (hbecomes : Becomes c
        { w₂.coordinator c with
          asyncError := some captured
          queries := (w₂.coordinator c).queries ++ (w₂.coordinator c).newQueries
          newQueries := [] } w₂ w') :
      CycleOutcome c w w' (.error captured)
  /-- The queries are to be run. -/
  | begun (config : Config) (w₁ : World) (changes : Changes) (hopened : Opened c config w w₁)
      (himport : (Step.importAndReplay c config (.observing (w.observed
        ((w.sweptCoordinator c).queries ++ (w.sweptCoordinator c).newQueries)))).run w₁ =
          (w', .ok changes)) :
      CycleOutcome c w w' (.ok (some ⟨(w'.coordinator c).queries, changes⟩))

namespace CycleOutcome

variable {c : CoordinatorId} {w w' : World} {outcome : Except Failure (Option Step.Cycle)}

/-- Whatever the start of a cycle comes to, it stays within its coordinator. -/
theorem within (h : CycleOutcome c w w' outcome) : Within c w w' := by
  cases h with
  | unconfigured hconfig hsame =>
    rw [hsame]
    exact .refl w
  | idle hwithin hself hmain hwaiting => exact hwithin
  | abandoned hwithin hleft hmain hwaiting hquery hadvancer hfailed => exact hwithin
  | refused config w₁ w₂ failure captured hopened himport hcaptured hbecomes =>
    have himported := (Step.importAndReplay_eq_error hopened.isOpen himport).within
    exact hopened.within.trans (himported.trans hbecomes.within)
  | begun config w₁ changes hopened himport =>
    exact hopened.within.trans (Step.importAndReplay_eq_ok himport).within

end CycleOutcome

namespace Step

variable {c : CoordinatorId} {config : Config} {w w₁ : World}

/-- Everything in a cycle from where it is known whether a failure is captured, up to the runs;
`s` is the coordinator as the sweep left it. -/
def resumeCycle (c : CoordinatorId) (config : Config) (s : Coordinator) :
    Step (Option Cycle) := do
  if (← coordinator c).asyncError.isSome then do
    abandonImport c
    return none
  else do
    let w ← world
    let observed := w.observed (s.queries ++ s.newQueries)
    match ← (importAndReplay c config (.observing observed)).attempt with
    | .ok changes => return some ⟨(← coordinator c).queries, changes⟩
    | .error failure => do
      let captured := if failure.isConsistency then failure else s.backgroundFailure failure
      onCoordinator c fun s => { s with asyncError := some captured }
      abandonImport c
      fail captured

theorem run_resumeCycle_of_failed (h : (w₁.coordinator c).asyncError.isSome) (s : Coordinator) :
    (resumeCycle c config s).run w₁ =
      (w₁.onCoordinator c fun s =>
        { s with queries := s.queries ++ s.newQueries, newQueries := [] }, .ok none) := by
  unfold resumeCycle
  rw [run_bind_ok (run_coordinator c w₁), if_pos h]
  rfl

/-- An import that fails is given up, and its failure captured. -/
theorem run_resumeCycle_of_refused (hopened : Opened c config w w₁) {w₂ : World} {failure : Failure}
    (himport : (importAndReplay c config (.observing (w.observed
      ((w.sweptCoordinator c).queries ++ (w.sweptCoordinator c).newQueries)))).run w₁ =
        (w₂, .error failure)) :
    let captured :=
      if failure.isConsistency then failure else (w.sweptCoordinator c).backgroundFailure failure
    (resumeCycle c config (w.sweptCoordinator c)).run w₁ =
      ((w₂.onCoordinator c fun s => { s with asyncError := some captured }).onCoordinator c fun s =>
        { s with queries := s.queries ++ s.newQueries, newQueries := [] }, .error captured) := by
  intro captured
  have hattempt := run_attempt (importAndReplay c config (.observing (w.observed
    ((w.sweptCoordinator c).queries ++ (w.sweptCoordinator c).newQueries)))) w₁
  rw [himport] at hattempt
  unfold resumeCycle
  rw [run_bind_ok (run_coordinator c w₁), hopened.asyncError, if_neg (by simp),
    run_bind_ok (run_world w₁)]
  dsimp only
  rw [hopened.observed, run_bind_ok hattempt]
  rfl

theorem run_resumeCycle (hopened : Opened c config w w₁) :
    ∃ w' outcome, (resumeCycle c config (w.sweptCoordinator c)).run w₁ = (w', outcome) ∧
      CycleOutcome c w w' outcome := by
  rcases himport : (importAndReplay c config (.observing (w.observed
    ((w.sweptCoordinator c).queries ++ (w.sweptCoordinator c).newQueries)))).run w₁ with
    ⟨w₂, failure | changes⟩
  · have hrefused := run_resumeCycle_of_refused hopened himport
    dsimp only at hrefused
    set captured :=
      if failure.isConsistency then failure
      else (w.sweptCoordinator c).backgroundFailure failure with hcase
    have hcaptured : captured.isConsistency = failure.isConsistency := by
      rw [hcase]
      split
      · rfl
      · next hother => exact (Bool.eq_false_iff.mpr hother).symm
    have hcapture := Becomes.onCoordinator (c := c) (.refl w₂)
      (f := fun s => { s with asyncError := some captured }) rfl
    have habandon := hcapture.onCoordinator
      (f := fun s => { s with queries := s.queries ++ s.newQueries, newQueries := [] }) rfl
    exact ⟨_, .error captured, hrefused, .refused config w₁ w₂ failure captured hopened himport
      hcaptured habandon⟩
  · have hattempt := run_attempt (importAndReplay c config (.observing (w.observed
      ((w.sweptCoordinator c).queries ++ (w.sweptCoordinator c).newQueries)))) w₁
    rw [himport] at hattempt
    refine ⟨w₂, _, ?_, .begun config w₁ changes hopened himport⟩
    unfold resumeCycle
    rw [run_bind_ok (run_coordinator c w₁), hopened.asyncError, if_neg (by simp),
      run_bind_ok (run_world w₁)]
    dsimp only
    rw [hopened.observed, run_bind_ok hattempt]
    rfl

/-- With a captured failure, whether captured before or just now, nothing is imported. -/
theorem abandoned_of_failed {w w₂ : World}
    (hleft : (w.sweptCoordinator c).queries ≠ [] ∨ (w.sweptCoordinator c).newQueries ≠ [])
    (hwithin : Within c w w₂) (hfailed : (w₂.coordinator c).asyncError.isSome)
    (hmain : (w₂.coordinator c).queries = (w.sweptCoordinator c).queries)
    (hwaiting : (w₂.coordinator c).newQueries = (w.sweptCoordinator c).newQueries)
    (hquery : (w₂.coordinator c).queryCursor = (w.sweptCoordinator c).queryCursor)
    (hadvancer : (w₂.coordinator c).advancer = (w.sweptCoordinator c).advancer) :
    ∃ w' outcome, (resumeCycle c config (w.sweptCoordinator c)).run w₂ = (w', outcome) ∧
      CycleOutcome c w w' outcome := by
  refine ⟨_, _, run_resumeCycle_of_failed hfailed _,
    .abandoned (hwithin.trans (.onCoordinator w₂ rfl)) hleft ?_ ?_ ?_ ?_ ?_⟩
  · rw [World.coordinator_onCoordinator_self, hmain, hwaiting]
  · rw [World.coordinator_onCoordinator_self]
  · rw [World.coordinator_onCoordinator_self]
    exact hquery
  · rw [World.coordinator_onCoordinator_self]
    exact hadvancer
  · rw [World.coordinator_onCoordinator_self]
    exact hfailed

/-- Before a file was opened a cycle does nothing. -/
theorem run_beginCycle_of_none {w : World} (hconfig : (w.coordinator c).config = none) :
    (beginCycle c).run w = (w, .ok none) := by
  unfold beginCycle
  rw [run_bind_ok (run_coordinator c w), hconfig]
  rfl

/-- What is left of a cycle once its dead queries were let go. -/
theorem run_beginCycle_of_swept {w w₁ : World} (hconfig : (w.coordinator c).config = some config)
    (hclean : (cleanUp c).run w = (w₁, .ok ())) (hself : w₁.coordinator c = w.sweptCoordinator c) :
    (beginCycle c).run w =
      (if (w.sweptCoordinator c).queries.isEmpty && (w.sweptCoordinator c).newQueries.isEmpty then
        pure none
      else if (w.sweptCoordinator c).asyncError.isNone then do
        readyQueryCursor c config
        resumeCycle c config (w.sweptCoordinator c)
      else resumeCycle c config (w.sweptCoordinator c) : Step (Option Cycle)).run w₁ := by
  unfold beginCycle
  rw [run_bind_ok (run_coordinator c w), hconfig]
  dsimp only
  rw [run_bind_ok hclean, run_bind_ok (run_coordinator c w₁), hself]
  rfl

/-- A cycle that reaches its import goes on from there. -/
theorem run_beginCycle_of_opened (hopened : Opened c config w w₁) :
    (beginCycle c).run w = (resumeCycle c config (w.sweptCoordinator c)).run w₁ := by
  obtain ⟨w₂, hclean, -, hself, -, -⟩ := run_cleanUp c w
  have hready : (readyQueryCursor c config).run w₂ = (w₁, .ok ()) := by
    have hopens := hopened.opens
    rwa [openCycle, run_bind_ok hclean] at hopens
  have hleft : ¬ ((w.sweptCoordinator c).queries.isEmpty &&
      (w.sweptCoordinator c).newQueries.isEmpty) = true := by
    rw [Bool.and_eq_true, List.isEmpty_iff, List.isEmpty_iff]
    exact Decidable.not_and_iff_or_not.mpr hopened.left
  rw [run_beginCycle_of_swept hopened.configured hclean hself, if_neg hleft, hopened.unfailed,
    if_pos (by rfl), run_bind_ok hready]

/-- **The start of a cycle.** -/
theorem run_beginCycle (c : CoordinatorId) (w : World) :
    ∃ w' outcome, (beginCycle c).run w = (w', outcome) ∧ CycleOutcome c w w' outcome := by
  cases hconfig : (w.coordinator c).config with
  | none => exact ⟨w, .ok none, run_beginCycle_of_none hconfig, .unconfigured hconfig rfl⟩
  | some config =>
    obtain ⟨w₁, hclean, hwithin, hself, htrace, hengines⟩ := run_cleanUp c w
    rw [run_beginCycle_of_swept hconfig hclean hself]
    have hfile : ∀ f, w₁.file f = w.file f := World.file_congr hengines
    by_cases hidle : ((w.sweptCoordinator c).queries.isEmpty &&
      (w.sweptCoordinator c).newQueries.isEmpty) = true
    · rw [if_pos hidle]
      rw [Bool.and_eq_true, List.isEmpty_iff, List.isEmpty_iff] at hidle
      -- the sweep has left nothing to run
      exact ⟨w₁, _, rfl, .idle hwithin hself hidle.1 hidle.2⟩
    rw [if_neg hidle]
    have hleft : (w.sweptCoordinator c).queries ≠ [] ∨ (w.sweptCoordinator c).newQueries ≠ [] := by
      rw [Bool.and_eq_true, List.isEmpty_iff, List.isEmpty_iff] at hidle
      exact Decidable.not_and_iff_or_not.mp hidle
    cases hnone : (w.sweptCoordinator c).asyncError with
    | some failure =>
      rw [if_neg (by simp)]
      exact abandoned_of_failed hleft hwithin (by rw [hself]; exact hnone ▸ rfl) (by rw [hself])
        (by rw [hself]) (by rw [hself]) (by rw [hself])
    | none =>
      rw [if_pos (by rfl)]
      obtain ⟨w₂, s, hready, hbecomes, houtcome⟩ := run_readyQueryCursor (c := c) config w₁
      rw [run_bind_ok hready]
      have hwithin₂ := hwithin.trans hbecomes.within
      rw [hself] at houtcome
      cases hcase : s.asyncError with
      | some failure =>
        refine abandoned_of_failed hleft hwithin₂ (by rw [hbecomes.self, hcase]; rfl) ?_ ?_ ?_ ?_
        · rw [hbecomes.self]
          exact houtcome.main
        · rw [hbecomes.self]
          exact houtcome.waiting
        · rw [hbecomes.self]
          exact houtcome.queryCursor (by rw [hcase]; rfl) hnone
        · rw [hbecomes.self]
          exact houtcome.advancer
      | none =>
        refine run_resumeCycle
          { configured := hconfig
            opens := by rw [openCycle, run_bind_ok hclean, hready]
            within := hwithin₂
            file := fun f => (hbecomes.file f).trans (hfile f)
            trace := hbecomes.trace.trans htrace
            left := hleft
            unfailed := hnone
            asyncError := by rw [hbecomes.self, hcase]
            ready := ?_ }
        rw [hbecomes.self]
        exact houtcome.congr hfile

end Step

/-! ## Everything after the runs -/

/-- From one world to the other some queries handed over: each may be at another version now. -/
structure HandedOver (queries : List QueryId) (w w' : World) : Prop where
  coordinators : w'.coordinators = w.coordinators
  engines : w'.engines = w.engines
  runs : w'.runs = w.runs
  made : w.queries.size ≤ w'.queries.size
  alive : ∀ q, (w'.query q).alive = (w.query q).alive
  observed : ∀ q, (w'.query q).observed = (w.query q).observed
  others : ∀ q, q ∉ queries → w'.query q = w.query q

namespace Query

theorem alive_handOver (x : Query) : x.handOver.alive = x.alive := by
  unfold handOver
  split <;> rfl

theorem observed_handOver (x : Query) : x.handOver.observed = x.observed := by
  unfold handOver
  split <;> rfl

end Query

namespace HandedOver

variable {queries : List QueryId} {w w' : World}

theorem refl (w : World) : HandedOver [] w w :=
  ⟨rfl, rfl, rfl, Nat.le_refl _, fun _ => rfl, fun _ => rfl, fun _ _ => rfl⟩

/-- A query hands over, then the others do. -/
theorem cons {q : QueryId} {e : Event} (he : e.run? = none)
    (h : HandedOver queries ((w.onQuery q (·.handOver)).note e) w') :
    HandedOver (q :: queries) w w' where
  coordinators := h.coordinators
  engines := h.engines
  runs := h.runs.trans (World.runs_note_of_none _ he)
  made := Nat.le_trans (Table.size_le_modify ..) h.made
  alive p := by
    rw [h.alive]
    show ((w.onQuery q (·.handOver)).query p).alive = _
    rw [World.query_onQuery]
    split
    · next hp => rw [Query.alive_handOver, hp]
    · rfl
  observed p := by
    rw [h.observed]
    show ((w.onQuery q (·.handOver)).query p).observed = _
    rw [World.query_onQuery]
    split
    · next hp => rw [Query.observed_handOver, hp]
    · rfl
  others p hp := by
    rw [List.mem_cons, not_or] at hp
    rw [h.others p hp.2]
    show (w.onQuery q (·.handOver)).query p = _
    rw [World.query_onQuery, if_neg hp.1]

theorem coordinator (h : HandedOver queries w w') (c : CoordinatorId) :
    w'.coordinator c = w.coordinator c := by
  unfold World.coordinator
  rw [h.coordinators]

theorem isDead (h : HandedOver queries w w') : w'.isDead = w.isDead := by
  funext q
  unfold World.isDead
  rw [h.alive]

theorem sweptCoordinator (h : HandedOver queries w w') (c : CoordinatorId) :
    w'.sweptCoordinator c = w.sweptCoordinator c := by
  unfold World.sweptCoordinator
  rw [h.isDead, h.coordinator]

theorem releases (h : HandedOver queries w w') (c : CoordinatorId) :
    w'.releases c = w.releases c := by
  unfold World.releases
  rw [h.isDead, h.coordinator]

end HandedOver

namespace Step

theorem run_handOvers (queries : List QueryId) (w : World) :
    ∃ w', (queries.forM handOver).run w = (w', .ok ()) ∧ HandedOver queries w w' := by
  induction queries generalizing w with
  | nil => exact ⟨w, rfl, .refl w⟩
  | cons q queries ih =>
    obtain ⟨w', hrun, hrest⟩ := ih ((w.onQuery q (·.handOver)).note
      (.handOver q ((w.onQuery q (·.handOver)).query q).handedOver))
    exact ⟨w', hrun, hrest.cons rfl⟩

/-- **The end of a cycle.** It never fails; the coordinator is swept. -/
theorem run_concludeCycle (c : CoordinatorId) (queries : List QueryId) (w : World) :
    ∃ w₁ w', (concludeCycle c queries).run w = (w', .ok ()) ∧ HandedOver queries w w₁ ∧
      Within c w₁ w' ∧ w'.coordinator c = w.sweptCoordinator c ∧ w'.engines = w.engines := by
  obtain ⟨w₁, hover, hhanded⟩ := run_handOvers queries w
  obtain ⟨w', hclean, hwithin, hself, -, hengines⟩ := run_cleanUp c w₁
  refine ⟨w₁, w', ?_, hhanded, hwithin, ?_, hengines.trans hhanded.engines⟩
  · unfold concludeCycle
    rw [run_bind_ok hover, hclean]
  · rw [hself, hhanded.sweptCoordinator]

end Step

end SnapshotCoordination
