import SnapshotCoordination.Proofs.Coordination.Cursors
import SnapshotCoordination.Proofs.Coordination.ImportOrder

/-!
# What an import does

An import takes the ready queries off the waiting list, lifts them to the latest version on the
advancer, replays the logs on the query cursor and only then takes the queries into main rotation.

* **`importAndReplay_eq_error`** — an import that fails leaves main rotation as it was and the
  deferred queries waiting. The ready ones are on neither list any more.
* **`importAndReplay_eq_ok`** — an import that succeeds moves the ready queries to main rotation.
* **`run_importAndReplay`** — while the advancer reads a version that no waiting query is behind,
  and the query cursor one that is not ahead of the latest, nothing but a refusal of the logs can
  make the import fail. Every ready query is attached to the advancer while that reads its version.
-/

namespace SnapshotCoordination

namespace Step

variable {c : CoordinatorId} {config : Config} {recorder : ChangeRecorder}

/-! ## The parts of an import -/

/-- Attach queries to the advancer, each when the advancer gets to its version. -/
def lift (c : CoordinatorId) (w : World) (ready : List QueryId) : Step Unit :=
  ready.forM fun q => do
    let version ← stepAdvancer c (some (w.query q).version)
    attach q version

/-- Move queries over to the query cursor. -/
def moveOver (c : CoordinatorId) (ready : List QueryId) : Step Unit :=
  ready.forM fun q => do
    detach q
    attach q ((← coordinator c).queryCursor.bind (·.current))

/-- Everything in an import that can fail once the waiting list was cut. -/
def liftAndReplay (c : CoordinatorId) (w : World) (ready : List QueryId) (latest : Version)
    (recorder : ChangeRecorder) : Step Changes := do
  lift c w ready
  let target ← stepAdvancer c (some latest)
  let changes ← replayQueryCursor c target recorder
  moveOver c ready
  return changes

theorem leads_lift (w : World) (ready : List QueryId) : (lift c w ready).Stays (Leads c) :=
  .forM (fun q => (leads_stepAdvancer _).bind fun _ => leads_attach q _) ready

theorem leads_moveOver (ready : List QueryId) : (moveOver c ready).Stays (Leads c) :=
  .forM (fun q => (leads_detach q).bind fun _ => leads_coordinator.bind fun _ => leads_attach q _)
    ready

theorem steers_of_leads {α : Type} {s : Step α} (h : s.Stays (Leads c)) : s.Stays (Steers c) :=
  h.mono fun _ _ => Leads.steers

theorem stays_liftAndReplay (w : World) (ready : List QueryId) (latest : Version)
    (recorder : ChangeRecorder) :
    (liftAndReplay c w ready latest recorder).Stays (Steers c) :=
  (steers_of_leads (leads_lift w ready)).bind fun _ =>
    (steers_of_leads (leads_stepAdvancer _)).bind fun _ =>
      (stays_replayQueryCursor _ recorder).bind fun _ =>
        (steers_of_leads (leads_moveOver ready)).bind fun _ => .pure _

end Step

namespace Coordinator

/-- The coordinator after the ready queries have joined main rotation. -/
def joined (s : Coordinator) (ready deferred : List QueryId) : Coordinator :=
  { s with
    queries := s.queries ++ ready
    advancer := if deferred.isEmpty then s.advancer.map (·.endRead) else s.advancer }

end Coordinator

namespace Step

variable {c : CoordinatorId} {config : Config} {recorder : ChangeRecorder}

/-- An import without a query cursor fails at once. -/
theorem run_import_of_closed {w : World} (h : (w.coordinator c).queryCursor = none) :
    (importAndReplay c config recorder).run w =
      (w, .error (.storage (.cursorNotOpen .query))) := by
  unfold importAndReplay
  rw [run_bind_ok (run_coordinator c w), h]
  rfl

theorem isSome_queryCursor_of_import {w w' : World} {changes : Changes}
    (h : (importAndReplay c config recorder).run w = (w', .ok changes)) :
    (w.coordinator c).queryCursor.isSome := by
  rw [Option.isSome_iff_ne_none]
  intro hclosed
  rw [run_import_of_closed hclosed] at h
  cases h

/-- If no query waits, an import is a replay. -/
theorem run_import_of_nil {w : World} (hopen : (w.coordinator c).queryCursor.isSome)
    (h : (w.coordinator c).newQueries = []) :
    (importAndReplay c config recorder).run w = (replayQueryCursor c none recorder).run w := by
  unfold importAndReplay
  rw [run_bind_ok (run_coordinator c w), h]
  cases hcursor : (w.coordinator c).queryCursor with
  | none => rw [hcursor] at hopen; cases hopen
  | some cursor => rfl

/-- Everything in an import once the waiting list was cut: the ready queries are lifted, the logs
replayed, and the ready queries join main rotation. -/
def finishImport (c : CoordinatorId) (w : World) (latest : Version) (recorder : ChangeRecorder) :
    Step Changes :=
  if (w.coordinator c).advancer.isNone then fail (.storage (.cursorNotOpen .advancer))
  else do
    let changes ← liftAndReplay c w (w.ready c latest) latest recorder
    onCoordinator c (·.joined (w.ready c latest) (w.deferred c latest))
    return changes

/-- If queries wait, an import cuts the waiting list at the latest version and goes on from
there. -/
theorem run_import_of_waiting {w : World} (hopen : (w.coordinator c).queryCursor.isSome)
    (hwaiting : (w.coordinator c).newQueries ≠ []) :
    (importAndReplay c config recorder).run w = (do
      let latest ← latestVersion config
      onCoordinator c fun s => { s with newQueries := w.deferred c latest }
      finishImport c w latest recorder : Step Changes).run w := by
  have hqueries : ∀ w₁, Looked w w₁ → ∀ latest : Version,
      ((w₁.sortByVersion (w.coordinator c).newQueries).takeWhile
        fun q => (w₁.query q).version ≤ latest) = w.ready c latest ∧
      ((w₁.sortByVersion (w.coordinator c).newQueries).dropWhile
        fun q => (w₁.query q).version ≤ latest) = w.deferred c latest ∧
      ∀ ready,
        liftAndReplay c w₁ ready latest recorder = liftAndReplay c w ready latest recorder := by
    intro w₁ hlooked latest
    rw [World.sortByVersion_congr (w := w) (by rw [hlooked.eq]), hlooked.eq]
    exact ⟨rfl, rfl, fun _ => rfl⟩
  unfold importAndReplay
  rw [run_bind_ok (run_coordinator c w)]
  dsimp only
  have hnone : (w.coordinator c).queryCursor.isNone ≠ true := by
    rw [Option.isSome_iff_ne_none] at hopen
    rwa [Ne, Option.isNone_iff_eq_none]
  rw [if_neg hnone, if_neg (by simpa using hwaiting)]
  have hlooked := stays_latestVersion config w
  rcases hlatest : (latestVersion config).run w with ⟨w₁, failure | latest⟩
  · rw [run_bind_error hlatest, run_bind_error hlatest]
  · rw [hlatest] at hlooked
    obtain ⟨hready, hdeferred, hlift⟩ := hqueries w₁ hlooked latest
    rw [run_bind_ok hlatest, run_bind_ok hlatest, run_bind_ok (run_world w₁)]
    unfold finishImport
    rw [hready, hdeferred, ← hlift]
    rw [run_bind_ok (run_onCoordinator c _ _), run_bind_ok (run_onCoordinator c _ _)]
    cases (w.coordinator c).advancer with
    | none => rfl
    | some advancer =>
      unfold liftAndReplay
      simp only [bind_assoc]
      rfl

/-! ## What a lift and a replay come to -/

/-- What queries are told while they are lifted: each is attached to the advancer, which reads the
query's own version then. -/
def lifts (w : World) (ready : List QueryId) : List Event :=
  ready.map fun q => .attach q (some (w.query q).version)

/-- What queries are told when they are moved over to the query cursor. -/
def moves (ready : List QueryId) (target : Option Version) : List Event :=
  ready.flatMap fun q => [.detach q, .attach q target]

/-- Moving queries over tells them where the query cursor is. -/
theorem run_moveOver (ready : List QueryId) (w : World) :
    (moveOver c ready).run w =
      (w.notes (moves ready ((w.coordinator c).queryCursor.bind (·.current))), .ok ()) := by
  induction ready generalizing w with
  | nil =>
    show (w, _) = _
    rw [moves, List.flatMap_nil, World.notes, List.append_nil]
  | cons q ready ih =>
    have hrest := ih (w.notes
      [.detach q, .attach q ((w.coordinator c).queryCursor.bind (·.current))])
    rw [World.notes_notes] at hrest
    rw [moves, List.flatMap_cons, ← moves]
    refine Eq.trans ?_ hrest
    show (moveOver c ready).run ((w.note _).note _) = _
    unfold World.note World.notes
    simp only [List.append_assoc]
    rfl

/-- A lift that fails, or a replay after it, leaves the query cursor where it is. -/
theorem liftAndReplay_eq_error {w₀ w w' : World} {ready : List QueryId} {latest : Version}
    {failure : Failure}
    (h : (liftAndReplay c w₀ ready latest recorder).run w = (w', .error failure)) :
    (w'.coordinator c).queryCursor = (w.coordinator c).queryCursor := by
  have hlift := leads_lift (c := c) w₀ ready w
  rcases run_bind_eq_error h with hfailed | ⟨w₁, _, hlifted, h⟩
  · rw [hfailed] at hlift
    exact hlift.queryCursor
  rw [hlifted] at hlift
  have hstep := leads_stepAdvancer (c := c) (some latest) w₁
  rcases run_bind_eq_error h with hfailed | ⟨w₂, target, hstepped, h⟩
  · rw [hfailed] at hstep
    exact (hlift.trans hstep).queryCursor
  rw [hstepped] at hstep
  rcases run_bind_eq_error h with hfailed | ⟨w₃, changes, -, h⟩
  · rw [replayQueryCursor_eq_error hfailed]
    exact (hlift.trans hstep).queryCursor
  · rw [run_bind_ok (run_moveOver ready w₃)] at h
    cases h

/-- A lift and a replay that succeed fed the recorder all logs from the version the query cursor
read up to the latest one. -/
theorem liftAndReplay_eq_ok {w₀ w w' : World} {ready : List QueryId} {latest : Version}
    {changes : Changes} {cursor : Cursor}
    (h : (liftAndReplay c w₀ ready latest recorder).run w = (w', .ok changes))
    (hcursor : (w.coordinator c).queryCursor = some cursor) :
    ∃ u, cursor.current = some u ∧ u ≤ latest ∧
      let read := LogReader.replay recorder ((w.file cursor.file).logsBetween u latest).flatten
      read.2 = none ∧ changes = read.1.changes ∧
        (∀ g, w'.file g =
          if g = cursor.file then (w.file cursor.file).countReplay else w.file g) ∧
        (w'.coordinator c).queryCursor = some { cursor with current := some latest } := by
  have hlift := leads_lift (c := c) w₀ ready w
  obtain ⟨w₁, _, hlifted, h⟩ := run_bind_eq_ok h
  rw [hlifted] at hlift
  have hstep := leads_stepAdvancer (c := c) (some latest) w₁
  obtain ⟨w₂, target, hstepped, h⟩ := run_bind_eq_ok h
  rw [hstepped] at hstep
  have hleads : Leads c w w₂ := hlift.trans hstep
  obtain rfl := stepAdvancer_eq_ok hstepped
  obtain ⟨w₃, found, hreplay, h⟩ := run_bind_eq_ok h
  rw [run_bind_ok (run_moveOver ready w₃)] at h
  cases h
  have hfiles := World.file_congr hleads.engines
  obtain ⟨u, hu, hle, -, hread, hchanges, rfl⟩ :=
    replayQueryCursor_eq_ok hreplay (hleads.queryCursor.trans hcursor)
  rw [Option.getD_some] at hle hread hchanges
  rw [hfiles] at hread hchanges
  refine ⟨u, hu, hle, hread, hchanges, fun g => ?_, ?_⟩
  · refine (World.file_setFile w₂ cursor.file g _).trans ?_
    rw [hfiles, hfiles]
  · exact congrArg Coordinator.queryCursor (World.coordinator_onCoordinator_self _ c _)

/-! ## What becomes of the two lists -/

end Step

/-- From `w` to `w'` an import of coordinator `c` failed: main rotation is as it was, and the query
cursor where it was. Of the waiting queries only the deferred ones still wait, unless it failed
before it could tell which those are. -/
structure Unimported (c : CoordinatorId) (config : Config) (w w' : World) : Prop where
  within : Within c w w'
  main : (w'.coordinator c).queries = (w.coordinator c).queries
  waiting : (w'.coordinator c).newQueries =
    config.file?.elim (w.coordinator c).newQueries fun f => w.deferred c (w.file f).latest
  asyncError : (w'.coordinator c).asyncError = (w.coordinator c).asyncError
  queryCursor : (w'.coordinator c).queryCursor = (w.coordinator c).queryCursor
  advancerFile : (w'.coordinator c).advancer.map (·.file) = (w.coordinator c).advancer.map (·.file)

/-- From `w` to `w'` an import of coordinator `c` succeeded: the ready queries are in main rotation,
and the deferred ones still wait. -/
structure Imported (c : CoordinatorId) (config : Config) (w w' : World) : Prop where
  within : Within c w w'
  lists : ∃ latest, (∀ f, config.file? = some f → latest = (w.file f).latest) ∧
    (w'.coordinator c).queries = (w.coordinator c).queries ++ w.ready c latest ∧
    (w'.coordinator c).newQueries = w.deferred c latest
  asyncError : (w'.coordinator c).asyncError = (w.coordinator c).asyncError
  queryFile : (w'.coordinator c).queryCursor.map (·.file) =
    (w.coordinator c).queryCursor.map (·.file)
  advancerFile : (w'.coordinator c).advancer.map (·.file) = (w.coordinator c).advancer.map (·.file)

namespace Step

variable {c : CoordinatorId} {config : Config} {recorder : ChangeRecorder}

theorem finishImport_eq_error {w w₂ w' : World} {latest : Version} {failure : Failure}
    (h : (finishImport c w latest recorder).run w₂ = (w', .error failure)) :
    Steers c w₂ w' ∧ (w'.coordinator c).queryCursor = (w₂.coordinator c).queryCursor := by
  unfold finishImport at h
  split at h
  · cases h
    exact ⟨.refl w₂, rfl⟩
  · rcases run_bind_eq_error h with hlift | ⟨w₃, changes, -, hjoin⟩
    · have hsteers := stays_liftAndReplay (c := c) w (w.ready c latest) latest recorder w₂
      rw [hlift] at hsteers
      exact ⟨hsteers, liftAndReplay_eq_error hlift⟩
    · cases hjoin

theorem finishImport_eq_ok {w w₂ w' : World} {latest : Version} {changes : Changes}
    (h : (finishImport c w latest recorder).run w₂ = (w', .ok changes)) :
    ∃ w₃, (liftAndReplay c w (w.ready c latest) latest recorder).run w₂ = (w₃, .ok changes) ∧
      Steers c w₂ w₃ ∧
      w' = w₃.onCoordinator c (·.joined (w.ready c latest) (w.deferred c latest)) := by
  unfold finishImport at h
  split at h
  · cases h
  · obtain ⟨w₃, found, hlift, hjoin⟩ := run_bind_eq_ok h
    have hsteers := stays_liftAndReplay (c := c) w (w.ready c latest) latest recorder w₂
    rw [hlift] at hsteers
    cases hjoin
    exact ⟨w₃, hlift, hsteers, rfl⟩

theorem importAndReplay_eq_error {w w' : World} {failure : Failure}
    (hopen : (w.coordinator c).queryCursor.isSome)
    (h : (importAndReplay c config recorder).run w = (w', .error failure)) :
    Unimported c config w w' := by
  -- with nothing to import it was the replay that failed, and the lists are as they were
  by_cases hwaiting : (w.coordinator c).newQueries = []
  · rw [run_import_of_nil hopen hwaiting] at h
    have hsteers := stays_replayQueryCursor (c := c) none recorder w
    rw [h] at hsteers
    refine ⟨hsteers.within, hsteers.main, ?_, hsteers.asyncError, replayQueryCursor_eq_error h,
      hsteers.advancerFile⟩
    rw [hsteers.waiting]
    cases config.file? with
    | none => rfl
    | some f => rw [Option.elim_some, w.deferred_of_nil c _ hwaiting, hwaiting]
  · rw [run_import_of_waiting hopen hwaiting] at h
    cases hf : config.file? with
    | none =>
      rw [run_bind_error (run_latestVersion_of_none hf w)] at h
      cases h
      exact ⟨.refl w, rfl, by rw [hf]; rfl, rfl, rfl, rfl⟩
    | some f =>
      obtain ⟨w₁, hlooked, hlatest⟩ := run_latestVersion hf w
      rw [run_bind_ok hlatest, run_bind_ok (run_onCoordinator c _ w₁)] at h
      obtain ⟨hcut, hquery⟩ := finishImport_eq_error h
      have hself := hlooked.coordinator_onCoordinator_self c fun s =>
        { s with newQueries := w.deferred c (w.file f).latest }
      refine ⟨((Within.of_looked hlooked).trans (.onCoordinator w₁ rfl)).trans hcut.within,
        ?_, ?_, ?_, ?_, ?_⟩
      · rw [hcut.main, hself]
      · rw [hcut.waiting, hself, hf]
        rfl
      · rw [hcut.asyncError, hself]
      · rw [hquery, hself]
      · rw [hcut.advancerFile, hself]

theorem importAndReplay_eq_ok {w w' : World} {changes : Changes}
    (h : (importAndReplay c config recorder).run w = (w', .ok changes)) :
    Imported c config w w' := by
  have hopen := isSome_queryCursor_of_import h
  by_cases hwaiting : (w.coordinator c).newQueries = []
  · rw [run_import_of_nil hopen hwaiting] at h
    have hsteers := stays_replayQueryCursor (c := c) none recorder w
    rw [h] at hsteers
    refine ⟨hsteers.within, ⟨(config.file?.map fun f => (w.file f).latest).getD .unset, ?_, ?_, ?_⟩,
      hsteers.asyncError, hsteers.queryFile, hsteers.advancerFile⟩
    · intro f hf
      rw [hf]
      rfl
    · rw [hsteers.main, w.ready_of_nil c _ hwaiting, List.append_nil]
    · rw [hsteers.waiting, w.deferred_of_nil c _ hwaiting, hwaiting]
  · rw [run_import_of_waiting hopen hwaiting] at h
    cases hf : config.file? with
    | none =>
      rw [run_bind_error (run_latestVersion_of_none hf w)] at h
      cases h
    | some f =>
      obtain ⟨w₁, hlooked, hlatest⟩ := run_latestVersion hf w
      rw [run_bind_ok hlatest, run_bind_ok (run_onCoordinator c _ w₁)] at h
      obtain ⟨w₃, -, hcut, rfl⟩ := finishImport_eq_ok h
      have hself := hlooked.coordinator_onCoordinator_self c fun s =>
        { s with newQueries := w.deferred c (w.file f).latest }
      have hjoined := w₃.coordinator_onCoordinator_self c
        (·.joined (w.ready c (w.file f).latest) (w.deferred c (w.file f).latest))
      refine ⟨(((Within.of_looked hlooked).trans (.onCoordinator w₁ rfl)).trans hcut.within).trans
        (.onCoordinator w₃ rfl), ⟨(w.file f).latest, fun g hg => ?_, ?_, ?_⟩, ?_, ?_, ?_⟩
      · rw [Option.some_inj.mp (hf.symm.trans hg)]
      · rw [hjoined, Coordinator.joined, hcut.main, hself]
      · rw [hjoined, Coordinator.joined, hcut.waiting, hself]
      · rw [hjoined, Coordinator.joined, hcut.asyncError, hself]
      · rw [hjoined, Coordinator.joined, hcut.queryFile, hself]
      · rw [hjoined, Coordinator.joined]
        have hkept := hcut.advancerFile
        rw [hself] at hkept
        dsimp only
        split
        · rw [Option.map_map]
          exact hkept
        · exact hkept

/-- An import that succeeds replayed the logs once, from the version that the query cursor read up
to the latest one. -/
theorem replayed_of_importAndReplay {w w' : World} {changes : Changes} {f : FileId}
    {u : Option Version} (h : (importAndReplay c config recorder).run w = (w', .ok changes))
    (hf : config.file? = some f) (hcursor : (w.coordinator c).queryCursor = some ⟨f, u⟩) :
    ∃ start, u = some start ∧ start ≤ (w.file f).latest ∧
      let read := LogReader.replay recorder
        ((w.file f).logsBetween start (w.file f).latest).flatten
      read.2 = none ∧ changes = read.1.changes ∧
        (∀ g, w'.file g = if g = f then (w.file f).countReplay else w.file g) ∧
        (w'.coordinator c).queryCursor = some ⟨f, some (w.file f).latest⟩ := by
  have hopen : (w.coordinator c).queryCursor.isSome := by rw [hcursor]; rfl
  by_cases hwaiting : (w.coordinator c).newQueries = []
  · rw [run_import_of_nil hopen hwaiting] at h
    obtain ⟨start, hu, hle, -, hread, hchanges, rfl⟩ := replayQueryCursor_eq_ok h hcursor
    refine ⟨start, hu, hle, hread, hchanges, fun g => World.file_setFile w f g _, ?_⟩
    rw [World.coordinator_onCoordinator_self]
    rfl
  · rw [run_import_of_waiting hopen hwaiting] at h
    obtain ⟨w₁, hlooked, hlatest⟩ := run_latestVersion hf w
    rw [run_bind_ok hlatest, run_bind_ok (run_onCoordinator c _ w₁)] at h
    obtain ⟨w₃, hlift, -, rfl⟩ := finishImport_eq_ok h
    have hself := hlooked.coordinator_onCoordinator_self c fun s =>
      { s with newQueries := w.deferred c (w.file f).latest }
    have hfile := hlooked.file
    obtain ⟨start, hu, hle, hread, hchanges, hfiles, hquery⟩ := liftAndReplay_eq_ok hlift
      (show _ = some (⟨f, u⟩ : Cursor) by rw [hself, hcursor])
    change (LogReader.replay recorder ((w₁.file f).logsBetween start _).flatten).2 = none at hread
    change changes = (LogReader.replay recorder
      ((w₁.file f).logsBetween start _).flatten).1.changes at hchanges
    change ∀ g, w₃.file g = if g = f then (w₁.file f).countReplay else w₁.file g at hfiles
    rw [hfile] at hread hchanges
    refine ⟨start, hu, hle, hread, hchanges, fun g => ?_, ?_⟩
    · rw [← hfile, ← hfile]
      exact hfiles g
    · rw [World.coordinator_onCoordinator_self]
      exact hquery

/-! ## When an import succeeds -/

/-- An advancer that no query is behind steps through the versions of the queries, if those ascend
to no more than the latest version. -/
theorem run_lift {w₀ : World} {ready : List QueryId} {w : World} {cursor : Cursor} {u : Version}
    (hcursor : (w.coordinator c).advancer = some cursor) (hu : cursor.current = some u)
    (hlatest : u ≤ (w.file cursor.file).latest) (hascends : w₀.Ascends ready)
    (hfrom : ∀ q ∈ ready, u ≤ (w₀.query q).version)
    (hto : ∀ q ∈ ready, (w₀.query q).version ≤ (w.file cursor.file).latest) :
    ∃ w' v, (lift c w₀ ready).run w = (w', .ok ()) ∧ Leads c w w' ∧
      w'.trace = w.trace ++ lifts w₀ ready ∧
      (w'.coordinator c).advancer = some { cursor with current := some v } ∧
      v ≤ (w.file cursor.file).latest := by
  have hleads := leads_lift (c := c) w₀ ready w
  suffices hlift : ∃ w' v, (lift c w₀ ready).run w = (w', .ok ()) ∧
      w'.trace = w.trace ++ lifts w₀ ready ∧
      (w'.coordinator c).advancer = some { cursor with current := some v } ∧
      v ≤ (w.file cursor.file).latest by
    obtain ⟨w', v, hrun, hlift⟩ := hlift
    rw [hrun] at hleads
    exact ⟨w', v, hrun, hleads, hlift⟩
  -- the frame is known by now and only stands in the way of the induction
  clear hleads
  induction ready generalizing w cursor u with
  | nil =>
    refine ⟨w, u, rfl, (List.append_nil _).symm, ?_, hlatest⟩
    rw [hcursor, ← hu]
  | cons q ready ih =>
    obtain ⟨hfirst, hascends⟩ := List.pairwise_cons.mp hascends
    have hstep := run_stepAdvancer hcursor hu (hfrom q List.mem_cons_self)
      (hto q List.mem_cons_self)
    let cursor₁ : Cursor := { cursor with current := some (w₀.query q).version }
    let w₁ := (w.onCoordinator c fun s => { s with advancer := some cursor₁ }).notes
      [.attach q (some (w₀.query q).version)]
    have hself : w₁.coordinator c = { w.coordinator c with advancer := some cursor₁ } :=
      w.coordinator_onCoordinator_self c _
    have hcursor₁ : (w₁.coordinator c).advancer = some cursor₁ := by rw [hself]
    -- the advancer reads the version of `q` now, and no later query is behind that
    obtain ⟨w', v, hrun, htrace, hadvancer, hv⟩ :=
      ih hcursor₁ rfl (hto q List.mem_cons_self) hascends hfirst
        fun p hp => hto p (List.mem_cons_of_mem q hp)
    refine ⟨w', v, ?_, ?_, hadvancer, hv⟩
    · show ((stepAdvancer c (some (w₀.query q).version) >>= fun version => attach q version) >>=
        fun _ => lift c w₀ ready).run w = _
      rw [bind_assoc, run_bind_ok hstep]
      exact hrun
    · rw [htrace]
      show (w.trace ++ [.attach q _]) ++ lifts w₀ ready = _
      rw [List.append_assoc]
      rfl

/-- A replay that the recorder takes in, or the failure for which it does not. -/
def outcomeOf (read : ChangeRecorder × Option Failure) : Except Failure Changes :=
  match read.2 with
  | none => .ok read.1.changes
  | some failure => .error failure

/-- Lifting brings the advancer to the latest version; the replay comes after that. -/
theorem run_liftAndReplay_of_lifted (recorder : ChangeRecorder) {w₀ w : World}
    {ready : List QueryId} {ahead : Cursor} {v : Version} {f : FileId}
    (hahead : (w.coordinator c).advancer = some ahead) (hv : ahead.current = some v)
    (hfile : ahead.file = f) (hvle : v ≤ (w.file f).latest) (hascends : w₀.Ascends ready)
    (hfrom : ∀ q ∈ ready, v ≤ (w₀.query q).version)
    (hto : ∀ q ∈ ready, (w₀.query q).version ≤ (w.file f).latest) :
    let latest := (w.file f).latest
    ∃ w₂, (liftAndReplay c w₀ ready latest recorder).run w =
        (do
          let changes ← replayQueryCursor c (some latest) recorder
          moveOver c ready
          return changes : Step Changes).run w₂ ∧
      (∀ g, w₂.file g = w.file g) ∧ w₂.trace = w.trace ++ lifts w₀ ready ∧
      (w₂.coordinator c).advancer = some ⟨f, some latest⟩ ∧
      (w₂.coordinator c).queryCursor = (w.coordinator c).queryCursor := by
  intro latest
  subst hfile
  obtain ⟨w₁, x, hlift, hleads, htrace, hadvancer, hx⟩ :=
    run_lift hahead hv hvle hascends hfrom hto
  have hfiles : ∀ g, w₁.file g = w.file g := World.file_congr hleads.engines
  have hstep := run_stepAdvancer (v := latest) hadvancer rfl hx
    (by rw [hfiles]; exact Version.le_refl _)
  let w₂ := w₁.onCoordinator c fun s => { s with advancer := some ⟨ahead.file, some latest⟩ }
  have hself : w₂.coordinator c =
      { w₁.coordinator c with advancer := some ⟨ahead.file, some latest⟩ } :=
    w₁.coordinator_onCoordinator_self c _
  refine ⟨w₂, ?_, hfiles, htrace, ?_, ?_⟩
  · unfold liftAndReplay
    rw [run_bind_ok hlift, run_bind_ok hstep]
  · rw [hself]
  · rw [hself]
    exact hleads.queryCursor

/-- Lifting and replaying, with an advancer that no query is behind and a query cursor that is not
ahead: only the recorder can refuse. -/
theorem run_liftAndReplay (recorder : ChangeRecorder) {w₀ w : World} {ready : List QueryId}
    {ahead cursor : Cursor} {u v : Version} {f : FileId}
    (hahead : (w.coordinator c).advancer = some ahead) (hv : ahead.current = some v)
    (hcursor : (w.coordinator c).queryCursor = some cursor) (hu : cursor.current = some u)
    (hfile : ahead.file = f) (hfile' : cursor.file = f)
    (hvle : v ≤ (w.file f).latest) (hule : u ≤ (w.file f).latest) (hascends : w₀.Ascends ready)
    (hfrom : ∀ q ∈ ready, v ≤ (w₀.query q).version)
    (hto : ∀ q ∈ ready, (w₀.query q).version ≤ (w.file f).latest) :
    let latest := (w.file f).latest
    let read := LogReader.replay recorder ((w.file f).logsBetween u latest).flatten
    ∃ w', (liftAndReplay c w₀ ready latest recorder).run w = (w', outcomeOf read) ∧
      (∀ g, w'.file g = if g = f then (w.file f).countReplay else w.file g) ∧
      (w'.coordinator c).advancer = some ⟨f, some latest⟩ ∧
      (read.2 = none →
        w'.trace = w.trace ++ lifts w₀ ready ++ moves ready (some latest) ∧
          (w'.coordinator c).queryCursor = some ⟨f, some latest⟩) ∧
      (read.2 ≠ none → w'.trace = w.trace ++ lifts w₀ ready ∧
        (w'.coordinator c).queryCursor = some cursor) := by
  intro latest read
  obtain ⟨w₂, hbegin, hsame, htrace, hadvancer, hquery⟩ :=
    run_liftAndReplay_of_lifted recorder hahead hv hfile hvle hascends hfrom hto
  subst hfile'
  have hreplay := run_replayQueryCursor (some latest) latest recorder (hquery.trans hcursor) hu rfl
    hule (by rw [hsame]; exact Version.le_refl _)
  dsimp only at hreplay
  rw [hsame] at hreplay
  have hfiles : ∀ g, (w₂.setFile cursor.file (w.file cursor.file).countReplay).file g =
      if g = cursor.file then (w.file cursor.file).countReplay else w.file g := by
    intro g
    rw [World.file_setFile]
    split
    · rfl
    · exact hsame g
  rw [hbegin]
  change (replayQueryCursor c (some latest) recorder).run w₂ = match read.2 with
    | none => _
    | some failure => _ at hreplay
  cases hread : read.2 with
  | none =>
    rw [hread] at hreplay
    rw [run_bind_ok hreplay, run_bind_ok (run_moveOver ready _)]
    let w₃ := (w₂.setFile cursor.file (w.file cursor.file).countReplay).onCoordinator c fun s =>
      { s with queryCursor := some ⟨cursor.file, some latest⟩ }
    have hself : w₃.coordinator c =
        { w₂.coordinator c with queryCursor := some ⟨cursor.file, some latest⟩ } :=
      World.coordinator_onCoordinator_self _ c _
    have hend : (w₃.notes (moves ready ((w₃.coordinator c).queryCursor.bind (·.current)))) =
        w₃.notes (moves ready (some latest)) := by rw [hself]; rfl
    refine ⟨w₃.notes (moves ready (some latest)), ?_, hfiles, ?_, fun _ => ⟨?_, ?_⟩, ?_⟩
    · rw [outcomeOf, hread, ← hend]
      rfl
    · show (w₃.coordinator c).advancer = _
      rw [hself]
      exact hadvancer
    · show w₂.trace ++ moves ready (some latest) = _
      rw [htrace]
    · show (w₃.coordinator c).queryCursor = _
      rw [hself]
    · intro h
      exact absurd rfl h
  | some failure =>
    rw [hread] at hreplay
    rw [run_bind_error hreplay]
    exact ⟨_, by rw [outcomeOf, hread], hfiles, hadvancer, (nomatch ·),
      fun _ => ⟨htrace, hquery.trans hcursor⟩⟩

end Step

/-- What an import makes of the files, the trace and the cursors, by whether the logs were
refused. The query cursor was `cursor`. -/
structure Traced (c : CoordinatorId) (f : FileId) (cursor : Cursor) (refusal : Option Failure)
    (w w' : World) : Prop where
  file : ∀ g, w'.file g = if g = f then (w.file f).countReplay else w.file g
  accepted : refusal = none →
    w'.trace = w.trace ++ Step.lifts w (w.ready c (w.file f).latest) ++
      Step.moves (w.ready c (w.file f).latest) (some (w.file f).latest) ∧
    (w'.coordinator c).queryCursor = some ⟨f, some (w.file f).latest⟩ ∧
    ((w.coordinator c).newQueries ≠ [] → (w'.coordinator c).advancer =
      some ⟨f, if (w.deferred c (w.file f).latest).isEmpty then none else some (w.file f).latest⟩)
  refused : refusal ≠ none →
    w'.trace = w.trace ++ Step.lifts w (w.ready c (w.file f).latest) ∧
    (w'.coordinator c).queryCursor = some cursor ∧
    ((w.coordinator c).newQueries ≠ [] →
      (w'.coordinator c).advancer = some ⟨f, some (w.file f).latest⟩)
  idle : (w.coordinator c).newQueries = [] →
    (w'.coordinator c).advancer = (w.coordinator c).advancer

namespace Step

variable {c : CoordinatorId} {config : Config} (recorder : ChangeRecorder)

/-- If no query waits, an import is a replay. -/
theorem traced_of_nil {w : World} {cursor : Cursor} {u : Version} {f : FileId}
    (hcursor : (w.coordinator c).queryCursor = some cursor) (hfile : cursor.file = f)
    (hu : cursor.current = some u) (hule : u ≤ (w.file f).latest)
    (hwaiting : (w.coordinator c).newQueries = []) :
    let read := LogReader.replay recorder ((w.file f).logsBetween u (w.file f).latest).flatten
    ∃ w', (importAndReplay c config recorder).run w = (w', outcomeOf read) ∧
      Traced c f cursor read.2 w w' := by
  intro read
  have hopen : (w.coordinator c).queryCursor.isSome := by rw [hcursor]; rfl
  have hreplay := run_replayQueryCursor none _ recorder hcursor hu rfl
    (by rw [hfile]; exact hule) (Version.le_refl _)
  dsimp only at hreplay
  rw [hfile, Option.getD_none] at hreplay
  change (replayQueryCursor c none recorder).run w = match read.2 with
    | none => _
    | some failure => _ at hreplay
  have hlifts : lifts w (w.ready c (w.file f).latest) = [] := by
    rw [w.ready_of_nil c _ hwaiting]
    rfl
  have hmoves : moves (w.ready c (w.file f).latest) (some (w.file f).latest) = [] := by
    rw [w.ready_of_nil c _ hwaiting]
    rfl
  rw [run_import_of_nil hopen hwaiting, hreplay, outcomeOf]
  cases hread : read.2 with
  | none =>
    refine ⟨_, rfl, fun g => w.file_setFile f g _, fun _ => ⟨?_, ?_, ?_⟩,
      fun h => absurd rfl h, fun _ => ?_⟩
    · rw [hlifts, hmoves, List.append_nil, List.append_nil]
      rfl
    · rw [World.coordinator_onCoordinator_self]
    · exact fun h => absurd hwaiting h
    · rw [World.coordinator_onCoordinator_self]
      rfl
  | some failure =>
    refine ⟨_, rfl, fun g => w.file_setFile f g _, (nomatch ·),
      fun _ => ⟨?_, hcursor, fun h => absurd hwaiting h⟩, fun _ => rfl⟩
    rw [hlifts, List.append_nil]
    rfl

/-- If queries wait and the advancer is not ahead of them, only the recorder can refuse. -/
theorem traced_of_waiting {w : World} {ahead cursor : Cursor} {u v : Version} {f : FileId}
    (hf : config.file? = some f) (hcursor : (w.coordinator c).queryCursor = some cursor)
    (hfile : cursor.file = f) (hu : cursor.current = some u) (hule : u ≤ (w.file f).latest)
    (hwaiting : (w.coordinator c).newQueries ≠ [])
    (hahead : (w.coordinator c).advancer = some ahead) (hfile' : ahead.file = f)
    (hv : ahead.current = some v) (hvle : v ≤ (w.file f).latest)
    (hfrom : ∀ q ∈ (w.coordinator c).newQueries, v ≤ (w.query q).version) :
    let read := LogReader.replay recorder ((w.file f).logsBetween u (w.file f).latest).flatten
    ∃ w', (importAndReplay c config recorder).run w = (w', outcomeOf read) ∧
      Traced c f cursor read.2 w w' := by
  intro read
  let latest := (w.file f).latest
  have hopen : (w.coordinator c).queryCursor.isSome := by rw [hcursor]; rfl
  obtain ⟨w₁, hlooked, hlatest⟩ := run_latestVersion hf w
  let w₂ := w₁.onCoordinator c fun s => { s with newQueries := w.deferred c latest }
  have hself : w₂.coordinator c = { w.coordinator c with newQueries := w.deferred c latest } :=
    hlooked.coordinator_onCoordinator_self c _
  have hsame : ∀ g, w₂.file g = w.file g := hlooked.file
  have hlift := run_liftAndReplay recorder (w := w₂) (by rw [hself, hahead]) hv
    (by rw [hself, hcursor]) hu hfile' hfile (by rw [hsame]; exact hvle)
    (by rw [hsame]; exact hule) (w.ascends_ready c latest)
    (fun q hq => hfrom q ((w.mem_ready c latest).mp hq).1)
    (fun q hq => by rw [hsame]; exact ((w.mem_ready c latest).mp hq).2)
  dsimp only at hlift
  rw [hsame] at hlift
  obtain ⟨w₃, hrun, hfiles, hadvancer, haccepted, hrefused⟩ := hlift
  change (liftAndReplay c w (w.ready c latest) latest recorder).run w₂ = (w₃, outcomeOf read)
    at hrun
  have hfiles' : ∀ g, w₃.file g = if g = f then (w.file f).countReplay else w.file g :=
    fun g => (hfiles g).trans (by rw [hsame])
  -- nothing has failed up to here; what is left is to lift and to replay
  have hbegin : (importAndReplay c config recorder).run w = (do
      let changes ← liftAndReplay c w (w.ready c latest) latest recorder
      onCoordinator c (·.joined (w.ready c latest) (w.deferred c latest))
      return changes : Step Changes).run w₂ := by
    rw [run_import_of_waiting hopen hwaiting, run_bind_ok hlatest,
      run_bind_ok (run_onCoordinator c _ w₁), finishImport, hahead]
    rfl
  have htrace₂ : w₂.trace = w.trace := by
    show w₁.trace = w.trace
    rw [hlooked.eq]
  rw [htrace₂] at haccepted hrefused
  rw [hbegin]
  unfold outcomeOf at hrun ⊢
  change read.2 = none → _ at haccepted
  change read.2 ≠ none → _ at hrefused
  cases hread : read.2 with
  | none =>
    rw [hread] at hrun
    rw [run_bind_ok hrun, run_bind_ok (run_onCoordinator c _ w₃)]
    obtain ⟨htrace, hquery⟩ := haccepted hread
    refine ⟨_, rfl, hfiles', fun _ => ⟨htrace, ?_, fun _ => ?_⟩, fun h => absurd rfl h,
      fun h => absurd h hwaiting⟩
    · rw [World.coordinator_onCoordinator_self]
      exact hquery
    · rw [World.coordinator_onCoordinator_self, Coordinator.joined, hadvancer]
      split <;> rfl
  | some failure =>
    rw [hread] at hrun
    rw [run_bind_error hrun]
    obtain ⟨htrace, hquery⟩ := hrefused (by rw [hread]; exact nofun)
    exact ⟨_, rfl, hfiles', (nomatch ·), fun _ => ⟨htrace, hquery, fun _ => hadvancer⟩,
      fun h => absurd h hwaiting⟩

end Step

/-! ## Success and refusal -/

/-- From `w` to `w'` coordinator `c` imported from file `f`, and the logs were accepted: the ready
queries were lifted, moved over and taken into main rotation. -/
structure Accepted (c : CoordinatorId) (f : FileId) (w w' : World) : Prop where
  within : Within c w w'
  file : ∀ g, w'.file g = if g = f then (w.file f).countReplay else w.file g
  trace : w'.trace = w.trace ++ Step.lifts w (w.ready c (w.file f).latest) ++
    Step.moves (w.ready c (w.file f).latest) (some (w.file f).latest)
  asyncError : (w'.coordinator c).asyncError = (w.coordinator c).asyncError
  main : (w'.coordinator c).queries = (w.coordinator c).queries ++ w.ready c (w.file f).latest
  waiting : (w'.coordinator c).newQueries = w.deferred c (w.file f).latest
  queryCursor : (w'.coordinator c).queryCursor = some ⟨f, some (w.file f).latest⟩
  /-- The advancer goes on reading for the deferred queries. -/
  advancer : (w.coordinator c).newQueries ≠ [] → (w'.coordinator c).advancer =
    some ⟨f, if (w.deferred c (w.file f).latest).isEmpty then none else some (w.file f).latest⟩
  advancer_of_nil : (w.coordinator c).newQueries = [] →
    (w'.coordinator c).advancer = (w.coordinator c).advancer

/-- From `w` to `w'` coordinator `c` imported from file `f`, and the logs were refused: the ready
queries were lifted, and that was all. -/
structure Refused (c : CoordinatorId) (f : FileId) (w w' : World) : Prop where
  within : Within c w w'
  file : ∀ g, w'.file g = if g = f then (w.file f).countReplay else w.file g
  trace : w'.trace = w.trace ++ Step.lifts w (w.ready c (w.file f).latest)
  asyncError : (w'.coordinator c).asyncError = (w.coordinator c).asyncError
  main : (w'.coordinator c).queries = (w.coordinator c).queries
  waiting : (w'.coordinator c).newQueries = w.deferred c (w.file f).latest
  queryCursor : (w'.coordinator c).queryCursor = (w.coordinator c).queryCursor
  advancer : (w.coordinator c).newQueries ≠ [] →
    (w'.coordinator c).advancer = some ⟨f, some (w.file f).latest⟩
  advancer_of_nil : (w.coordinator c).newQueries = [] →
    (w'.coordinator c).advancer = (w.coordinator c).advancer

namespace Step

variable {c : CoordinatorId} {config : Config} {recorder : ChangeRecorder}

variable (recorder) in
/-- **The import.** Let the query cursor read a version that is not ahead of the latest and, if
queries wait, the advancer one that none of them is behind. Then the import replays the logs from
the query cursor to the latest version, and fails only if the recorder refuses them. By then every
ready query was attached to the advancer at its own version; if the import succeeds, each is moved
over to the query cursor, which reads the latest version. -/
theorem run_importAndReplay {w : World} {cursor : Cursor} {u : Version} {f : FileId}
    (hf : config.file? = some f) (hcursor : (w.coordinator c).queryCursor = some cursor)
    (hfile : cursor.file = f) (hu : cursor.current = some u) (hule : u ≤ (w.file f).latest)
    (hpinned : (w.coordinator c).newQueries ≠ [] → ∃ ahead v,
      (w.coordinator c).advancer = some ahead ∧ ahead.file = f ∧ ahead.current = some v ∧
        v ≤ (w.file f).latest ∧ ∀ q ∈ (w.coordinator c).newQueries, v ≤ (w.query q).version) :
    let read := LogReader.replay recorder ((w.file f).logsBetween u (w.file f).latest).flatten
    ∃ w', (importAndReplay c config recorder).run w = (w', outcomeOf read) ∧
      (read.2 = none → Accepted c f w w') ∧ (read.2 ≠ none → Refused c f w w') := by
  intro read
  obtain ⟨w', hrun, htraced⟩ : ∃ w', (importAndReplay c config recorder).run w =
      (w', outcomeOf read) ∧ Traced c f cursor read.2 w w' := by
    by_cases hwaiting : (w.coordinator c).newQueries = []
    · exact traced_of_nil recorder hcursor hfile hu hule hwaiting
    · obtain ⟨ahead, v, hahead, hfile', hv, hvle, hfrom⟩ := hpinned hwaiting
      exact traced_of_waiting recorder hf hcursor hfile hu hule hwaiting hahead hfile' hv hvle hfrom
  refine ⟨w', hrun, fun hread => ?_, fun hread => ?_⟩
  · rw [outcomeOf, hread] at hrun
    have himported := importAndReplay_eq_ok hrun
    obtain ⟨latest, hlatest, hmain, hwaiting⟩ := himported.lists
    obtain ⟨htrace, hquery, hadvancer⟩ := htraced.accepted hread
    rw [hlatest f hf] at hmain hwaiting
    exact ⟨himported.within, htraced.file, htrace, himported.asyncError, hmain, hwaiting, hquery,
      hadvancer, htraced.idle⟩
  · obtain ⟨failure, hfailure⟩ := Option.ne_none_iff_exists'.mp hread
    rw [outcomeOf, hfailure] at hrun
    have hfailed := importAndReplay_eq_error (by rw [hcursor]; rfl) hrun
    obtain ⟨htrace, hquery, hadvancer⟩ := htraced.refused hread
    have hwaiting := hfailed.waiting
    rw [hf, Option.elim_some] at hwaiting
    exact ⟨hfailed.within, htraced.file, htrace, hfailed.asyncError, hfailed.main, hwaiting,
      hfailed.queryCursor, hadvancer, htraced.idle⟩

end Step

end SnapshotCoordination
