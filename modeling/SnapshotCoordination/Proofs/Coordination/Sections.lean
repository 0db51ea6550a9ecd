import Mathlib.Data.List.Induction
import SnapshotCoordination.Proofs.Coordination.Cycles

/-!
# Sections and moments

As long as one thread at a time has control, client code gets it only at callbacks. So whatever a
process does then, nested and out of order as it may be, is a row of *sections*: operations that run
to their end undisturbed. A `Chore` is one that leaves every background alone
(`undisturbed_perform`); the others are the births and deaths of queries, registrations and the
parts of a change cycle.

Threads that run at the same time are not in it. A section can take a lock more than once, and
another thread gets in between: while a reset closes the handles that it has collected, the registry
is empty and open to others already.

A `Moment` is a world between two sections, with what a bystander would have written down:

* which queries are registered, and with which coordinator;
* which cycles have begun, with the queries and the changes of each;
* which queries a refused import found ready (`World.importable`).

What is proved of every row of sections that follows a rule holds between any two sections of every
such run, however the callbacks of its actions are answered (`Run.Sectioned`).
-/

namespace SnapshotCoordination

/-! ## Sections -/

/-- An operation that leaves every background alone. -/
inductive Chore where
  | makeEngine
  | makeRegistry
  | makeQuery (config : Option Config) (observed : List ListKey) (version : Version)
  | setFaults (e : EngineId) (cursorsFail notifiersFail : Bool)
  | lookAt (e : EngineId) (key : String)
  | getCoordinator (r : RegistryId) (path : String)
  | retainCoordinator (c : CoordinatorId)
  | releaseCoordinator (c : CoordinatorId)
  | retainHandle (h : HandleId)
  | releaseHandle (h : HandleId)
  | closeHandle (h : HandleId)
  | retainNotifier (n : NotifierId)
  | releaseNotifier (n : NotifierId)
  | resetRegistry (r : RegistryId)
  | getHandle (c : CoordinatorId) (thread : Thread) (config : Config)
  | commit (config : Config) (log : Log)
  | moveHandle (h : HandleId) (asked : Option Version)
  | settle (c : CoordinatorId) (h : HandleId)
  | deliverHere (c : CoordinatorId) (h : HandleId)
  | setPending (h : HandleId) (pending : Bool)
  | setContext (h : HandleId) (context : Option ContextId)
  | sweepListeners (f : FileId)
  | tellCallbacks (q : QueryId)
  | tellAvailable (context : ContextId)
  | tellDidChange (context : ContextId)
  | concludeRun (q : QueryId)
  deriving DecidableEq

namespace Chore

/-- The world after a chore. -/
def perform (w : World) : Chore → World
  | makeEngine => { w with engines := w.engines.push .fresh }
  | makeRegistry => { w with registries := w.registries.push .empty }
  | makeQuery config observed version =>
    { w with queries := w.queries.push (.made config observed version) }
  | setFaults e cursorsFail notifiersFail =>
    w.setEngine e { w.engine e with cursorsFail := cursorsFail, notifiersFail := notifiersFail }
  | lookAt e key => w.setEngine e ((w.engine e).touch key)
  | getCoordinator r path => (w.getCoordinator r path).1
  | retainCoordinator c => w.retainCoordinator c
  | releaseCoordinator c => w.releaseCoordinator c
  | retainHandle h => w.retainHandle h
  | releaseHandle h => w.releaseHandle h
  | closeHandle h => w.closeHandle h
  | retainNotifier n => w.retainNotifier n
  | releaseNotifier n => w.releaseNotifier n
  | resetRegistry r => w.resetRegistry r
  | getHandle c thread config => ((Step.getHandle c thread config).run w).1
  | commit config log => ((Step.askEngine config fun _ x => x.commit config.path log).run w).1
  | moveHandle h asked => ((Step.moveHandle h asked).run w).1
  | settle c h => ((Step.settle c h).run w).1
  | deliverHere c h => ((Step.deliverHere c h).run w).1
  | setPending h pending => w.onHandle h fun x => { x with pending := pending }
  | setContext h context => w.onHandle h fun x => { x with context := context }
  | sweepListeners f => w.setFile f ((w.file f).sweepListeners w.isAliveCoordinator)
  | tellCallbacks q => w.note (.callbacks q)
  | tellAvailable context => w.note (.available context)
  | tellDidChange context => w.note (.didChange context)
  | concludeRun q => ((Step.concludeRun q).run w).1

theorem undisturbed_pushEngine (w : World) :
    Undisturbed w { w with engines := w.engines.push .fresh } where
  background _ := rfl
  configured _ := id
  commits f := by
    have hfile : ({ w with engines := w.engines.push .fresh } : World).file f = w.file f := by
      unfold World.file World.engine
      exact congrArg (Engine.file · f.key) (Table.get_push_default w.engines f.engine)
    exact hfile ▸ List.prefix_refl _
  made := Nat.le_refl _
  standing _ _ := rfl
  runs := rfl

theorem undisturbed_pushQuery (w : World) (x : Query) :
    Undisturbed w { w with queries := w.queries.push x } where
  background _ := rfl
  configured _ := id
  commits _ := List.prefix_refl _
  made := by
    rw [Table.size_push]
    exact Nat.le_succ _
  standing q hq := congrArg Query.standing (Table.get_push_of_lt w.queries x hq)
  runs := rfl

/-- No chore touches a background. -/
theorem undisturbed_perform (w : World) (x : Chore) : Undisturbed w (x.perform w) := by
  cases x with
  | makeEngine => exact undisturbed_pushEngine w
  | makeRegistry => exact .of_eq rfl rfl rfl rfl
  | makeQuery config observed version => exact undisturbed_pushQuery w _
  | setFaults e cursorsFail notifiersFail =>
    exact undisturbed_setEngine w fun _ => List.prefix_refl _
  | lookAt e key =>
    refine undisturbed_setEngine w fun k => ?_
    exact (w.engine e).file_touch key k ▸ List.prefix_refl _
  | getCoordinator r path => exact undisturbed_getCoordinator w r path
  | retainCoordinator c => exact undisturbed_retainCoordinator w c
  | releaseCoordinator c => exact undisturbed_releaseCoordinator w c
  | retainHandle h => exact undisturbed_retainHandle w h
  | releaseHandle h => exact undisturbed_releaseHandle w h
  | closeHandle h => exact undisturbed_closeHandle w h
  | retainNotifier n => exact undisturbed_retainNotifier w n
  | releaseNotifier n => exact undisturbed_releaseNotifier w n
  | resetRegistry r => exact undisturbed_resetRegistry w r
  | getHandle c thread config => exact Step.stays_getHandle c thread config w
  | commit config log => exact Step.stays_commit config log w
  | moveHandle h asked => exact Step.stays_moveHandle h asked w
  | settle c h => exact Step.stays_settle c h w
  | deliverHere c h => exact Step.stays_deliverHere c h w
  | setPending h pending => exact undisturbed_onHandle w h _
  | setContext h context => exact undisturbed_onHandle w h _
  | sweepListeners f => exact undisturbed_setFile w (List.prefix_refl _)
  | tellCallbacks q => exact undisturbed_note w rfl
  | tellAvailable context => exact undisturbed_note w rfl
  | tellDidChange context => exact undisturbed_note w rfl
  | concludeRun q => exact Step.stays_concludeRun q w

end Chore

/-- An operation that runs to its end undisturbed. -/
inductive Section where
  | chore (x : Chore)
  /-- Nobody but a coordinator refers to a query any more. -/
  | kill (q : QueryId)
  /-- A query changes the version it reports. -/
  | setVersion (q : QueryId) (version : Version)
  | register (c : CoordinatorId) (q : QueryId)
  /-- Everything in a cycle up to the runs. -/
  | beginCycle (c : CoordinatorId)
  /-- One of the runs of a cycle starts. -/
  | startRun (changes : Changes) (q : QueryId)
  /-- Everything in a cycle after the runs. -/
  | concludeCycle (c : CoordinatorId) (queries : List QueryId)
  deriving DecidableEq

/-! ## Moments -/

namespace World

/-- The live queries that an import would find ready. -/
def importable (w : World) (c : CoordinatorId) : List QueryId :=
  match (w.coordinator c).file? with
  | none => []
  | some f => (w.coordinator c).newQueries.filter fun q =>
      (w.query q).alive && decide ((w.query q).version ≤ (w.file f).latest)

end World

/-- A world between two sections, with what was written down so far. -/
structure Moment where
  world : World
  /-- The registrations that returned without failure. -/
  registered : List (QueryId × CoordinatorId)
  /-- The queries that a refused import found ready. -/
  lost : List (QueryId × CoordinatorId)
  /-- The cycles with runs. -/
  begun : List (CoordinatorId × Step.Cycle)

namespace Moment

/-- The moment before a process does anything. -/
def start : Moment := ⟨.start, [], [], []⟩

/-- The moment after a section. -/
def perform (m : Moment) : Section → Moment
  | .chore x => { m with world := x.perform m.world }
  | .kill q => { m with world := m.world.onQuery q ({ · with alive := false }) }
  | .setVersion q version => { m with world := m.world.onQuery q ({ · with version := version }) }
  | .register c q =>
    match (Step.registerQuery c q).run m.world with
    | (w, .ok ()) => { m with world := w, registered := m.registered ++ [(q, c)] }
    | (w, .error _) => { m with world := w }
  | .beginCycle c =>
    match (Step.beginCycle c).run m.world with
    | (w, .ok none) => { m with world := w }
    | (w, .ok (some cycle)) => { m with world := w, begun := m.begun ++ [(c, cycle)] }
    | (w, .error _) =>
      { m with world := w, lost := m.lost ++ (m.world.importable c).map (·, c) }
  | .startRun changes q => { m with world := m.world.note (.run q changes) }
  | .concludeCycle c queries =>
    { m with world := ((Step.concludeCycle c queries).run m.world).1 }

/-- The moment after a row of sections. -/
def after (m : Moment) (sections : List Section) : Moment := sections.foldl perform m

theorem after_append (m : Moment) (sections more : List Section) :
    m.after (sections ++ more) = (m.after sections).after more := List.foldl_append

/-- A query is registered once, after it was made, and only a cycle that has begun is run and
concluded. -/
def Allows (m : Moment) : Section → Prop
  | .register _ q => q < m.world.queries.size ∧ ∀ p ∈ m.registered, p.1 ≠ q
  | .startRun changes q => ∃ p ∈ m.begun, p.2.changes = changes ∧ q ∈ p.2.queries
  | .concludeCycle c queries => ∃ p ∈ m.begun, p.1 = c ∧ p.2.queries = queries
  | _ => True

instance (m : Moment) (s : Section) : Decidable (m.Allows s) := by
  cases s <;> unfold Allows <;> infer_instance

/-- Whether every section of a row follows a rule at the moment it is performed. -/
def Follows (rule : Moment → Section → Prop) : Moment → List Section → Prop
  | _, [] => True
  | m, s :: sections => rule m s ∧ Follows rule (m.perform s) sections

instance decideFollows (rule : Moment → Section → Prop) [∀ m s, Decidable (rule m s)] :
    ∀ (m : Moment) (sections : List Section), Decidable (Follows rule m sections)
  | _, [] => .isTrue trivial
  | m, s :: sections =>
    have := decideFollows rule (m.perform s) sections
    inferInstanceAs (Decidable (_ ∧ _))

theorem Follows.mono {rule rule' : Moment → Section → Prop} (hle : ∀ m s, rule m s → rule' m s)
    {m : Moment} {sections : List Section} (h : m.Follows rule sections) :
    m.Follows rule' sections := by
  induction sections generalizing m with
  | nil => exact h
  | cons s sections ih => exact ⟨hle m s h.1, ih h.2⟩

theorem Follows.append {rule : Moment → Section → Prop} {m : Moment} {sections more : List Section}
    (h : m.Follows rule sections) (hmore : (m.after sections).Follows rule more) :
    m.Follows rule (sections ++ more) := by
  induction sections generalizing m with
  | nil => exact hmore
  | cons s sections ih => exact ⟨h.1, ih h.2 hmore⟩

theorem Follows.of_append {rule : Moment → Section → Prop} {m : Moment}
    {sections more : List Section} (h : m.Follows rule (sections ++ more)) :
    m.Follows rule sections ∧ (m.after sections).Follows rule more := by
  induction sections generalizing m with
  | nil => exact ⟨trivial, h⟩
  | cons s sections ih =>
    obtain ⟨hrest, hmore⟩ := ih h.2
    exact ⟨⟨h.1, hrest⟩, hmore⟩

/-- The run lemma: what every section preserves holds after every row of sections. -/
theorem Follows.preserves {rule : Moment → Section → Prop} {I : Moment → Prop}
    (hstep : ∀ m s, rule m s → I m → I (m.perform s)) {m : Moment} {sections : List Section}
    (h : m.Follows rule sections) (hm : I m) : I (m.after sections) := by
  induction sections generalizing m with
  | nil => exact hm
  | cons s sections ih => exact ih h.2 (hstep m s h.1 hm)

/-- What every section preserves, no matter when it is made, holds after every row of sections. -/
theorem preserved_after {I : Moment → Prop} (hstep : ∀ m s, I m → I (m.perform s)) {m : Moment}
    (hm : I m) (sections : List Section) : I (m.after sections) := by
  induction sections generalizing m with
  | nil => exact hm
  | cons s sections ih => exact ih (hstep m s hm)

/-- What holds between two sections, and did not at the start, came with some section before, and
has held since. -/
theorem exists_onset {P : Moment → Prop} {Q : Moment → Section → Prop} (hstart : ¬ P .start)
    (hstep : ∀ m s, P (m.perform s) → P m ∨ Q m s) {sections : List Section}
    (h : P (start.after sections)) :
    ∃ before s after, sections = before ++ s :: after ∧ Q (start.after before) s ∧
      ∀ more, more <+: after → P (start.after (before ++ s :: more)) := by
  induction sections using List.reverseRecOn with
  | nil => exact absurd h hstart
  | append_singleton sections s ih =>
    have hlast : start.after (sections ++ [s]) = (start.after sections).perform s :=
      start.after_append sections [s]
    rcases hstep (start.after sections) s (hlast ▸ h) with hbefore | hnow
    · obtain ⟨before, t, after, rfl, hcame, hsince⟩ := ih hbefore
      refine ⟨before, t, after ++ [s], by simp, hcame, fun more hmore => ?_⟩
      rcases List.prefix_concat_iff.mp hmore with rfl | hmore
      · simpa using h
      · exact hsince more hmore
    · refine ⟨sections, s, [], rfl, hnow, fun more hmore => ?_⟩
      rw [List.prefix_nil.mp hmore]
      exact h

end Moment

/-! ## Runs -/

namespace Section

/-- The query that a section runs, and the changes it is run over. -/
def run? : Section → Option (QueryId × Changes)
  | startRun changes q => some (q, changes)
  | _ => none

end Section

/-! ## What a section makes of a coordinator -/

/-- A section leads from `w` to `w'`: this is all that it can have done in the background of
coordinator `c`. -/
inductive Touched (c : CoordinatorId) (w w' : World) : Section → Prop where
  /-- It left that alone. -/
  | spared (s : Section) (hsame : (w'.coordinator c).background = (w.coordinator c).background) :
      Touched c w w' s
  /-- A query was registered. -/
  | registered (q : QueryId) (config : Config) (s : Coordinator)
      (hpin : PinOutcome w config (w.query q).version (w.sweptCoordinator c) s)
      (hself : w'.coordinator c = { s with newQueries := s.newQueries ++ [q] })
      (hconfig : (w.coordinator c).config = some config) :
      Touched c w w' (.register c q)
  /-- A cycle began. -/
  | cycled (outcome : Except Failure (Option Step.Cycle))
      (hrun : (Step.beginCycle c).run w = (w', outcome)) (houtcome : CycleOutcome c w w' outcome) :
      Touched c w w' (.beginCycle c)
  /-- A cycle was concluded. -/
  | concluded (queries : List QueryId) (hself : w'.coordinator c = w.sweptCoordinator c) :
      Touched c w w' (.concludeCycle c queries)

namespace Moment

theorem world_register (m : Moment) (c : CoordinatorId) (q : QueryId) :
    (m.perform (.register c q)).world = ((Step.registerQuery c q).run m.world).1 := by
  dsimp only [perform]
  rcases (Step.registerQuery c q).run m.world with ⟨w, failure | _⟩ <;> rfl

/-- As long as no file was opened, nothing is registered. -/
theorem perform_register_of_none {m : Moment} {c : CoordinatorId}
    (hconfig : (m.world.coordinator c).config = none) (q : QueryId) :
    m.perform (.register c q) = m := by
  dsimp only [perform]
  rw [Step.run_registerQuery_of_none hconfig]

theorem perform_register {m : Moment} {c : CoordinatorId} {q : QueryId} {w : World}
    (hrun : (Step.registerQuery c q).run m.world = (w, .ok ())) :
    m.perform (.register c q) =
      { m with world := w, registered := m.registered ++ [(q, c)] } := by
  dsimp only [perform]
  rw [hrun]

theorem world_beginCycle {m : Moment} {c : CoordinatorId} {w : World}
    {outcome : Except Failure (Option Step.Cycle)}
    (hrun : (Step.beginCycle c).run m.world = (w, outcome)) :
    (m.perform (.beginCycle c)).world = w := by
  dsimp only [perform]
  rw [hrun]
  rcases outcome with failure | _ | cycle <;> rfl

theorem touched_perform (m : Moment) (s : Section) (c : CoordinatorId) :
    Touched c m.world (m.perform s).world s := by
  cases s with
  | chore x => exact .spared _ ((x.undisturbed_perform m.world).background c)
  | kill q => exact .spared _ rfl
  | setVersion q version => exact .spared _ rfl
  | register d q =>
    cases hconfig : (m.world.coordinator d).config with
    | none =>
      rw [perform_register_of_none hconfig]
      exact .spared _ rfl
    | some config =>
      obtain ⟨w', s, hrun, hwithin, hself, hpin⟩ := Step.run_registerQuery hconfig q
      rw [perform_register hrun]
      by_cases hd : c = d
      · subst hd
        exact .registered q config s hpin hself hconfig
      · exact .spared _ (congrArg Coordinator.background (hwithin.others c hd))
  | beginCycle d =>
    obtain ⟨w', outcome, hrun, houtcome⟩ := Step.run_beginCycle d m.world
    rw [world_beginCycle hrun]
    by_cases hd : c = d
    · subst hd
      exact .cycled outcome hrun houtcome
    · exact .spared _ (congrArg Coordinator.background (houtcome.within.others c hd))
  | startRun changes q => exact .spared _ rfl
  | concludeCycle d queries =>
    obtain ⟨w₁, w', hrun, hover, hwithin, hself, -⟩ := Step.run_concludeCycle d queries m.world
    dsimp only [perform]
    rw [hrun]
    by_cases hd : c = d
    · subst hd
      exact .concluded queries hself
    · refine .spared _ (congrArg Coordinator.background ?_)
      rw [hwithin.others c hd, hover.coordinator]

/-- Only a run is a run. -/
theorem runs_perform (m : Moment) (s : Section) :
    (m.perform s).world.runs = m.world.runs ++ s.run?.toList := by
  have hsame : ∀ {w : World}, w.runs = m.world.runs →
      w.runs = m.world.runs ++ (none : Option (QueryId × Changes)).toList :=
    fun h => h.trans (List.append_nil _).symm
  cases s with
  | chore x => exact hsame (x.undisturbed_perform m.world).runs
  | kill q => exact hsame rfl
  | setVersion q version => exact hsame rfl
  | register c q =>
    cases hconfig : (m.world.coordinator c).config with
    | none =>
      rw [perform_register_of_none hconfig]
      exact hsame rfl
    | some config =>
      obtain ⟨w', s, hrun, hwithin, -, -⟩ := Step.run_registerQuery hconfig q
      rw [perform_register hrun]
      exact hsame hwithin.runs
  | beginCycle c =>
    obtain ⟨w', outcome, hrun, houtcome⟩ := Step.run_beginCycle c m.world
    rw [world_beginCycle hrun]
    exact hsame houtcome.within.runs
  | startRun changes q => exact m.world.runs_note _
  | concludeCycle c queries =>
    obtain ⟨w₁, w', hrun, hover, hwithin, -, -⟩ := Step.run_concludeCycle c queries m.world
    dsimp only [perform]
    rw [hrun]
    exact hsame (hwithin.runs.trans hover.runs)

/-- What has begun is never taken back. -/
theorem begun_perform (m : Moment) (s : Section) : m.begun <+: (m.perform s).begun := by
  cases s with
  | register c q =>
    dsimp only [perform]
    split <;> exact List.prefix_refl _
  | beginCycle c =>
    dsimp only [perform]
    split
    · exact List.prefix_refl _
    · exact List.prefix_append _ _
    · exact List.prefix_refl _
  | _ => exact List.prefix_refl _

/-- No registration is taken back. -/
theorem registered_perform (m : Moment) (s : Section) :
    m.registered <+: (m.perform s).registered := by
  cases s with
  | register d p =>
    dsimp only [perform]
    split
    · exact List.prefix_append _ _
    · exact List.prefix_refl _
  | beginCycle d =>
    dsimp only [perform]
    split <;> exact List.prefix_refl _
  | _ => exact List.prefix_refl _

/-- Every query that was run was run by a cycle that had begun. -/
theorem begun_of_mem_runs {sections : List Section} (h : start.Follows Allows sections) :
    ∀ p ∈ (start.after sections).world.runs, ∃ b ∈ (start.after sections).begun,
      b.2.changes = p.2 ∧ p.1 ∈ b.2.queries := by
  refine h.preserves (I := fun m => ∀ p ∈ m.world.runs, ∃ b ∈ m.begun,
    b.2.changes = p.2 ∧ p.1 ∈ b.2.queries) (fun m s hallowed hm p hp => ?_) (fun p hp => nomatch hp)
  have hkeep : (∃ b ∈ m.begun, b.2.changes = p.2 ∧ p.1 ∈ b.2.queries) →
      ∃ b ∈ (m.perform s).begun, b.2.changes = p.2 ∧ p.1 ∈ b.2.queries :=
    fun ⟨b, hb, hrun⟩ => ⟨b, (m.begun_perform s).subset hb, hrun⟩
  rw [runs_perform, List.mem_append] at hp
  rcases hp with hold | hnew
  · exact hkeep (hm p hold)
  · cases s with
    | startRun changes q =>
      obtain rfl := List.mem_singleton.mp hnew
      exact hallowed
    | _ => cases hnew

end Moment

end SnapshotCoordination
