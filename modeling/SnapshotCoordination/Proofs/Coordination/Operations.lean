import SnapshotCoordination.Proofs.Coordination.Aiming
import SnapshotCoordination.Proofs.Coordination.Reentrancy

/-!
# One operation at a time

Where no callback does anything, nothing comes in between the parts of a change cycle. An
`Operation` is then a section that is no part of a cycle, or a whole cycle.

* **`Moment.world_operate_cycle`** — a whole cycle is what `Action.runCycle` comes to;
* **`Action.operated_onChange`**, **`operated_commit`**, **`operated_refresh`**,
  **`operated_deliverAvailable`** — whatever else wakes a coordinator or moves a handle comes to a
  row of chores and cycles;
* **`Moment.OneByOne.follows`** — a row of operations is a row of sections, so whatever holds
  between any two sections holds between any two operations.
-/

namespace SnapshotCoordination

/-! ## Runs -/

/-- From one world to the other queries were run and noted what for, and nothing else happened that
the pipeline would notice. -/
structure Ran (runs : List (QueryId × Changes)) (w w' : World) : Prop where
  coordinators : w'.coordinators = w.coordinators
  file : ∀ f, w'.file f = w.file f
  made : w.queries.size ≤ w'.queries.size
  standing : ∀ q, (w'.query q).standing = (w.query q).standing
  runs : w'.runs = w.runs ++ runs

namespace Ran

variable {w w' w'' : World} {runs more : List (QueryId × Changes)}

theorem refl (w : World) : Ran [] w w :=
  ⟨rfl, fun _ => rfl, Nat.le_refl _, fun _ => rfl, (List.append_nil _).symm⟩

theorem trans (h : Ran runs w w') (h' : Ran more w' w'') : Ran (runs ++ more) w w'' where
  coordinators := h'.coordinators.trans h.coordinators
  file f := (h'.file f).trans (h.file f)
  made := Nat.le_trans h.made h'.made
  standing q := (h'.standing q).trans (h.standing q)
  runs := by rw [h'.runs, h.runs, List.append_assoc]

theorem coordinator (h : Ran runs w w') (c : CoordinatorId) :
    w'.coordinator c = w.coordinator c := by
  unfold World.coordinator
  rw [h.coordinators]

theorem alive (h : Ran runs w w') (q : QueryId) : (w'.query q).alive = (w.query q).alive :=
  congrArg (·.2.1) (h.standing q)

theorem sweptCoordinator (h : Ran runs w w') (c : CoordinatorId) :
    w'.sweptCoordinator c = w.sweptCoordinator c := by
  have hdead : w'.isDead = w.isDead := by
    funext q
    unfold World.isDead
    rw [h.alive]
  unfold World.sweptCoordinator
  rw [hdead, h.coordinator]

theorem of_looked (h : Looked w w') : Ran [] w w' where
  coordinators := by rw [h.eq]
  file := h.file
  made := Nat.le_of_eq (by rw [h.eq])
  standing q := by rw [h.eq]; rfl
  runs := by rw [h.eq]; exact (List.append_nil _).symm

theorem onQuery (w : World) (q : QueryId) {f : Query → Query}
    (h : ∀ x, (f x).standing = x.standing) : Ran [] w (w.onQuery q f) where
  coordinators := rfl
  file _ := rfl
  made := Table.size_le_modify ..
  standing p := by
    rw [World.query_onQuery]
    split
    · next hp => rw [h, hp]
    · rfl
  runs := (List.append_nil _).symm

theorem startRun (w : World) (q : QueryId) (changes : Changes) :
    Ran [(q, changes)] w (w.note (.run q changes)) :=
  ⟨rfl, fun _ => rfl, Nat.le_refl _, fun _ => rfl, w.runs_note _⟩

end Ran

namespace Step

/-- A run that is concluded was concluded without failure. -/
theorem run_concludeRun (q : QueryId) (w : World) :
    ∃ w', (concludeRun q).run w = (w', .ok ()) ∧ Ran [] w w' := by
  have hnoted : ∀ w₁ (ranAt : Except Failure Version), Looked w w₁ →
      Ran [] w (w₁.onQuery q fun x => { x with ranAt := ranAt.toOption }) :=
    fun w₁ ranAt hlooked => (Ran.of_looked hlooked).trans (.onQuery w₁ q fun _ => rfl)
  cases hconfig : (w.query q).config with
  | none =>
    refine ⟨_, ?_, hnoted w (.error (.storage .noActiveRead)) (.refl w)⟩
    unfold concludeRun
    rw [run_bind_ok (run_world w), hconfig]
    rfl
  | some config =>
    have hlooked := stays_latestVersion config w
    refine ⟨_, ?_, hnoted _ ((latestVersion config).run w).2 hlooked⟩
    unfold concludeRun
    rw [run_bind_ok (run_world w), hconfig]
    rfl

end Step

/-- The sections of some runs over the same changes. -/
def runSections (changes : Changes) (queries : List QueryId) : List Section :=
  queries.flatMap fun q => [.startRun changes q, .chore (.concludeRun q)]

namespace Moment

/-- Runs go through whatever they find, and leave the moment otherwise as it was. -/
theorem after_runSections (changes : Changes) (queries : List QueryId) (m : Moment) :
    m.after (runSections changes queries) =
        { m with world := (m.after (runSections changes queries)).world } ∧
      (queries.forM fun q => (Action.runQuery changes q).quiet).run m.world =
        ((m.after (runSections changes queries)).world, .ok ()) ∧
      Ran (queries.map (·, changes)) m.world (m.after (runSections changes queries)).world := by
  induction queries generalizing m with
  | nil => exact ⟨rfl, rfl, .refl _⟩
  | cons q queries ih =>
    -- a run does not fail, so the next one has its turn
    obtain ⟨w₁, hconclude, hran⟩ := Step.run_concludeRun q (m.world.note (.run q changes))
    have hone : (m.perform (.startRun changes q)).perform (.chore (.concludeRun q)) =
        { m with world := w₁ } := by
      show ({ m with world := ((Step.concludeRun q).run (m.world.note (.run q changes))).1 } :
        Moment) = _
      rw [hconclude]
    have hafter : m.after (runSections changes (q :: queries)) =
        ({ m with world := w₁ } : Moment).after (runSections changes queries) := by
      show ((m.perform (.startRun changes q)).perform (.chore (.concludeRun q))).after
        (runSections changes queries) = _
      rw [hone]
    obtain ⟨hsame, hrest, hranRest⟩ := ih { m with world := w₁ }
    rw [hafter]
    refine ⟨hsame, ?_, ((Ran.startRun m.world q changes).trans hran).trans hranRest⟩
    have hquiet : (Action.runQuery changes q).quiet.run m.world = (w₁, .ok ()) := hconclude
    show ((Action.runQuery changes q).quiet >>= fun _ => queries.forM _).run m.world = _
    rw [Step.run_bind_ok hquiet]
    exact hrest

end Moment

/-! ## Operations -/

/-- Something that is done with nothing in between. -/
inductive Operation where
  | alone (s : Section)
  /-- A whole change cycle. -/
  | cycle (c : CoordinatorId)
  deriving DecidableEq

namespace Section

/-- Whether a section is part of a cycle. -/
def isPart : Section → Bool
  | beginCycle _ | startRun .. | concludeCycle .. => true
  | _ => false

end Section

namespace Moment

/-- The sections that an operation comes to. -/
def sectionsOf (m : Moment) : Operation → List Section
  | .alone s => [s]
  | .cycle c =>
    .beginCycle c ::
      match ((Step.beginCycle c).run m.world).2 with
      | .ok (some cycle) =>
        runSections cycle.changes cycle.queries ++ [.concludeCycle c cycle.queries]
      | _ => []

/-- The moment after an operation. -/
def operate (m : Moment) (o : Operation) : Moment := m.after (m.sectionsOf o)

/-- The moment after a row of operations. -/
def afterAll (m : Moment) (operations : List Operation) : Moment := operations.foldl operate m

theorem afterAll_append (m : Moment) (operations more : List Operation) :
    m.afterAll (operations ++ more) = (m.afterAll operations).afterAll more := List.foldl_append

/-- A cycle that has nothing to run is its start. -/
theorem operate_cycle_of_idle {m : Moment} {c : CoordinatorId} {w : World}
    {outcome : Except Failure (Option Step.Cycle)}
    (h : (Step.beginCycle c).run m.world = (w, outcome))
    (hidle : ∀ cycle, outcome ≠ .ok (some cycle)) :
    m.operate (.cycle c) = m.perform (.beginCycle c) := by
  unfold operate sectionsOf
  dsimp only
  rw [h]
  split
  · next cycle heq => exact absurd heq (hidle cycle)
  · rfl

theorem world_operate_of_idle {m : Moment} {c : CoordinatorId} {w : World}
    {outcome : Except Failure (Option Step.Cycle)}
    (h : (Step.beginCycle c).run m.world = (w, outcome))
    (hidle : ∀ cycle, outcome ≠ .ok (some cycle)) : (m.operate (.cycle c)).world = w := by
  rw [operate_cycle_of_idle h hidle]
  exact world_beginCycle h

/-- What a cycle comes to that has something to run. -/
theorem operate_cycle_of_begun {m : Moment} {c : CoordinatorId} {w : World} {cycle : Step.Cycle}
    (h : (Step.beginCycle c).run m.world = (w, .ok (some cycle))) :
    m.operate (.cycle c) =
      (({ m with world := w, begun := m.begun ++ [(c, cycle)] } : Moment).after
        (runSections cycle.changes cycle.queries)).perform (.concludeCycle c cycle.queries) := by
  have hbegin : m.perform (.beginCycle c) =
      { m with world := w, begun := m.begun ++ [(c, cycle)] } := by
    dsimp only [perform]
    rw [h]
  unfold operate sectionsOf
  dsimp only
  rw [h]
  show (m.perform (.beginCycle c)).after (_ ++ [.concludeCycle c cycle.queries]) = _
  rw [after_append, hbegin]
  rfl

/-- **A whole cycle** is what the action comes to whose callbacks do nothing. -/
theorem world_operate_cycle (m : Moment) (c : CoordinatorId) :
    (m.operate (.cycle c)).world = ((Action.runCycle c).quiet.run m.world).1 := by
  -- without callbacks the action is a step, made of the steps that its parts are
  have hquiet : (Action.runCycle c).quiet.run m.world =
      (Step.beginCycle c >>= fun begun => begun.elim (pure ()) fun cycle =>
        (cycle.queries.forM fun q => (Action.runQuery cycle.changes q).quiet) >>= fun _ =>
          Step.concludeCycle c cycle.queries).run m.world := by
    show (Action.ofStep (Step.beginCycle c) >>= _).quiet.run m.world = _
    rw [Action.quiet_bind, Action.quiet_ofStep]
    congr 1
    congr 1
    funext begun
    cases begun with
    | none => rfl
    | some cycle =>
      show Action.quiet (cycle.queries.forM (Action.runQuery cycle.changes) >>= fun _ =>
        Action.ofStep (Step.concludeCycle c cycle.queries)) = _
      rw [Action.quiet_bind, Action.quiet_forM]
      rfl
  rw [hquiet]
  rcases hrun : (Step.beginCycle c).run m.world with ⟨w, failure | _ | cycle⟩
  · rw [operate_cycle_of_idle hrun (by rintro cycle ⟨⟩), Step.run_bind_error hrun]
    dsimp only [perform]
    rw [hrun]
  · rw [operate_cycle_of_idle hrun (by rintro cycle ⟨⟩), Step.run_bind_ok hrun]
    dsimp only [perform]
    rw [hrun]
    rfl
  · obtain ⟨-, hruns, -⟩ := after_runSections cycle.changes cycle.queries
      { m with world := w, begun := m.begun ++ [(c, cycle)] }
    rw [operate_cycle_of_begun hrun, Step.run_bind_ok hrun, Option.elim_some,
      Step.run_bind_ok hruns]
    rfl

end Moment

/-! ## Actions whose callbacks do nothing -/

/-- A chore or a cycle. -/
def Operation.isRoutine : Operation → Bool
  | .alone (.chore _) | .cycle _ => true
  | .alone _ => false

/-- Chores and cycles, one after the other, lead from one world to the other. -/
def World.Operated (w w' : World) : Prop :=
  ∀ m : Moment, m.world = w → ∃ operations : List Operation,
    (∀ o ∈ operations, o.isRoutine) ∧ (m.afterAll operations).world = w'

namespace World.Operated

variable {w w' w'' : World}

theorem refl (w : World) : w.Operated w := fun _ hm => ⟨[], nofun, hm⟩

theorem trans (h : w.Operated w') (h' : w'.Operated w'') : w.Operated w'' := by
  intro m hm
  obtain ⟨operations, hroutine, hworld⟩ := h m hm
  obtain ⟨more, hmore, hworld'⟩ := h' (m.afterAll operations) hworld
  refine ⟨operations ++ more, fun o ho => ?_, ?_⟩
  · exact (List.mem_append.mp ho).elim (hroutine o) (hmore o)
  · rw [Moment.afterAll_append]
    exact hworld'

instance : IsPreorder World World.Operated where
  refl := refl
  trans _ _ _ := trans

theorem chore (w : World) (x : Chore) : w.Operated (x.perform w) := by
  rintro m rfl
  exact ⟨[.alone (.chore x)], fun o ho => List.mem_singleton.mp ho ▸ rfl, rfl⟩

theorem chores {α : Type} {f : World → α → World} (x : α → Chore)
    (h : ∀ w a, (x a).perform w = f w a) (as : List α) (w : World) :
    w.Operated (as.foldl f w) :=
  World.rel_foldl (fun w a => h w a ▸ chore w (x a)) as w

end World.Operated

namespace Action

open World (Operated)

theorem operated_runCycle (c : CoordinatorId) : (runCycle c).quiet.Stays Operated := by
  rintro _ m rfl
  exact ⟨[.cycle c], fun o ho => List.mem_singleton.mp ho ▸ rfl, m.world_operate_cycle c⟩

theorem operated_callCallbacks (q : QueryId) : (callCallbacks q).quiet.Stays Operated :=
  stays_bind (a := ofStep _) (.chore · (.tellCallbacks q)) fun _ => .pure ()

theorem operated_notifyHandle (h : HandleId) : (notifyHandle h).quiet.Stays Operated := by
  refine stays_bind (a := ofStep _) (.chore · (.setPending h true)) fun _ => ?_
  refine stays_bind (a := ofStep _) .world fun w => ?_
  cases (w.handle h).context with
  | none => exact .pure ()
  | some context =>
    exact stays_bind (a := ofStep _) (.chore · (.tellAvailable context)) fun _ => .pure ()

theorem operated_onChange (c : CoordinatorId) : (onChange c).quiet.Stays Operated := by
  refine stays_bind (stays_attempt (operated_runCycle c)) fun outcome => ?_
  refine stays_bind (a := ofStep _) .world fun w => ?_
  refine stays_bind (a := ofStep _) (.chores .retainHandle (fun _ _ => rfl) _) fun _ => ?_
  refine stays_bind (stays_forM operated_notifyHandle _) fun _ => ?_
  refine stays_bind (a := ofStep _) (.chores .releaseHandle (fun _ _ => rfl) _) fun _ => ?_
  exact .ofExcept outcome

theorem operated_wakeListeners (n : NotifierId) : (wakeListeners n).quiet.Stays Operated := by
  intro w
  let file := (w.file (w.notifier n).file).sweepListeners w.isAliveCoordinator
  have hsweep : w.Operated (w.setFile (w.notifier n).file file) :=
    .chore w (.sweepListeners (w.notifier n).file)
  have hretain : ∀ w, Operated w (file.listeners.foldl World.retainCoordinator w) :=
    .chores .retainCoordinator (fun _ _ => rfl) _
  have hwake : (file.listeners.forM fun c => do
      let _ ← (onChange c).attempt
      Step.update (·.releaseCoordinator c)).quiet.Stays Operated := by
    refine stays_forM (fun c => ?_) _
    exact stays_bind (stays_attempt (operated_onChange c)) fun _ =>
      (.chore · (.releaseCoordinator c))
  exact (hsweep.trans (hretain _)).trans (hwake _)

theorem operated_sendNotifications (c : CoordinatorId) :
    (sendNotifications c).quiet.Stays Operated := by
  refine stays_bind (a := ofStep _) .world fun s => ?_
  split
  · exact .fail _
  · split
    · exact .pure ()
    · next n _ =>
      refine stays_bind (a := ofStep _) (.chore · (.retainNotifier n)) fun _ => ?_
      exact stays_ensuring (operated_wakeListeners n) (.chore · (.releaseNotifier n))

theorem operated_withCoordinator {α : Type} {h : HandleId} {act : CoordinatorId → Action α}
    (hact : ∀ c, (act c).quiet.Stays Operated) : (withCoordinator h act).quiet.Stays Operated := by
  refine stays_bind (a := ofStep (Step.coordinatorOf h)) (fun w => ?_) fun c => ?_
  · show Operated w ((Step.coordinatorOf h).run w).1
    rw [Step.run_coordinatorOf]
    cases (w.handle h).coordinator with
    | none => exact .refl w
    | some c => exact .chore w (.retainCoordinator c)
  · exact stays_ensuring (hact c) (.chore · (.releaseCoordinator c))

theorem operated_commit (h : HandleId) (log : Log) : (commit h log).quiet.Stays Operated := by
  refine stays_bind (a := ofStep _) .world fun w => ?_
  dsimp only
  split
  · exact .fail _
  · refine operated_withCoordinator fun c => ?_
    refine stays_bind (a := ofStep _) (.chore · (.commit (w.handle h).config log)) fun version => ?_
    refine stays_bind (a := ofStep _) (.chore · (.moveHandle h (some version))) fun _ => ?_
    exact stays_bind (operated_sendNotifications c) fun _ => .pure version

theorem operated_advanceToReady (c : CoordinatorId) (h : HandleId) :
    (advanceToReady c h).quiet.Stays Operated := by
  refine stays_bind (a := ofStep _) (.chore · (.settle c h)) fun ⟨moved, due⟩ => ?_
  exact stays_bind (stays_forM operated_callCallbacks due) fun _ => .pure moved

theorem operated_refresh (h : HandleId) : (refresh h).quiet.Stays Operated := by
  refine operated_withCoordinator fun c => ?_
  refine stays_bind (a := ofStep _) (.chore · (.setPending h false)) fun _ => ?_
  refine stays_bind (operated_advanceToReady c h) fun moved => ?_
  cases moved with
  | false => exact .pure ()
  | true =>
    refine stays_bind (a := ofStep _) .world fun w => ?_
    cases (w.handle h).context with
    | none => exact .pure ()
    | some context =>
      exact stays_bind (a := ofStep _) (.chore · (.tellDidChange context)) fun _ => .pure ()

theorem operated_deliverAvailable (h : HandleId) : (deliverAvailable h).quiet.Stays Operated :=
  operated_withCoordinator fun c =>
    stays_bind (a := ofStep _) (.chore · (.deliverHere c h)) fun due =>
      stays_forM operated_callCallbacks due

end Action

/-! ## One by one -/

namespace Moment

/-- An operation that is no cycle goes by the rule `Moment.AllowsKept`. A cycle may always begin. -/
def AllowsAlone (c : CoordinatorId) (m : Moment) : Operation → Prop
  | .alone s => s.isPart = false ∧ m.AllowsKept c s
  | .cycle _ => True

instance (c : CoordinatorId) (m : Moment) (o : Operation) : Decidable (m.AllowsAlone c o) := by
  cases o <;> unfold AllowsAlone <;> infer_instance

/-- Whether every operation of a row goes by that rule. -/
def OneByOne (c : CoordinatorId) : Moment → List Operation → Prop
  | _, [] => True
  | m, o :: operations => m.AllowsAlone c o ∧ OneByOne c (m.operate o) operations

instance decideOneByOne (c : CoordinatorId) :
    ∀ (m : Moment) (operations : List Operation), Decidable (m.OneByOne c operations)
  | _, [] => .isTrue trivial
  | m, o :: operations =>
    have := decideOneByOne c (m.operate o) operations
    inferInstanceAs (Decidable (_ ∧ _))

/-- The runs of a cycle go by the rule, for the cycle has begun. -/
theorem follows_runSections (c : CoordinatorId) {changes : Changes} {queries : List QueryId}
    {m : Moment}
    (hbegun : ∀ q ∈ queries, ∃ p ∈ m.begun, p.2.changes = changes ∧ q ∈ p.2.queries) :
    m.Follows (AllowsKept c) (runSections changes queries) := by
  induction queries generalizing m with
  | nil => trivial
  | cons q queries ih =>
    obtain ⟨w₁, hconclude, hran⟩ := Step.run_concludeRun q (m.world.note (.run q changes))
    have hkept : (((m.perform (.startRun changes q)).perform
        (.chore (.concludeRun q))).world.coordinator c).config =
          (m.world.coordinator c).config := by
      show (((Step.concludeRun q).run (m.world.note (.run q changes))).1.coordinator c).config = _
      rw [hconclude, hran.coordinator]
      rfl
    refine ⟨⟨hbegun q List.mem_cons_self, .inr rfl⟩, ⟨trivial, .inr hkept⟩, ?_⟩
    exact ih fun p hp => hbegun p (List.mem_cons_of_mem q hp)

/-- The sections of an operation go by the rule. -/
theorem follows_sectionsOf {c : CoordinatorId} {m : Moment} {o : Operation}
    (h : m.AllowsAlone c o) : m.Follows (AllowsKept c) (m.sectionsOf o) := by
  cases o with
  | alone s => exact ⟨h.2, trivial⟩
  | cycle d =>
    obtain ⟨w, outcome, hrun, houtcome⟩ := Step.run_beginCycle d m.world
    have hwithin : ∀ {e w₁ w₂}, Within e w₁ w₂ →
        (w₂.coordinator c).config = (w₁.coordinator c).config := by
      intro e w₁ w₂ hwithin
      by_cases he : c = e
      · rw [he, hwithin.config]
      · rw [hwithin.others c he]
    have hbegin : m.AllowsKept c (.beginCycle d) := by
      refine ⟨trivial, .inr ?_⟩
      rw [world_beginCycle hrun]
      exact hwithin houtcome.within
    unfold sectionsOf
    dsimp only
    rw [hrun]
    rcases outcome with failure | _ | cycle
    · exact ⟨hbegin, trivial⟩
    · exact ⟨hbegin, trivial⟩
    · let m₁ : Moment := { m with world := w, begun := m.begun ++ [(d, cycle)] }
      have hmem : (d, cycle) ∈ m₁.begun := List.mem_append_right _ List.mem_cons_self
      have hbegun : m.perform (.beginCycle d) = m₁ := by
        dsimp only [perform]
        rw [hrun]
      refine ⟨hbegin, ?_⟩
      rw [hbegun]
      refine (follows_runSections c fun q hq => ⟨_, hmem, rfl, hq⟩).append ?_
      obtain ⟨hsame, -, -⟩ := after_runSections cycle.changes cycle.queries m₁
      rw [hsame]
      refine ⟨⟨⟨_, hmem, rfl, rfl⟩, .inr ?_⟩, trivial⟩
      let m₂ := m₁.after (runSections cycle.changes cycle.queries)
      obtain ⟨w₁, w', hconclude, hover, hthen, -, -⟩ :=
        Step.run_concludeCycle d cycle.queries m₂.world
      dsimp only [perform]
      rw [hconclude]
      exact (hwithin hthen).trans (by rw [hover.coordinator])

theorem OneByOne.of_append {c : CoordinatorId} {m : Moment} {operations more : List Operation}
    (h : m.OneByOne c (operations ++ more)) :
    m.OneByOne c operations ∧ (m.afterAll operations).OneByOne c more := by
  induction operations generalizing m with
  | nil => exact ⟨trivial, h⟩
  | cons o operations ih =>
    obtain ⟨hrest, hmore⟩ := ih h.2
    exact ⟨⟨h.1, hrest⟩, hmore⟩

/-- A row of operations is a row of sections. -/
theorem OneByOne.follows {c : CoordinatorId} {m : Moment} {operations : List Operation}
    (h : m.OneByOne c operations) :
    ∃ sections, m.Follows (AllowsKept c) sections ∧ m.after sections = m.afterAll operations := by
  induction operations generalizing m with
  | nil => exact ⟨[], trivial, rfl⟩
  | cons o operations ih =>
    obtain ⟨sections, hfollows, hafter⟩ := ih h.2
    refine ⟨m.sectionsOf o ++ sections, (follows_sectionsOf h.1).append hfollows, ?_⟩
    rw [after_append]
    exact hafter

/-- What holds between any two sections holds between any two operations. -/
theorem OneByOne.invariants {c : CoordinatorId} {operations : List Operation}
    (h : start.OneByOne c operations) : Accounted (start.afterAll operations) ∧
      Aimed ((start.afterAll operations).world.coordinator c) := by
  obtain ⟨sections, hfollows, hafter⟩ := h.follows
  rw [← hafter]
  exact ⟨Accounted.start.after (hfollows.mono fun _ _ => And.left), Aimed.after hfollows⟩

end Moment

end SnapshotCoordination
