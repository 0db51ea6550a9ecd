import Mathlib.Tactic.IntervalCases
import SnapshotCoordination.Proofs.Coordination.Replays
import SnapshotCoordination.Proofs.Handles.Keeping

/-!
# Cycles that overlap

Callbacks of a run may make another cycle of the same coordinator begin before the first one is over.
Cycles begin one after the other all the same, and each one replays from where the last one left off:
in the order in which they begin, the diffs that a query is to be run over follow the history of the
file. The runs need not be made in that order.

* **`Chronicle`** — diffs that cover one stretch of a history after the other;
* **`Moment.scheduled`**, **`World.diffs`** — what a query is to be run over, and what it was;
* **`runs_follow_history`** — whatever overlaps, what a query is to be run over is a chronicle, and so
  is what it was run over, as long as runs are made in the order in which their cycles began;
* **`exists_run_out_of_order`** — a run that commits has a query run over the newer diff first.
-/

namespace SnapshotCoordination

/-! ## Chronicles -/

/-- What a fresh recorder that observes some lists makes of the logs between two versions. -/
def File.recording (f : File) (observed : List ListKey) (u v : Version) : Changes :=
  (LogReader.replay (ChangeRecorder.observing observed) (f.logsBetween u v).flatten).1.changes

/-- These diffs lead from one version of a file to another: each of them covers the logs from where
the one before it left off. -/
inductive Chronicle (f : File) : Version → List Changes → Version → Prop where
  | nil (v : Version) : Chronicle f v [] v
  | cons {u v w : Version} {d : Changes} {ds : List Changes} (observed : List ListKey)
      (hle : u ≤ v) (hlatest : v ≤ f.latest) (hd : d = f.recording observed u v)
      (hrest : Chronicle f v ds w) : Chronicle f u (d :: ds) w

namespace Chronicle

variable {f f' : File} {u v w : Version} {ds es : List Changes}

theorem trans (h : Chronicle f u ds v) (h' : Chronicle f v es w) : Chronicle f u (ds ++ es) w := by
  induction h with
  | nil v => exact h'
  | cons observed hle hlatest hd hrest ih => exact .cons observed hle hlatest hd (ih h')

/-- Later commits take nothing back. -/
theorem grown (h : Chronicle f u ds v) (hgrown : f.commits <+: f'.commits) :
    Chronicle f' u ds v := by
  induction h with
  | nil v => exact .nil v
  | cons observed hle hlatest hd hrest ih =>
    refine .cons observed hle (Version.le_trans hlatest (File.latest_le_latest hgrown)) ?_ ih
    rw [hd, File.recording, File.recording, File.logsBetween_of_grown hgrown hlatest]

theorem of_prefix (h : Chronicle f u ds w) (hinitial : es <+: ds) : ∃ v, Chronicle f u es v := by
  induction h generalizing es with
  | nil v =>
    rw [List.prefix_nil.mp hinitial]
    exact ⟨v, .nil v⟩
  | cons observed hle hlatest hd hrest ih =>
    rcases List.prefix_cons_iff.mp hinitial with rfl | ⟨es, rfl, hes⟩
    · exact ⟨_, .nil _⟩
    · obtain ⟨v, hv⟩ := ih hes
      exact ⟨v, .cons observed hle hlatest hd hv⟩

end Chronicle

/-! ## Runs, due and made -/

/-- What a query was run over so far. -/
def World.diffs (w : World) (q : QueryId) : List Changes :=
  (w.runs.filter (·.1 == q)).map Prod.snd

/-- What the cycles of coordinator `c` that have begun run query `q` over. -/
def Moment.scheduled (m : Moment) (c : CoordinatorId) (q : QueryId) : List Changes :=
  (m.begun.filter fun p => p.1 == c && p.2.queries.contains q).map (·.2.changes)

namespace Moment

variable {m : Moment} {c d : CoordinatorId} {q : QueryId} {w : World} {cycle : Step.Cycle}

/-- A cycle that begins with something to run is one more on the schedule of its queries. -/
theorem scheduled_beginCycle (hrun : (Step.beginCycle d).run m.world = (w, .ok (some cycle))) :
    (m.perform (.beginCycle d)).scheduled c q =
      m.scheduled c q ++ if d = c ∧ q ∈ cycle.queries then [cycle.changes] else [] := by
  dsimp only [perform]
  rw [hrun]
  unfold scheduled
  rw [List.filter_append, List.map_append]
  congr 1
  by_cases hd : d = c <;> by_cases hq : q ∈ cycle.queries <;> simp [hd, hq]

/-- Nothing else is ever put there. -/
theorem begun_perform_of_idle {s : Section}
    (hidle : ∀ d w cycle, s = .beginCycle d →
      (Step.beginCycle d).run m.world ≠ (w, .ok (some cycle))) :
    (m.perform s).begun = m.begun := by
  cases s with
  | register d p =>
    dsimp only [perform]
    split <;> rfl
  | beginCycle d =>
    dsimp only [perform]
    split
    · rfl
    · next w cycle hrun => exact absurd hrun (hidle d w cycle rfl)
    · rfl
  | _ => rfl

end Moment

/-! ## Where cycles begin -/

namespace Replayed

variable {c : CoordinatorId} {f : FileId} {start : Version} {cycle : Step.Cycle} {config : Config}
  {w w₁ w' : World} {q : QueryId}

/-- A cycle that begins runs every live query of main rotation, -/
theorem mem_of_main (h : Replayed c f start cycle w w₁ w') (hq : q ∈ (w.coordinator c).queries)
    (halive : (w.query q).alive) : q ∈ cycle.queries := by
  rw [h.queries]
  exact List.mem_append_left _
    (Coordinator.mem_queries_swept.mpr ⟨hq, World.isDead_of_alive halive⟩)

/-- for which it goes on from where the query cursor was left, -/
theorem resumes (h : Replayed c f start cycle w w₁ w') (hopened : Opened c config w w₁)
    {g : FileId} {v : Version} (hv : Settled c q g v w) (halive : (w.query q).alive) :
    g = f ∧ v = start := by
  have hfound := hv.opened halive hopened
  rw [h.cursor, Option.some_inj, Cursor.mk.injEq, Option.some_inj] at hfound
  exact ⟨hfound.1.symm, hfound.2.symm⟩

/-- and leaves it at the latest version. -/
theorem settled (h : Replayed c f start cycle w w₁ w') (hq : q ∈ cycle.queries)
    (hmade : q < w.queries.size) : Settled c q f (w.file f).latest w' where
  made := by
    rw [h.within.queries]
    exact hmade
  main _ := h.main ▸ hq
  cursor _ := h.queryCursor

theorem chronicle (h : Replayed c f start cycle w w₁ w') :
    Chronicle (w.file f) start [cycle.changes] (w.file f).latest := by
  obtain ⟨recorder, hread, hchanges⟩ := h.read
  refine .cons (w.observed (w.sweptCoordinator c).lists) h.le (Version.le_refl _) ?_ (.nil _)
  rw [File.recording, hread, hchanges]

end Replayed

/-! ## Whatever overlaps -/

namespace Settled

variable {c : CoordinatorId} {q : QueryId} {f : FileId} {v : Version} {m : Moment}

/-- The parts of a cycle after its start leave the query cursor where it is, and so does everything
that is no part of a cycle. -/
theorem perform_of_begun {s : Section} (h : Settled c q f v m.world)
    (hbegun : ∀ d, s ≠ .beginCycle d) : Settled c q f v (m.perform s).world := by
  cases s with
  | beginCycle d => exact absurd rfl (hbegun d)
  | startRun changes p => exact h.congr (Nat.le_refl _) id rfl rfl
  | concludeCycle d queries =>
    obtain ⟨w₁, w', hrun, hover, hwithin, hself, -⟩ :=
      Step.run_concludeCycle d queries m.world
    dsimp only [Moment.perform]
    rw [hrun]
    have hsame := hover.coordinator c
    have hhanded : Settled c q f v w₁ :=
      h.congr hover.made (by rw [hover.alive]; exact id) (by rw [hsame]) (by rw [hsame])
    by_cases hd : c = d
    · subst hd
      rw [← hover.sweptCoordinator] at hself
      refine hhanded.within hwithin (fun p hp => ?_) (by rw [hself])
      rw [hself]
      exact hp
    · exact hhanded.other hwithin hd
  | _ => exact h.perform rfl

end Settled

/-- What the cycles of coordinator `c` run query `q` over follows the history of its file, and the
query cursor is where that ends. -/
def ReadOn (c : CoordinatorId) (q : QueryId) (m : Moment) : Prop :=
  m.scheduled c q = [] ∨ ∃ f u v, (m.world.coordinator c).file? = some f ∧
    Chronicle (m.world.file f) u (m.scheduled c q) v ∧ Settled c q f v m.world

namespace ReadOn

variable {c : CoordinatorId} {q : QueryId} {m m' : Moment}

/-- Nothing was scheduled, and the query cursor is where it was. -/
theorem congr (h : ReadOn c q m) (hscheduled : m'.scheduled c q = m.scheduled c q)
    (hfile : ∀ f, (m.world.coordinator c).file? = some f → (m'.world.coordinator c).file? = some f)
    (hcommits : ∀ f, (m.world.file f).commits <+: (m'.world.file f).commits)
    (hsettled : ∀ f v, Settled c q f v m.world → Settled c q f v m'.world) : ReadOn c q m' := by
  rcases h with hnone | ⟨f, u, v, hf, hchronicle, hv⟩
  · exact .inl (hscheduled.trans hnone)
  · refine .inr ⟨f, u, v, hfile f hf, ?_, hsettled f v hv⟩
    rw [hscheduled]
    exact hchronicle.grown (hcommits f)

/-- **A cycle goes on from where the last one left off**, be that over or not. -/
theorem beginCycle (h : ReadOn c q m) (haccounted : Accounted m)
    (haimed : Aimed (m.world.coordinator c)) {w : World} {cycle : Step.Cycle}
    (hrun : (Step.beginCycle c).run m.world = (w, .ok (some cycle))) :
    ReadOn c q (m.perform (.beginCycle c)) := by
  obtain ⟨config, w₁, f, start, hopened, hf, hreplayed⟩ := replayed_of_begun haimed hrun
  have hwithin := hreplayed.within
  have hscheduled := Moment.scheduled_beginCycle (c := c) (q := q) hrun
  have hworld : (m.perform (.beginCycle c)).world = w := Moment.world_beginCycle hrun
  have hcommits : ∀ g, (m.world.file g).commits <+: (w.file g).commits := fun g =>
    hwithin.commits g ▸ List.prefix_refl _
  have hconfig : (w.coordinator c).file? = (m.world.coordinator c).file? := by
    rw [Coordinator.file?, Coordinator.file?, hwithin.config]
  by_cases hq : q ∈ cycle.queries
  · obtain ⟨hlisted, hlive⟩ := hreplayed.live hopened hq
    have hsettled := hreplayed.settled hq (haccounted.made q c (haccounted.listed q c hlisted))
    have hnext := hreplayed.chronicle.grown (hcommits f)
    have hfile : (w.coordinator c).file? = some f := by
      rw [hconfig, Coordinator.file?, hopened.configured]
      exact hf
    rw [if_pos ⟨rfl, hq⟩] at hscheduled
    unfold ReadOn
    rw [hworld, hscheduled]
    rcases h with hnone | ⟨g, u, v, -, hchronicle, hv⟩
    · rw [hnone, List.nil_append]
      exact .inr ⟨f, start, _, hfile, hnext, hsettled⟩
    · obtain ⟨rfl, rfl⟩ := hreplayed.resumes hopened hv hlive
      exact .inr ⟨g, u, _, hfile, (hchronicle.grown (hcommits g)).trans hnext, hsettled⟩
  · -- the query does not live if it was in main rotation
    rw [if_neg fun h => hq h.2, List.append_nil] at hscheduled
    refine h.congr hscheduled (fun g hg => by rw [hworld, hconfig, hg])
      (by rw [hworld]; exact hcommits) fun g v hv => ?_
    have hdead : ¬ (w.query q).alive := by
      rw [hwithin.query]
      exact fun hlive => hq (hreplayed.mem_of_main (hv.main hlive) hlive)
    rw [hworld]
    exact ⟨by rw [hwithin.queries]; exact hv.made, fun h => absurd h hdead,
      fun h => absurd h hdead⟩

/-- The step lemma. -/
theorem perform {s : Section} (hallowed : m.AllowsKept c s) (h : ReadOn c q m)
    (haccounted : Accounted m) (haimed : Aimed (m.world.coordinator c)) :
    ReadOn c q (m.perform s) := by
  have hcommits := m.commits_perform s
  have hfile : ∀ f, (m.world.coordinator c).file? = some f →
      ((m.perform s).world.coordinator c).file? = some f := by
    intro f hf
    rcases hallowed.2 with hnone | hkept
    · rw [Coordinator.file?, hnone] at hf
      cases hf
    · rw [← hf, Coordinator.file?, Coordinator.file?, hkept]
  have hkept : (m.perform s).begun = m.begun →
      (∀ f v, Settled c q f v m.world → Settled c q f v (m.perform s).world) →
      ReadOn c q (m.perform s) := fun hbegun hsettled =>
    h.congr (by rw [Moment.scheduled, Moment.scheduled, hbegun]) hfile hcommits hsettled
  cases s with
  | beginCycle d =>
    obtain ⟨w, outcome, hrun, houtcome⟩ := Step.run_beginCycle d m.world
    have hworld : (m.perform (.beginCycle d)).world = w := Moment.world_beginCycle hrun
    by_cases hbegun : ∃ cycle, outcome = .ok (some cycle)
    · obtain ⟨cycle, rfl⟩ := hbegun
      by_cases hd : c = d
      · subst hd
        exact h.beginCycle haccounted haimed hrun
      · have hscheduled := Moment.scheduled_beginCycle (c := c) (q := q) hrun
        rw [if_neg fun h => hd h.1.symm, List.append_nil] at hscheduled
        exact h.congr hscheduled hfile hcommits fun f v hv =>
          hworld ▸ hv.other houtcome.within hd
    · have hidle : ∀ cycle, outcome ≠ .ok (some cycle) := fun cycle heq => hbegun ⟨cycle, heq⟩
      refine hkept (Moment.begun_perform_of_idle fun d' w' cycle hd' hrun' => ?_) fun f v hv => ?_
      · obtain rfl := Section.beginCycle.inj hd'
        rw [hrun] at hrun'
        exact hidle cycle (Prod.mk.inj hrun').2
      · rw [hworld]
        by_cases hd : c = d
        · subst hd
          exact hv.of_idle houtcome hidle
        · exact hv.other houtcome.within hd
  | _ =>
    exact hkept (Moment.begun_perform_of_idle fun d w cycle hd => by cases hd)
      fun f v hv => hv.perform_of_begun fun d hd => by cases hd

/-- The run lemma. -/
theorem after {sections : List Section}
    (hallowed : Moment.start.Follows (Moment.AllowsKept c) sections) :
    ReadOn c q (Moment.start.after sections) := by
  let I : Moment → Prop := fun m => Accounted m ∧ Aimed (m.world.coordinator c) ∧ ReadOn c q m
  have hstart : I .start := ⟨.start, ⟨fun hne => absurd rfl hne, nofun, nofun⟩, .inl rfl⟩
  have hstep : ∀ m s, m.AllowsKept c s → I m → I (m.perform s) :=
    fun m s hs ⟨haccounted, haimed, h⟩ =>
      ⟨haccounted.perform s hs.1, haimed.perform hs, h.perform hs haccounted haimed⟩
  exact (hallowed.preserves hstep hstart).2.2

end ReadOn

/-! ## Runs in turn -/

/-- A row of runs over the same changes adds to the diffs of a query for each of its places. -/
theorem World.diffs_of_runs {w w' : World} {queries : List QueryId} {changes : Changes}
    (h : w'.runs = w.runs ++ queries.map (·, changes)) (q : QueryId) :
    w'.diffs q = w.diffs q ++ List.replicate (queries.count q) changes := by
  unfold World.diffs
  rw [h, List.filter_append, List.map_append, List.filter_map, List.map_map]
  congr 1
  have hfilter : queries.filter ((fun p : QueryId × Changes => p.1 == q) ∘ (·, changes)) =
      List.replicate (queries.count q) q :=
    List.filter_beq q
  rw [hfilter, List.map_replicate]
  rfl

namespace Moment

variable {c : CoordinatorId} {q : QueryId} {m : Moment}

theorem registered_after (m : Moment) (sections : List Section) :
    m.registered <+: (m.after sections).registered :=
  preserved_after (I := fun m' => m.registered <+: m'.registered)
    (fun m' s h => h.trans (m'.registered_perform s)) (List.prefix_refl _) sections

/-- What an operation adds to the schedule of a query is run by the time it is over. -/
theorem diffs_operate {o : Operation} (hallowed : m.AllowsAlone c o) (haccounted : Accounted m)
    (haimed : Aimed (m.world.coordinator c))
    (honly : ∀ d, (q, d) ∈ (m.operate o).registered → d = c)
    (h : m.world.diffs q = m.scheduled c q) :
    (m.operate o).world.diffs q = (m.operate o).scheduled c q := by
  have hidle : ∀ {m' : Moment}, m'.world.runs = m.world.runs → m'.begun = m.begun →
      m'.world.diffs q = m'.scheduled c q := fun hruns hbegun => by
    unfold World.diffs scheduled at h ⊢
    rw [hruns, hbegun, h]
  cases o with
  | alone s =>
    have hpart := hallowed.1
    refine hidle ?_ (begun_perform_of_idle fun d w cycle hs => ?_)
    · show (m.perform s).world.runs = _
      rw [runs_perform]
      cases s <;> first | exact List.append_nil _ | exact nomatch hpart
    · rw [hs] at hpart
      cases hpart
  | cycle d =>
    obtain ⟨w, outcome, hrun, houtcome⟩ := Step.run_beginCycle d m.world
    have hwithin := houtcome.within
    by_cases hbegun : ∃ cycle, outcome = .ok (some cycle)
    · obtain ⟨cycle, rfl⟩ := hbegun
      let m₁ := m.perform (.beginCycle d)
      have hm₁ : m₁ = { m with world := w, begun := m.begun ++ [(d, cycle)] } := by
        dsimp only [m₁, perform]
        rw [hrun]
      obtain ⟨hsame, -, -⟩ := after_runSections cycle.changes cycle.queries m₁
      have hafter : (m.operate (.cycle d)).begun = m₁.begun := by
        rw [operate_cycle_of_begun hrun, ← hm₁, hsame]
        rfl
      have hscheduled : (m.operate (.cycle d)).scheduled c q =
          m.scheduled c q ++ if d = c ∧ q ∈ cycle.queries then [cycle.changes] else [] := by
        rw [← scheduled_beginCycle hrun]
        unfold scheduled
        rw [hafter]
      have hruns : (m.operate (.cycle d)).world.runs =
          m.world.runs ++ cycle.queries.map (·, cycle.changes) := by
        obtain ⟨-, -, hruns, -⟩ := after_begun hrun
        rw [hruns, hwithin.runs]
      rw [World.diffs_of_runs hruns, hscheduled, h]
      congr 1
      by_cases hq : q ∈ cycle.queries
      · -- a query is run by no coordinator but its own, and by that once
        have hmem : (d, cycle) ∈ m₁.begun := by
          rw [hm₁]
          exact List.mem_append_right _ List.mem_cons_self
        have hregistered := ((haccounted.perform (.beginCycle d) trivial).running _ hmem q hq).1
        obtain rfl := honly d ((m₁.registered_after _).subset hregistered)
        obtain ⟨config, w₁, f, start, hopened, -, hcycled⟩ := cycled_of_begun haimed hrun
        have hnodup := hcycled.nodup_queries hopened (haccounted.nodup_lists d)
        rw [List.count_eq_one_of_mem hnodup hq, if_pos ⟨rfl, hq⟩]
        rfl
      · rw [List.count_eq_zero.mpr hq, if_neg fun h => hq h.2]
        rfl
    · have hnone : ∀ cycle, outcome ≠ .ok (some cycle) := fun cycle heq => hbegun ⟨cycle, heq⟩
      refine hidle ?_ ?_
      · rw [world_operate_of_idle hrun hnone]
        exact hwithin.runs
      · rw [operate_cycle_of_idle hrun hnone]
        refine begun_perform_of_idle fun d' w' cycle hd' hrun' => ?_
        obtain rfl := Section.beginCycle.inj hd'
        rw [hrun] at hrun'
        exact hnone cycle (Prod.mk.inj hrun').2

/-- Where operations are made one at a time, all runs that are due are made between any two of them,
and no others. -/
theorem diffs_afterAll {operations : List Operation} (hallowed : m.OneByOne c operations)
    (haccounted : Accounted m) (haimed : Aimed (m.world.coordinator c))
    (honly : ∀ d, (q, d) ∈ (m.afterAll operations).registered → d = c)
    (h : m.world.diffs q = m.scheduled c q) :
    (m.afterAll operations).world.diffs q = (m.afterAll operations).scheduled c q := by
  induction operations generalizing m with
  | nil => exact h
  | cons o operations ih =>
    have hfollows := follows_sectionsOf hallowed.1
    obtain ⟨sections, -, hrest⟩ := hallowed.2.follows
    have hregistered : (m.operate o).registered <+: (m.afterAll (o :: operations)).registered := by
      show _ <+: ((m.operate o).afterAll operations).registered
      rw [← hrest]
      exact registered_after _ sections
    exact ih hallowed.2 (haccounted.after (hfollows.mono fun _ _ => And.left))
      (hfollows.preserves (I := fun m => Aimed (m.world.coordinator c)) (fun _ _ => Aimed.perform)
        haimed) honly
      (diffs_operate hallowed.1 haccounted haimed (fun d hd => honly d (hregistered.subset hd)) h)

end Moment

/-! ## Histories -/

theorem ReadOn.chronicle {c : CoordinatorId} {q : QueryId} {m : Moment} (h : ReadOn c q m)
    {f : FileId} (hf : (m.world.coordinator c).file? = some f) :
    ∃ u v, Chronicle (m.world.file f) u (m.scheduled c q) v := by
  rcases h with hnone | ⟨g, u, v, hg, hchronicle, -⟩
  · exact ⟨⟨0, 0⟩, ⟨0, 0⟩, by rw [hnone]; exact .nil _⟩
  · obtain rfl : f = g := Option.some_inj.mp (hf.symm.trans hg)
    exact ⟨u, v, hchronicle⟩

/-- Where operations are made one at a time, the runs of a query follow the history of its file. -/
theorem runs_follow_history_one_by_one {c : CoordinatorId} {operations : List Operation}
    (hallowed : Moment.start.OneByOne c operations) {q : QueryId} {f : FileId}
    (hregistered : (q, c) ∈ (Moment.start.afterAll operations).registered)
    (hf : ((Moment.start.afterAll operations).world.coordinator c).file? = some f) :
    let w := (Moment.start.afterAll operations).world
    ∃ u v, Chronicle (w.file f) u (w.diffs q) v := by
  intro w
  obtain ⟨sections, hfollows, hafter⟩ := hallowed.follows
  have hread : ReadOn c q (Moment.start.afterAll operations) := hafter ▸ ReadOn.after hfollows
  have haccounted := hallowed.invariants.1
  have hturn := Moment.diffs_afterAll hallowed .start ⟨fun hne => absurd rfl hne, nofun, nofun⟩
    (fun d hd => (haccounted.once q c d hregistered hd).symm) rfl
  obtain ⟨u, v, hchronicle⟩ := hread.chronicle hf
  exact ⟨u, v, hturn ▸ hchronicle⟩

/-- **What a query is run over follows the history of its file.** Let every query be registered once,
and let coordinator `c` keep its configuration. Cycles may overlap in any way. In the order in which
they begin, what its cycles run a query over leads from one version of the file to another, one stretch
after the other; and so does what the query was run over so far, if the runs were made in that
order. -/
theorem runs_follow_history {c : CoordinatorId} {sections : List Section}
    (hallowed : Moment.start.Follows (Moment.AllowsKept c) sections) (q : QueryId) {f : FileId}
    (hf : ((Moment.start.after sections).world.coordinator c).file? = some f) :
    let m := Moment.start.after sections
    ∃ u, (∃ v, Chronicle (m.world.file f) u (m.scheduled c q) v) ∧
      (m.world.diffs q <+: m.scheduled c q →
        ∃ v, Chronicle (m.world.file f) u (m.world.diffs q) v) := by
  intro m
  obtain ⟨u, v, hchronicle⟩ := (ReadOn.after (q := q) hallowed).chronicle hf
  exact ⟨u, ⟨v, hchronicle⟩, hchronicle.of_prefix⟩

/-- A write to the first row of a table. -/
def writeTo (table : Nat) : Log := [.selectTable table, .set 0 0 (.int 1)]

/-- What a recorder that observes no list makes of a write. -/
def written (table : Nat) : Changes :=
  (LogReader.replay (ChangeRecorder.observing []) (writeTo table)).1.changes

/-- Two queries are registered and run. -/
def twoQueries : List Section :=
  [.chore .makeEngine, .chore .makeRegistry, .chore (.getCoordinator 0 "/a"),
    .chore (.getHandle 0 none (.forFile "/a" 0)), .chore (.makeQuery none [] ⟨1, 0⟩),
    .register 0 0, .chore (.makeQuery none [] ⟨1, 0⟩), .register 0 1, .beginCycle 0,
    .startRun .empty 0, .chore (.concludeRun 0), .startRun .empty 1, .chore (.concludeRun 1),
    .concludeCycle 0 [0, 1]]

/-- A cycle begins and is over between the runs of another one. -/
def cycleWithin : List Section :=
  [.chore (.commit (.forFile "/a" 0) (writeTo 0)), .beginCycle 0, .startRun (written 0) 0,
    .chore (.commit (.forFile "/a" 0) (writeTo 1)), .beginCycle 0, .startRun (written 1) 0,
    .chore (.concludeRun 0), .startRun (written 1) 1, .chore (.concludeRun 1),
    .concludeCycle 0 [0, 1], .chore (.concludeRun 0), .startRun (written 0) 1,
    .chore (.concludeRun 1), .concludeCycle 0 [0, 1]]

/-- The first query is run in turn, and the second one is not. -/
theorem runs_follow_history_cycleWithin :
    let m := Moment.start.after (twoQueries ++ cycleWithin)
    Moment.start.Follows (Moment.AllowsKept 0) (twoQueries ++ cycleWithin) ∧
      (m.world.diffs 0 = [.empty, written 0, written 1] ∧
        m.world.diffs 1 = [.empty, written 1, written 0]) ∧
      (∃ u v, Chronicle (m.world.file ⟨0, "/a"⟩) u (m.world.diffs 0) v) ∧
      ∃ u v, Chronicle (m.world.file ⟨0, "/a"⟩) u [.empty, written 0, written 1] v := by
  intro m
  have hallowed : Moment.start.Follows (Moment.AllowsKept 0) (twoQueries ++ cycleWithin) := by
    decide +kernel
  have hf : (m.world.coordinator 0).file? = some ⟨0, "/a"⟩ := by decide +kernel
  have hfirst : m.world.diffs 0 = m.scheduled 0 0 := by decide +kernel
  have hsecond : m.scheduled 0 1 = [.empty, written 0, written 1] := by decide +kernel
  obtain ⟨u, -, hturn⟩ := runs_follow_history hallowed 0 hf
  obtain ⟨u', ⟨v', hscheduled⟩, -⟩ := runs_follow_history hallowed 1 hf
  exact ⟨hallowed, ⟨by decide +kernel, by decide +kernel⟩,
    ⟨u, hturn (hfirst ▸ List.prefix_refl _)⟩, ⟨u', v', hsecond ▸ hscheduled⟩⟩

/-- The first query commits once more when it is run for the first commit. -/
def committingOnce (callback : Callback) (w : World) : World :=
  if callback = .run 0 ∧ (w.file ⟨0, "/a"⟩).commits.length = 1 then
    ((Action.commit 0 (writeTo 1)).quietly w).1
  else w

/-- Of these two commits a recorder has room for the table that was written to last. -/
theorem length_tables_recording {f : File} (hcommits : f.commits = [writeTo 0, writeTo 1])
    (observed : List ListKey) {u v : Version} (hle : u ≤ v) (hlatest : v ≤ f.latest) :
    (f.recording observed u v).tables.length =
      if u.number < v.number then v.number - 1 else 0 := by
  obtain ⟨a, i⟩ := u
  obtain ⟨b, j⟩ := v
  rw [Version.le_def] at hle hlatest
  simp only [File.latest, hcommits, List.length_cons, List.length_nil] at hle hlatest
  have hb : b ≤ 3 := by omega
  have ha : a ≤ b := by omega
  unfold File.recording
  rw [File.logsBetween_congr (f := ⟨[writeTo 0, writeTo 1], [], 0⟩) hcommits]
  interval_cases b <;> interval_cases a <;> rfl

/-- Not every run of a query goes on from where the one before it left off: the first query commits,
and the cycle of its commit runs the second query before the older cycle does. -/
theorem exists_run_out_of_order :
    ¬ ∀ (client : Callback → World → World) (sections : List Section) (h : HandleId) (log : Log)
      (c : CoordinatorId) (q : QueryId) (f : FileId),
      (∀ callback (m : Moment), ∃ m', m.Precedes m' ∧ m'.world = client callback m.world) →
      Moment.start.Follows Moment.Allows sections →
      let w := (Moment.start.after sections).world
      let w' := (((Action.commit h log).begin w).finish client).1
      q ∈ (w.coordinator c).lists → (w.coordinator c).file? = some f →
      ∃ u v, Chronicle (w'.file f) u (w'.diffs q) v := by
  intro hall
  have hclient : ∀ callback (m : Moment), ∃ m', m.Precedes m' ∧
      m'.world = committingOnce callback m.world := by
    intro callback m
    unfold committingOnce
    split
    · exact (Action.sectioned_commit 0 (writeTo 1) m).finish fun _ m' => ⟨m', .refl m', rfl⟩
    · exact ⟨m, .refl m, rfl⟩
  obtain ⟨u, v, hchronicle⟩ := hall committingOnce twoQueries 0 (writeTo 0) 0 1 ⟨0, "/a"⟩ hclient
    (by decide +kernel) (by decide +kernel) (by decide +kernel)
  let w := (((Action.commit 0 (writeTo 0)).begin (Moment.start.after twoQueries).world).finish
    committingOnce).1
  have hcommits : (w.file ⟨0, "/a"⟩).commits = [writeTo 0, writeTo 1] := by decide +kernel
  have hdiffs : w.diffs 1 = [.empty, written 1, written 0] := by decide +kernel
  change Chronicle (w.file ⟨0, "/a"⟩) u (w.diffs 1) v at hchronicle
  rw [hdiffs] at hchronicle
  obtain - | ⟨-, -, -, -, hrest⟩ := hchronicle
  obtain - | ⟨newer, hle, hlatest, hnewer, hrest⟩ := hrest
  obtain - | ⟨older, hle', hlatest', holder, -⟩ := hrest
  -- the newer diff covers the last commit, and there is nothing behind that
  have hnewerLength : 2 = _ := congrArg (·.tables.length) hnewer
  have holderLength : 1 = _ := congrArg (·.tables.length) holder
  rw [length_tables_recording hcommits _ hle hlatest] at hnewerLength
  rw [length_tables_recording hcommits _ hle' hlatest'] at holderLength
  split at hnewerLength <;> split at holderLength <;> omega

end SnapshotCoordination
