import SnapshotCoordination.Proofs.Coordination.Sections

/-!
# What the pipeline touches

All that the pipeline of a coordinator does to a process is made of five kinds of changes: it looks
at files and counts replays, it changes the background of that one coordinator (`Turns`), and it
changes queries and tells them. A relation that `Covers` these holds between the world before and the world
after every part of the pipeline, whether or not that fails; for what moves the cursors and tells
nobody, it is enough that it `Drives` the first three.

* **`Drives.stepAdvancer`**, **`Drives.replayQueryCursor`** — the cursors are moved;
* **`Covers.registerQuery`** — a registration;
* **`Covers.beginCycle`**, **`Covers.runQuery`**, **`Covers.concludeCycle`** — the parts of a change
  cycle, as long as its callbacks do nothing, and **`Covers.runCycle`**, all of it;
* **`Covers.deliverAll`** — a delivery;
* **`Moment.perform_of_covers`** — any section that is no chore.

It is how one shows that the pipeline leaves something alone without a lemma for each of its steps.
-/

namespace SnapshotCoordination

/-- What a coordinator is turned into in world `w`: what it keeps for its handles is as before, and
if a background cursor reads now, it reads on, or it reads a version that exists. -/
structure Turns (w : World) (s s' : Coordinator) : Prop where
  foreground : s'.foreground = s.foreground
  grounded : ∀ cursor ∈ s'.cursors, cursor ∈ s.cursors ∨ cursor.Grounded (w.file cursor.file)

namespace Turns

variable {w : World} {s : Coordinator} {cursor : Cursor}

theorem of_each {s' : Coordinator} (hforeground : s'.foreground = s.foreground)
    (hquery : ∀ cursor, s'.queryCursor = some cursor →
      s.queryCursor = some cursor ∨ cursor.Grounded (w.file cursor.file))
    (hadvancer : ∀ cursor, s'.advancer = some cursor →
      s.advancer = some cursor ∨ cursor.Grounded (w.file cursor.file)) : Turns w s s' where
  foreground := hforeground
  grounded cursor h := by
    rw [Coordinator.mem_cursors]
    rcases Coordinator.mem_cursors.mp h with h | h
    · exact (hquery cursor h).imp_left .inl
    · exact (hadvancer cursor h).imp_left .inr

/-- The cursors are left alone. -/
theorem of_cursors {s' : Coordinator} (hforeground : s'.foreground = s.foreground)
    (hcursors : s'.cursors = s.cursors) : Turns w s s' :=
  ⟨hforeground, fun _ h => .inl (hcursors ▸ h)⟩

theorem query (h : cursor.Grounded (w.file cursor.file)) :
    Turns w s { s with queryCursor := some cursor } :=
  of_each rfl (fun _ hcursor => .inr (Option.some_inj.mp hcursor ▸ h)) fun _ => .inl

theorem advancer (h : cursor.Grounded (w.file cursor.file)) :
    Turns w s { s with advancer := some cursor } :=
  of_each rfl (fun _ => .inl) fun _ hcursor => .inr (Option.some_inj.mp hcursor ▸ h)

/-- A cursor that may have been stopped. -/
theorem grounded_of_endRead {p : Prop} [Decidable p] {before : Option Cursor} {f : File}
    (h : (if p then before.map (·.endRead) else before) = some cursor) :
    before = some cursor ∨ cursor.Grounded f := by
  split at h
  · obtain ⟨old, -, rfl⟩ := Option.map_eq_some_iff.mp h
    exact .inr (old.grounded_endRead f)
  · exact .inl h

end Turns

/-- The relation holds across every change that coordinator `c` makes to move its cursors. -/
structure Drives (c : CoordinatorId) (R : World → World → Prop) : Prop where
  looked : ∀ {w w'}, Looked w w' → R w w'
  file : ∀ w f (x : File), x.commits = (w.file f).commits → x.listeners = (w.file f).listeners →
    R w (w.setFile f x)
  coordinator : ∀ w f, (∀ s, Turns w s (f s)) → R w (w.onCoordinator c f)

/-- The relation holds across every change that the pipeline of coordinator `c` is made of. -/
structure Covers (c : CoordinatorId) (R : World → World → Prop) : Prop extends Drives c R where
  query : ∀ w q f, R w (w.onQuery q f)
  told : ∀ w e, e.available? = none → R w (w.note e)

/-! ## Cursors -/

namespace Drives

variable {c : CoordinatorId} {R : World → World → Prop} (hR : Drives c R)

include hR

theorem look {α : Type} {s : Step α} (h : s.Stays Looked) : s.Stays R :=
  h.mono fun _ _ => hR.looked

theorem onCoordinator {f : Coordinator → Coordinator} (hf : ∀ w s, Turns w s (f s)) :
    (Step.onCoordinator c f).Stays R := .update fun w => hR.coordinator w f (hf w)

theorem abandonImport : (Step.abandonImport c).Stays R :=
  hR.onCoordinator fun _ _ => .of_cursors rfl rfl

/-- The waiting queries that are ready join the others, and the advancer may stop. -/
theorem joinMain {p : Prop} [Decidable p] (ready : List QueryId) :
    (Step.onCoordinator c fun s =>
      { s with
        queries := s.queries ++ ready
        advancer := if p then s.advancer.map (·.endRead) else s.advancer }).Stays R :=
  hR.onCoordinator fun _ _ => .of_each rfl (fun _ => .inl) fun _ => Turns.grounded_of_endRead

variable [IsPreorder World R]

omit hR in
theorem readCoordinator : (Step.coordinator c).Stays R := .bind .world fun _ => .pure _

theorem capturing {s : Step Unit} (h : s.Stays R) : (Step.capturing c s).Stays R := by
  refine .bind h.attempt fun outcome => ?_
  cases outcome with
  | ok _ => exact .pure ()
  | error failure => exact hR.onCoordinator fun _ _ => .of_cursors rfl rfl

/-- A cursor is opened, and one of the two. -/
theorem openCursorAt (config : Config) (asked : Option Version)
    {f : Cursor → Coordinator → Coordinator}
    (hf : ∀ w cursor s, cursor.Grounded (w.file cursor.file) → Turns w s (f cursor s)) :
    (Step.openCursorAt config asked >>= fun cursor => Step.onCoordinator c (f cursor)).Stays R := by
  intro w
  have hlooked := Step.stays_openCursorAt config asked w
  rcases hopen : (Step.openCursorAt config asked).run w with ⟨w₁, failure | cursor⟩ <;>
    rw [hopen] at hlooked
  · rw [Step.run_bind_error hopen]
    exact hR.looked hlooked
  · obtain ⟨-, hcurrent, hle⟩ := Step.openCursorAt_eq_ok hopen
    rw [Step.run_bind_ok hopen]
    refine trans_of R (hR.looked hlooked) (hR.coordinator w₁ _ fun s => hf w₁ cursor s ?_)
    intro u hu
    rw [hcurrent, Option.some_inj] at hu
    rw [hlooked.file]
    exact hu ▸ hle

theorem beginQueryRead (cursor : Cursor) (asked : Option Version) :
    (Step.beginQueryRead c cursor asked).Stays R :=
  .world_bind fun w => Step.Stays.ofExcept_from fun _ hmoved =>
    hR.coordinator w _ fun _ => .query (Cursor.grounded_of_beginRead hmoved)

theorem beginAdvancerRead (cursor : Cursor) (asked : Option Version) :
    (Step.beginAdvancerRead c cursor asked).Stays R :=
  .world_bind fun w => Step.Stays.ofExcept_from fun _ hmoved =>
    hR.coordinator w _ fun _ => .advancer (Cursor.grounded_of_beginRead hmoved)

theorem stepAdvancer (asked : Option Version) : (Step.stepAdvancer c asked).Stays R := by
  refine .bind readCoordinator fun s => ?_
  split
  · exact .fail _
  · refine .world_bind fun w => Step.Stays.ofExcept_from fun moved hmoved => ?_
    exact Step.Stays.bind_from
      (hR.coordinator w _ fun _ => .advancer (Cursor.grounded_of_advance hmoved)) fun _ => .pure _

theorem replayQueryCursor (asked : Option Version) (recorder : ChangeRecorder) :
    (Step.replayQueryCursor c asked recorder).Stays R := by
  refine .bind readCoordinator fun s => ?_
  split
  · exact .fail _
  · next cursor _ =>
    -- the replay counts in the very world that it is made in
    refine Step.Stays.world_bind fun w => ?_
    let replay := cursor.follow (w.fileOf cursor) asked recorder
    have hcommits : replay.file.commits = (w.file cursor.file).commits := Step.commits_follow ..
    have hrest : R (w.setFile cursor.file replay.file) ((do
        let cursor ← Step.ofExcept replay.outcome
        Step.onCoordinator c fun s => { s with queryCursor := some cursor }
        return replay.reader.changes : Step Changes).run (w.setFile cursor.file replay.file)).1 := by
      refine Step.Stays.ofExcept_from fun moved hmoved =>
        Step.Stays.bind_from (hR.coordinator _ _ fun _ => .query ?_) fun _ => .pure _
      have hgrounded := Cursor.grounded_of_follow hmoved
      rw [Cursor.file_of_follow hmoved] at hgrounded ⊢
      rw [World.file_setFile, if_pos rfl]
      exact hgrounded.grown (hcommits ▸ List.prefix_refl _)
    exact trans_of R (hR.file w cursor.file replay.file hcommits (Step.listeners_follow ..)) hrest

theorem pinVersion (config : Config) (version : Version) :
    (Step.pinVersion c config version).Stays R := by
  refine .bind readCoordinator fun s => .ite (.pure ()) (hR.capturing ?_)
  split
  · exact hR.openCursorAt config _ fun _ _ _ => .advancer
  · next cursor _ =>
    refine .ite (hR.beginAdvancerRead _ _) (.ite ?_ (.pure ()))
    exact .bind (hR.onCoordinator fun w _ => .advancer (cursor.grounded_endRead _)) fun _ =>
      hR.beginAdvancerRead _ _

theorem readyQueryCursor (config : Config) : (Step.readyQueryCursor c config).Stays R := by
  refine hR.capturing (.bind readCoordinator fun s => ?_)
  split
  · exact hR.openCursorAt config _ fun _ _ _ => .query
  · exact .ite (hR.beginQueryRead _ _) (.pure ())

end Drives

/-! ## Queries -/

namespace Covers

variable {c : CoordinatorId} {R : World → World → Prop} (hR : Covers c R)

include hR

theorem note {e : Event} (he : e.available? = none) : (Step.note e).Stays R :=
  .update fun w => hR.told w e he

variable [IsPreorder World R]

theorem handOver (q : QueryId) : (Step.handOver q).Stays R :=
  .bind (.update fun w => hR.query w q _) fun _ => .bind .world fun _ => hR.note rfl

theorem deliverAll (h : HandleId) (version : Version) (failure : Option Failure)
    (queries : List QueryId) : (Step.deliverAll h version failure queries).Stays R := by
  induction queries with
  | nil => exact .pure _
  | cons q rest ih =>
    have hdeliver : (Step.deliver q h version failure).Stays R :=
      .bind .world fun _ => .bind (.update fun w => hR.query w q _) fun _ =>
        .bind (hR.note rfl) fun _ => .pure _
    exact .bind hdeliver fun _ => .bind ih fun _ => .pure _

theorem cleanUp : (Step.cleanUp c).Stays R := by
  refine .bind .world fun w => ?_
  refine .bind (.forM (fun q => hR.note (e := .release q) rfl) _) fun _ => ?_
  refine .bind (hR.onCoordinator fun _ _ => .of_each rfl (fun _ => Turns.grounded_of_endRead)
    fun _ => .inl) fun _ => ?_
  refine .bind (.forM (fun q => hR.note (e := .release q) rfl) _) fun _ => ?_
  refine .bind (hR.onCoordinator fun _ _ => .of_each rfl (fun _ => .inl)
    fun _ => Turns.grounded_of_endRead) fun _ => ?_
  exact hR.onCoordinator fun w s => by split <;> exact .of_cursors rfl rfl

/-! ## Registration -/

theorem registerQuery (q : QueryId) : (Step.registerQuery c q).Stays R := by
  refine .bind Drives.readCoordinator fun s => .bind (.ofExcept _) fun config => ?_
  refine .bind .world fun w => .bind hR.cleanUp fun _ => ?_
  exact .bind (hR.pinVersion config _) fun _ => hR.onCoordinator fun _ _ => .of_cursors rfl rfl

/-! ## Change cycles -/

theorem lift (w : World) (ready : List QueryId) : (Step.lift c w ready).Stays R :=
  .forM (fun q => .bind (hR.stepAdvancer _) fun v => hR.note (e := .attach q v) rfl) ready

theorem moveOver (ready : List QueryId) : (Step.moveOver c ready).Stays R :=
  .forM (fun q => .bind (hR.note (e := .detach q) rfl) fun _ =>
    .bind Drives.readCoordinator fun _ => hR.note rfl) ready

theorem importAndReplay (config : Config) (recorder : ChangeRecorder) :
    (Step.importAndReplay c config recorder).Stays R := by
  refine .bind Drives.readCoordinator fun s => .ite (.fail _) (.ite (hR.replayQueryCursor _ _) ?_)
  refine .bind (hR.look (Step.stays_latestVersion config)) fun latest => .bind .world fun w => ?_
  refine .bind (hR.onCoordinator fun _ _ => .of_cursors rfl rfl) fun _ => .ite (.fail _) ?_
  refine .bind (hR.lift w _) fun _ => .bind (hR.stepAdvancer _) fun target => ?_
  refine .bind (hR.replayQueryCursor _ _) fun changes => .bind (hR.moveOver _) fun _ => ?_
  exact .bind (hR.joinMain _) fun _ => .pure _

theorem resumeCycle (config : Config) (s : Coordinator) :
    (Step.resumeCycle c config s).Stays R := by
  refine .bind Drives.readCoordinator fun _ => .ite (.bind hR.abandonImport fun _ => .pure _) ?_
  refine .bind .world fun w => .bind (hR.importAndReplay config _).attempt fun outcome => ?_
  cases outcome with
  | ok changes => exact .bind Drives.readCoordinator fun _ => .pure _
  | error failure =>
    exact .bind (hR.onCoordinator fun _ _ => .of_cursors rfl rfl) fun _ =>
      .bind hR.abandonImport fun _ => .fail _

theorem beginCycle : (Step.beginCycle c).Stays R := by
  refine .bind Drives.readCoordinator fun s => ?_
  split
  · exact .pure _
  · next config _ =>
    refine .bind hR.cleanUp fun _ => .bind Drives.readCoordinator fun s => .ite (.pure _) ?_
    -- the query cursor is made ready only if no failure is captured
    exact .ite (.bind (hR.readyQueryCursor config) fun _ => hR.resumeCycle config s)
      (hR.resumeCycle config s)

theorem concludeRun (q : QueryId) : (Step.concludeRun q).Stays R := by
  refine Step.Stays.bind .world fun w => ?_
  dsimp only
  split
  · exact (hR.look (Step.stays_latestVersion _)).attempt.bind fun _ =>
      .update fun w => hR.query w q _
  · exact .bind (.pure _) fun _ => .update fun w => hR.query w q _

theorem runQuery (changes : Changes) (q : QueryId) :
    (Action.runQuery changes q).quiet.Stays R :=
  Action.stays_bind (a := Action.ofStep _) (hR.note (e := .run q changes) rfl) fun _ =>
    Action.stays_bind (a := Action.callOut _) (fun w => refl_of R w) fun _ => hR.concludeRun q

theorem concludeCycle (queries : List QueryId) : (Step.concludeCycle c queries).Stays R :=
  .bind (.forM hR.handOver queries) fun _ => hR.cleanUp

theorem runCycle : (Action.runCycle c).quiet.Stays R := by
  refine Action.stays_bind (a := Action.ofStep _) hR.beginCycle fun begun => ?_
  cases begun with
  | none => exact .pure ()
  | some cycle =>
    exact Action.stays_bind (Action.stays_forM (hR.runQuery cycle.changes) _) fun _ =>
      hR.concludeCycle cycle.queries

end Covers

/-! ## Sections -/

/-- **Any section**, if the chores are taken care of: all others are parts of the pipeline, or they
change a query. -/
theorem Moment.perform_of_covers {R : World → World → Prop} [IsPreorder World R]
    (hcovers : ∀ c, Covers c R) (m : Moment) (s : Section)
    (hchore : ∀ x, s = .chore x → R m.world (x.perform m.world)) :
    R m.world (m.perform s).world := by
  cases s with
  | chore x => exact hchore x rfl
  | kill q => exact (hcovers 0).query m.world q _
  | setVersion q version => exact (hcovers 0).query m.world q _
  | register c q =>
    rw [world_register]
    exact (hcovers c).registerQuery q m.world
  | beginCycle c =>
    have hworld : (m.perform (.beginCycle c)).world = ((Step.beginCycle c).run m.world).1 :=
      world_beginCycle rfl
    rw [hworld]
    exact (hcovers c).beginCycle m.world
  | startRun changes q => exact (hcovers 0).told m.world _ rfl
  | concludeCycle c queries => exact (hcovers c).concludeCycle queries m.world

end SnapshotCoordination
