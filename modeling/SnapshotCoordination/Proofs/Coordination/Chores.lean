import SnapshotCoordination.Proofs.Handles.Keeping

/-!
# What chores are made of

Most chores tell nobody anything (`Chore.isSilent`). Such a chore is made of three kinds of changes:
a coordinator is made or changed, it adopts a configuration, or something changes elsewhere. A
relation that `Bears` these holds between the world before and the world after every one of them. One
that only `Tends` to the others holds as long as nothing is adopted:

* **`Tends.releaseCoordinator`**, **`Tends.closeHandle`**, **`Tends.resetRegistry`** — references
  are given up;
* **`Tends.issueHandle`**, **`Bears.getHandle`** — a handle is asked for;
* **`Tends.perform`**, **`Bears.perform`** — any silent chore;
* **`Chore.perform_of_changes`**, **`Moment.perform_of_changes`** — any chore and any section, if
  whatever the pipeline does is covered as well.
-/

namespace SnapshotCoordination

/-- Whether a chore tells nobody anything. -/
def Chore.isSilent : Chore → Bool
  | settle .. | deliverHere .. | tellCallbacks _ | tellAvailable _ | tellDidChange _ => false
  | _ => true

/-- The relation holds across every change that a silent chore is made of, short of adoptions. -/
structure Tends (R : World → World → Prop) : Prop where
  elsewhere : ∀ {w w' : World}, w'.coordinators = w.coordinators → w'.trace = w.trace → R w w'
  changed : ∀ w c f, (∀ s : Coordinator, (f s).config = s.config) → R w (w.onCoordinator c f)
  made : ∀ (w : World) key r, R w { w with coordinators := w.coordinators.push (.made key r) }

/-- The relation holds across every change that a silent chore is made of. -/
structure Bears (R : World → World → Prop) : Prop extends Tends R where
  adopted : ∀ w c config notifier, R w (w.onCoordinator c (·.adopt config notifier))

namespace Tends

variable {R : World → World → Prop} (hR : Tends R)

include hR

theorem look {α : Type} {s : Step α} (h : s.Stays Looked) : s.Stays R :=
  h.mono fun _ _ hlooked => hR.elsewhere (by rw [hlooked.eq]) (by rw [hlooked.eq])

/-! ## References -/

theorem setRegistry (w : World) (r : RegistryId) (x : Directory CoordinatorId) :
    R w (w.setRegistry r x) := hR.elsewhere rfl rfl

theorem retainCoordinator (w : World) (c : CoordinatorId) : R w (w.retainCoordinator c) :=
  hR.changed w c _ fun _ => rfl

theorem forgetHandle (w : World) (c : CoordinatorId) (h : HandleId) : R w (w.forgetHandle c h) :=
  hR.changed w c _ fun _ => rfl

theorem retainHandle (w : World) (h : HandleId) : R w (w.retainHandle h) := hR.elsewhere rfl rfl

theorem releaseNotifier (w : World) (n : NotifierId) : R w (w.releaseNotifier n) := by
  dsimp only [World.releaseNotifier]
  split <;> exact hR.elsewhere rfl rfl

variable [IsPreorder World R]

theorem dropNotifier (w : World) (c : CoordinatorId) : R w (w.dropNotifier c) := by
  have hdropped := hR.changed w c (fun s => { s with notifier := none }) fun _ => rfl
  unfold World.dropNotifier
  split
  · exact trans_of R hdropped (hR.releaseNotifier _ _)
  · exact refl_of R w

theorem releaseCoordinator (w : World) (c : CoordinatorId) : R w (w.releaseCoordinator c) := by
  have hcount := hR.changed w c (fun s => { s with refs := s.refs - 1 }) fun _ => rfl
  dsimp only [World.releaseCoordinator]
  split
  · exact trans_of R (trans_of R hcount (hR.setRegistry _ _ _)) (hR.dropNotifier _ c)
  · exact hcount

theorem closeHandle (w : World) (h : HandleId) : R w (w.closeHandle h) := by
  have hclosed : R w (w.onHandle h fun x => { x with cursor := none, coordinator := none }) :=
    hR.elsewhere rfl rfl
  unfold World.closeHandle
  split
  · exact trans_of R (trans_of R hclosed (hR.forgetHandle _ _ h)) (hR.releaseCoordinator _ _)
  · exact hclosed

theorem releaseHandle (w : World) (h : HandleId) : R w (w.releaseHandle h) := by
  have hcount : R w (w.onHandle h fun x => { x with refs := x.refs - 1 }) := hR.elsewhere rfl rfl
  dsimp only [World.releaseHandle]
  split
  · exact trans_of R hcount (hR.closeHandle _ h)
  · exact hcount

theorem getCoordinator (w : World) (r : RegistryId) (path : String) :
    R w (w.getCoordinator r path).1 := by
  unfold World.getCoordinator
  split
  · exact hR.changed w _ _ fun _ => rfl
  · exact trans_of R (hR.made w _ _) (hR.setRegistry _ r _)

theorem resetRegistry (w : World) (r : RegistryId) : R w (w.resetRegistry r) :=
  w.rel_resetRegistry r
    (fun w c => trans_of R (hR.retainCoordinator w c) (hR.dropNotifier _ c))
    hR.retainHandle (hR.setRegistry · r .empty) hR.releaseCoordinator
    fun w h => trans_of R (hR.closeHandle w h) (hR.releaseHandle _ h)

/-! ## Handles -/

theorem askEngine {α : Type} (config : Config) (ask : EngineId → Engine → Engine × α) :
    (Step.askEngine config ask).Stays R :=
  Step.stays_askEngine config ask fun _ _ => hR.elsewhere rfl rfl

theorem prepareAdoption (c : CoordinatorId) (config : Config) :
    (Step.prepareAdoption c config).Stays R := by
  have hmake : (Step.makeNotifier c config).Stays R := by
    refine .bind (.ofExcept _) fun e => .bind (hR.askEngine config _) fun listening => ?_
    cases listening with
    | ok key => exact .bind .world fun w => .bind (.update fun w => hR.elsewhere rfl rfl) fun _ => .pure _
    | error failure => exact .fail _
  refine .bind .world fun w => .ite (.ite (.bind hmake fun _ => .pure _) (.pure _)) ?_
  split
  · exact .bind (.ofExcept _) fun _ => .pure _
  · exact .pure _

theorem abandonAdoption (adoption : Option Adoption) : (Step.abandonAdoption adoption).Stays R := by
  unfold Step.abandonAdoption
  split
  · exact .update fun w => hR.releaseNotifier w _
  · exact .pure ()

theorem makeHandle (c : CoordinatorId) (thread : Thread) (config : Config) :
    (Step.makeHandle c thread config).Stays R :=
  .bind (hR.look (Step.stays_openCursorAt config none)) fun _ => .bind .world fun _ =>
    .bind (.update fun _ => hR.elsewhere rfl rfl) fun _ =>
      .bind (.update fun w => hR.changed w c _ fun _ => rfl) fun _ => .pure _

/-- A handle is handed out, once it is decided what to adopt. -/
theorem issueHandle {c : CoordinatorId} {adoption : Option Adoption}
    (hadopts : (Step.applyAdoption c adoption).Stays R) (thread : Thread) (config : Config) :
    (Step.issueHandle c thread config adoption).Stays R := by
  refine .bind .world fun w => ?_
  split
  · exact .bind (.update fun w => hR.elsewhere rfl rfl) fun _ => .bind hadopts fun _ => .pure _
  · refine .bind (hR.makeHandle c thread config).attempt fun outcome => ?_
    cases outcome with
    | ok h =>
      exact .bind hadopts fun _ =>
        .bind (.update fun w => hR.changed w c _ fun _ => rfl) fun _ => .pure _
    | error failure => exact .bind (hR.abandonAdoption adoption) fun _ => .fail _

theorem moveHandle (h : HandleId) (asked : Option Version) : (Step.moveHandle h asked).Stays R := by
  refine .bind .world fun w => ?_
  dsimp only
  split
  · exact .fail _
  · exact .bind (.update fun _ => hR.elsewhere rfl rfl) fun _ => .bind (.ofExcept _) fun _ =>
      .bind (.update fun _ => hR.elsewhere rfl rfl) fun _ => .pure _

theorem concludeRun (q : QueryId) : (Step.concludeRun q).Stays R := by
  have hnoted : ∀ ranAt : Except Failure Version, Step.Stays R
      (Step.update (·.onQuery q fun x => { x with ranAt := ranAt.toOption })) :=
    fun ranAt => .update fun _ => hR.elsewhere rfl rfl
  refine .bind .world fun w => ?_
  dsimp only
  split
  · exact .bind (hR.look (Step.stays_latestVersion _)).attempt fun _ => hnoted _
  · exact .bind (.pure _) fun _ => hnoted _

/-! ## Chores -/

/-- **Any silent chore**, if asking for a handle is taken care of. -/
theorem perform (w : World) {x : Chore} (hx : x.isSilent)
    (hget : ∀ c thread config, x = .getHandle c thread config →
      R w ((Step.getHandle c thread config).run w).1) : R w (x.perform w) := by
  cases x with
  | getCoordinator r path => exact hR.getCoordinator w r path
  | retainCoordinator c => exact hR.retainCoordinator w c
  | releaseCoordinator c => exact hR.releaseCoordinator w c
  | releaseHandle h => exact hR.releaseHandle w h
  | closeHandle h => exact hR.closeHandle w h
  | releaseNotifier n => exact hR.releaseNotifier w n
  | resetRegistry r => exact hR.resetRegistry w r
  | getHandle c thread config => exact hget c thread config rfl
  | commit config log => exact hR.askEngine config _ w
  | moveHandle h asked => exact hR.moveHandle h asked w
  | concludeRun q => exact hR.concludeRun q w
  | settle | deliverHere | tellCallbacks | tellAvailable | tellDidChange => cases hx
  | _ => exact hR.elsewhere rfl rfl

end Tends

namespace Bears

variable {R : World → World → Prop} [IsPreorder World R] (hR : Bears R)

include hR

theorem applyAdoption (c : CoordinatorId) (adoption : Option Adoption) :
    (Step.applyAdoption c adoption).Stays R := by
  cases adoption with
  | none => exact .pure ()
  | some adoption => exact .update fun w => hR.adopted w c _ _

theorem getHandle (c : CoordinatorId) (thread : Thread) (config : Config) :
    (Step.getHandle c thread config).Stays R :=
  .bind (hR.prepareAdoption c config) fun adoption =>
    hR.issueHandle (hR.applyAdoption c adoption) thread config

theorem perform (w : World) {x : Chore} (hx : x.isSilent) : R w (x.perform w) :=
  hR.toTends.perform w hx fun c thread config _ => hR.getHandle c thread config w

end Bears

/-! ## Sections -/

section Sections

variable {R : World → World → Prop} [IsPreorder World R] (hcovers : ∀ c, Covers c R)
  (hnote : ∀ (w : World) e, R w (w.note e))

include hcovers hnote

/-- **Any chore**, if asking for a handle is taken care of. -/
theorem Chore.perform_of_tends (htends : Tends R) (w : World) (x : Chore)
    (hget : ∀ c thread config, x = .getHandle c thread config →
      R w ((Step.getHandle c thread config).run w).1) : R w (x.perform w) := by
  by_cases hsilent : x.isSilent
  · exact htends.perform w hsilent hget
  · cases x with
    | settle c h => exact Step.stays_settle_of (htends.moveHandle h) ((hcovers c).deliverAll h) c w
    | deliverHere c h => exact Step.stays_deliverHere_of ((hcovers c).deliverAll h) c w
    | tellCallbacks | tellAvailable | tellDidChange => exact hnote w _
    | _ => exact absurd rfl hsilent

variable (hbears : Bears R)

include hbears

theorem Chore.perform_of_changes (w : World) (x : Chore) : R w (x.perform w) :=
  x.perform_of_tends hcovers hnote hbears.toTends w fun c thread config _ =>
    hbears.getHandle c thread config w

/-- **Any section.** -/
theorem Moment.perform_of_changes (m : Moment) (s : Section) : R m.world (m.perform s).world :=
  m.perform_of_covers hcovers s fun x _ => x.perform_of_changes hcovers hnote hbears m.world

end Sections

end SnapshotCoordination
