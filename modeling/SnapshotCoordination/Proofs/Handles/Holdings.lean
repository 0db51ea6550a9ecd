import SnapshotCoordination.Proofs.Handles.Keeping

/-!
# Who holds on to whom

Objects are kept alive by references: a handle holds on to its coordinator, a coordinator to its
notifier, and for a notifier its listener is registered with a file. Most of what goes on in a
process leaves all this as it is (`SameHoldings`), and this module shows that of everything but the
ten chores that take or give up references (`Chore.counts`):

* **`covers_sameHoldings`** — the pipeline of a coordinator;
* **`Chore.sameHoldings_perform`** — every chore that counts no references;
* **`Moment.sameHoldings_perform`** — every section that is not such a chore.
-/

namespace SnapshotCoordination

/-- What ties a handle to its coordinator. -/
structure Tie where
  config : Config
  refs : Nat
  coordinator : Option CoordinatorId
  isOpen : Bool

def Handle.tie (x : Handle) : Tie := ⟨x.config, x.refs, x.coordinator, x.isOpen⟩

/-- From one world to the other nobody took or gave up a reference, and no handle was made or
closed. At most, registrations of coordinators that are gone were taken off their files. -/
structure SameHoldings (w w' : World) : Prop where
  coordinator : ∀ c, (w'.coordinator c).foreground = (w.coordinator c).foreground
  handle : ∀ h, (w'.handle h).tie = (w.handle h).tie
  notifier : ∀ n, 0 < (w.notifier n).refs → w'.notifier n = w.notifier n
  registry : ∀ r, w'.registry r = w.registry r
  listeners : ∀ f, (w'.file f).listeners.Sublist (w.file f).listeners
  awake : ∀ f, (w'.file f).listeners.filter w.isAliveCoordinator =
    (w.file f).listeners.filter w.isAliveCoordinator

namespace SameHoldings

variable {w w' w'' : World}

theorem refs (h : SameHoldings w w') (c : CoordinatorId) :
    (w'.coordinator c).refs = (w.coordinator c).refs := congrArg Foreground.refs (h.coordinator c)

theorem config (h : SameHoldings w w') (c : CoordinatorId) :
    (w'.coordinator c).config = (w.coordinator c).config :=
  congrArg Foreground.config (h.coordinator c)

theorem cached (h : SameHoldings w w') (c : CoordinatorId) :
    (w'.coordinator c).cached = (w.coordinator c).cached :=
  congrArg Foreground.cached (h.coordinator c)

theorem tuned (h : SameHoldings w w') (c : CoordinatorId) :
    (w'.coordinator c).notifier = (w.coordinator c).notifier :=
  congrArg Foreground.notifier (h.coordinator c)

theorem isAliveCoordinator (h : SameHoldings w w') :
    w'.isAliveCoordinator = w.isAliveCoordinator := by
  funext c
  unfold World.isAliveCoordinator
  rw [h.refs]

theorem refl (w : World) : SameHoldings w w :=
  ⟨fun _ => rfl, fun _ => rfl, fun _ _ => rfl, fun _ => rfl, fun _ => .refl _, fun _ => rfl⟩

theorem trans (h : SameHoldings w w') (h' : SameHoldings w' w'') : SameHoldings w w'' where
  coordinator c := (h'.coordinator c).trans (h.coordinator c)
  handle i := (h'.handle i).trans (h.handle i)
  notifier n hn := by
    have hsame := h.notifier n hn
    exact (h'.notifier n (hsame ▸ hn)).trans hsame
  registry r := (h'.registry r).trans (h.registry r)
  listeners f := (h'.listeners f).trans (h.listeners f)
  awake f := by
    have hawake := h'.awake f
    rw [h.isAliveCoordinator] at hawake
    exact hawake.trans (h.awake f)

instance : IsPreorder World SameHoldings where
  refl := refl
  trans _ _ _ := trans

/-- Nothing changed but what was committed to files, and queries. -/
theorem of_eq (hcoordinators : w'.coordinators = w.coordinators) (hhandles : w'.handles = w.handles)
    (hnotifiers : w'.notifiers = w.notifiers) (hregistries : w'.registries = w.registries)
    (hlisteners : ∀ f, (w'.file f).listeners = (w.file f).listeners) : SameHoldings w w' where
  coordinator c := by simp only [World.coordinator, hcoordinators]
  handle i := by simp only [World.handle, hhandles]
  notifier n _ := by simp only [World.notifier, hnotifiers]
  registry r := by simp only [World.registry, hregistries]
  listeners f := by rw [hlisteners]
  awake f := by rw [hlisteners]

theorem of_looked (h : Looked w w') : SameHoldings w w' := by
  have hfile := h.file
  rw [h.eq] at hfile ⊢
  exact .of_eq rfl rfl rfl rfl fun f => congrArg File.listeners (hfile f)

theorem onCoordinator (w : World) (c : CoordinatorId) {f : Coordinator → Coordinator}
    (hf : ∀ s : Coordinator, (f s).foreground = s.foreground) :
    SameHoldings w (w.onCoordinator c f) where
  coordinator d := by
    rw [World.coordinator_onCoordinator]
    split
    · next hd => rw [hf, hd]
    · rfl
  handle _ := rfl
  notifier _ _ := rfl
  registry _ := rfl
  listeners _ := .refl _
  awake _ := rfl

theorem onHandle (w : World) (h : HandleId) {f : Handle → Handle}
    (hf : (f (w.handle h)).tie = (w.handle h).tie) : SameHoldings w (w.onHandle h f) where
  coordinator _ := rfl
  handle i := by
    rw [World.handle_onHandle]
    split
    · next hi => rw [hf, hi]
    · rfl
  notifier _ _ := rfl
  registry _ := rfl
  listeners _ := .refl _
  awake _ := rfl

theorem setFile (w : World) (f : FileId) {x : File} (h : x.listeners = (w.file f).listeners) :
    SameHoldings w (w.setFile f x) := by
  refine .of_eq rfl rfl rfl rfl fun g => ?_
  rw [World.file_setFile]
  split
  · next hg => rw [h, hg]
  · rfl

theorem onQuery (w : World) (q : QueryId) (f : Query → Query) : SameHoldings w (w.onQuery q f) :=
  .of_eq rfl rfl rfl rfl fun _ => rfl

theorem note (w : World) (e : Event) : SameHoldings w (w.note e) :=
  .of_eq rfl rfl rfl rfl fun _ => rfl

/-- The registrations of coordinators that are gone are taken off a file. -/
theorem sweepListeners (w : World) (f : FileId) :
    SameHoldings w (w.setFile f ((w.file f).sweepListeners w.isAliveCoordinator)) where
  coordinator _ := rfl
  handle _ := rfl
  notifier _ _ := rfl
  registry _ := rfl
  listeners g := by
    rw [World.file_setFile]
    split
    · next hg =>
      rw [hg]
      exact List.filter_sublist
    · exact .refl _
  awake g := by
    rw [World.file_setFile]
    split
    · next hg =>
      rw [hg, File.sweepListeners, List.filter_filter]
      simp only [Bool.and_self]
    · rfl

end SameHoldings

/-! ## The pipeline -/

theorem covers_sameHoldings (c : CoordinatorId) : Covers c SameHoldings where
  looked := .of_looked
  file w f _ _ h := .setFile w f h
  coordinator w _ hf := .onCoordinator w c fun s => (hf s).foreground
  query := .onQuery
  told w e _ := .note w e

namespace Step

theorem sameHoldings_commit (config : Config) (log : Log) :
    (askEngine config fun _ x => x.commit config.path log).Stays SameHoldings := by
  apply stays_askEngine
  intro w e
  exact .setFile w ⟨e, FilePath.key config.path⟩ rfl

/-- A handle that moves stays open. -/
theorem sameHoldings_moveHandle (h : HandleId) (asked : Option Version) :
    (moveHandle h asked).Stays SameHoldings := by
  intro w
  cases hcursor : (w.handle h).cursor with
  | none =>
    unfold moveHandle
    rw [run_bind_ok (run_world w)]
    dsimp only
    rw [hcursor]
    exact .refl w
  | some cursor =>
    rw [run_moveHandle hcursor asked]
    have hcounted : SameHoldings w (w.setFile cursor.file
        (cursor.follow (w.fileOf cursor) asked SchemaGuard.fresh).file) :=
      .setFile w _ (listeners_follow ..)
    split
    · apply hcounted.trans
      apply SameHoldings.onHandle
      show Tie.mk _ _ _ true = Tie.mk _ _ _ (w.handle h).cursor.isSome
      rw [hcursor]
      rfl
    · exact hcounted

end Step

/-! ## Chores and sections -/

namespace Chore

/-- Whether a chore takes or gives up references. -/
def counts : Chore → Bool
  | getCoordinator .. | retainCoordinator _ | releaseCoordinator _ | retainHandle _
  | releaseHandle _ | closeHandle _ | retainNotifier _ | releaseNotifier _ | resetRegistry _
  | getHandle .. => true
  | _ => false

/-- A chore that counts no references leaves all of them as they are. -/
theorem sameHoldings_perform (w : World) {x : Chore} (hx : x.counts = false) :
    SameHoldings w (x.perform w) := by
  cases x with
  | makeEngine =>
    refine .of_eq rfl rfl rfl rfl fun f => ?_
    have hengine : ({ w with engines := w.engines.push .fresh } : World).engine f.engine =
        w.engine f.engine := w.engines.get_push_default f.engine
    show (((World.engine _ f.engine).file f.key).listeners) = _
    rw [perform, hengine]
    rfl
  | makeRegistry =>
    exact
      { coordinator := fun _ => rfl
        handle := fun _ => rfl
        notifier := fun _ _ => rfl
        registry := w.registries.get_push_default
        listeners := fun _ => .refl _
        awake := fun _ => rfl }
  | makeQuery config observed version => exact .of_eq rfl rfl rfl rfl fun _ => rfl
  | setFaults e cursorsFail notifiersFail =>
    have hsame : ∀ key, ({ w.engine e with
        cursorsFail := cursorsFail, notifiersFail := notifiersFail } : Engine).file key =
          (w.engine e).file key := fun _ => rfl
    exact .of_eq rfl rfl rfl rfl fun f =>
      congrArg File.listeners (w.file_setEngine_of_same hsame f)
  | lookAt e key => exact .of_looked (.of_setEngine w ((w.engine e).file_touch key))
  | commit config log => exact Step.sameHoldings_commit config log w
  | moveHandle h asked => exact Step.sameHoldings_moveHandle h asked w
  | settle c h =>
    exact Step.stays_settle_of (Step.sameHoldings_moveHandle h)
      ((covers_sameHoldings c).deliverAll h) c w
  | deliverHere c h => exact Step.stays_deliverHere_of ((covers_sameHoldings c).deliverAll h) c w
  | setPending h pending => exact .onHandle w h rfl
  | setContext h context => exact .onHandle w h rfl
  | sweepListeners f => exact .sweepListeners w f
  | tellCallbacks q => exact .note w _
  | tellAvailable context => exact .note w _
  | tellDidChange context => exact .note w _
  | concludeRun q => exact (covers_sameHoldings 0).concludeRun q w
  | _ => cases hx

end Chore

namespace Moment

/-- A section that is no chore leaves all references as they are. -/
theorem sameHoldings_perform (m : Moment) {s : Section} (hs : ∀ x, s ≠ .chore x) :
    SameHoldings m.world (m.perform s).world :=
  m.perform_of_covers covers_sameHoldings s fun x hx => absurd hx (hs x)

end Moment

end SnapshotCoordination
