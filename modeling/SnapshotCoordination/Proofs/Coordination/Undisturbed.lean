import SnapshotCoordination.Coordination.HandleActions
import SnapshotCoordination.Proofs.Coordination.Lookups
import SnapshotCoordination.Proofs.Coordination.Steps

/-!
# What leaves the background alone

The queries of a coordinator, its two background cursors and its captured failure are its
*background*. Most of what goes on in a process never touches it: references are taken and given
up, handles are opened, moved and closed, commits are made. `Undisturbed` says what may have
happened to the world meanwhile, and this module shows it of everything outside the pipeline:

* **references** — taking and giving up references and resetting a registry
  (`undisturbed_releaseCoordinator`, `undisturbed_releaseHandle`, `undisturbed_resetRegistry`);
* **opening** — finding or making a coordinator and handing out a handle
  (`undisturbed_getCoordinator`, `stays_getHandle`);
* **moving and delivering** — commits, moves of handles and deliveries
  (`stays_commit`, `stays_moveHandle`, `stays_settle`, `stays_deliverHere`).
-/

namespace SnapshotCoordination

/-- What a coordinator keeps for its queries. -/
structure Background where
  queryCursor : Option Cursor
  advancer : Option Cursor
  asyncError : Option Failure
  queries : List QueryId
  newQueries : List QueryId
  deriving DecidableEq

def Coordinator.background (s : Coordinator) : Background :=
  ⟨s.queryCursor, s.advancer, s.asyncError, s.queries, s.newQueries⟩

/-- What a coordinator keeps for its handles. -/
structure Foreground where
  path : String
  registry : RegistryId
  refs : Nat
  config : Option Config
  cached : List CacheEntry
  notifier : Option NotifierId

def Coordinator.foreground (s : Coordinator) : Foreground :=
  ⟨s.path, s.registry, s.refs, s.config, s.cached, s.notifier⟩

namespace Query

/-- What the pipeline asks of a query before it runs it: its version, whether it is alive and what
it observes. -/
def standing (q : Query) : Version × Bool × List ListKey := (q.version, q.alive, q.observed)

end Query

namespace Event

/-- The query and the changes, if the event is a run. -/
def run? : Event → Option (QueryId × Changes)
  | .run q changes => some (q, changes)
  | _ => none

/-- The context, if the event is a call that there is something new. -/
def available? : Event → Option ContextId
  | .available context => some context
  | _ => none

end Event

namespace World

/-- The runs so far, each with its query and the changes it was run over. -/
def runs (w : World) : List (QueryId × Changes) := w.trace.filterMap Event.run?

theorem runs_note (w : World) (e : Event) : (w.note e).runs = w.runs ++ e.run?.toList := by
  unfold runs note
  rw [List.filterMap_append, List.filterMap_cons]
  cases e.run? <;> rfl

theorem runs_note_of_none (w : World) {e : Event} (h : e.run? = none) :
    (w.note e).runs = w.runs := by
  rw [runs_note, h]
  exact List.append_nil _

end World

/-- No background was touched on the way from one world to the other. Files may have been committed
to, objects made and a first configuration adopted. -/
structure Undisturbed (w w' : World) : Prop where
  background : ∀ c, (w'.coordinator c).background = (w.coordinator c).background
  configured : ∀ c, (w.coordinator c).config.isSome → (w'.coordinator c).config.isSome
  commits : ∀ f, (w.file f).commits <+: (w'.file f).commits
  made : w.queries.size ≤ w'.queries.size
  standing : ∀ q < w.queries.size, (w'.query q).standing = (w.query q).standing
  runs : w'.runs = w.runs

namespace Undisturbed

variable {w w' w'' : World}

theorem refl (w : World) : Undisturbed w w where
  background _ := rfl
  configured _ h := h
  commits _ := List.prefix_refl _
  made := Nat.le_refl _
  standing _ _ := rfl
  runs := rfl

theorem trans (h : Undisturbed w w') (h' : Undisturbed w' w'') : Undisturbed w w'' where
  background c := (h'.background c).trans (h.background c)
  configured c hc := h'.configured c (h.configured c hc)
  commits f := (h.commits f).trans (h'.commits f)
  made := Nat.le_trans h.made h'.made
  standing q hq := (h'.standing q (Nat.lt_of_lt_of_le hq h.made)).trans (h.standing q hq)
  runs := h'.runs.trans h.runs

instance : IsPreorder World Undisturbed where
  refl := refl
  trans _ _ _ := trans

theorem version (h : Undisturbed w w') {q : QueryId} (hq : q < w.queries.size) :
    (w'.query q).version = (w.query q).version := congrArg (·.1) (h.standing q hq)

theorem alive (h : Undisturbed w w') {q : QueryId} (hq : q < w.queries.size) :
    (w'.query q).alive = (w.query q).alive := congrArg (·.2.1) (h.standing q hq)

theorem main (h : Undisturbed w w') (c : CoordinatorId) :
    (w'.coordinator c).queries = (w.coordinator c).queries :=
  congrArg Background.queries (h.background c)

theorem waiting (h : Undisturbed w w') (c : CoordinatorId) :
    (w'.coordinator c).newQueries = (w.coordinator c).newQueries :=
  congrArg Background.newQueries (h.background c)

/-- Nothing the pipeline looks at has changed. -/
theorem of_eq (hcoordinators : w'.coordinators = w.coordinators) (hengines : w'.engines = w.engines)
    (hqueries : w'.queries = w.queries) (hruns : w'.runs = w.runs) : Undisturbed w w' where
  background c := by unfold World.coordinator; rw [hcoordinators]
  configured c := by unfold World.coordinator; rw [hcoordinators]; exact id
  commits f := by
    have hfile : w'.file f = w.file f := by unfold World.file World.engine; rw [hengines]
    exact hfile ▸ List.prefix_refl _
  made := Nat.le_of_eq (by rw [hqueries])
  standing q _ := by unfold World.query; rw [hqueries]
  runs := hruns

end Undisturbed

/-! ## Changes of one object -/

section Objects

variable (w : World)

theorem undisturbed_note {e : Event} (h : e.run? = none) : Undisturbed w (w.note e) :=
  .of_eq rfl rfl rfl (w.runs_note_of_none h)

theorem undisturbed_onHandle (h : HandleId) (f : Handle → Handle) :
    Undisturbed w (w.onHandle h f) := .of_eq rfl rfl rfl rfl

theorem undisturbed_onNotifier (n : NotifierId) (f : Notifier → Notifier) :
    Undisturbed w (w.onNotifier n f) := .of_eq rfl rfl rfl rfl

theorem undisturbed_setRegistry (r : RegistryId) (x : Directory CoordinatorId) :
    Undisturbed w (w.setRegistry r x) := .of_eq rfl rfl rfl rfl

theorem undisturbed_onCoordinator (c : CoordinatorId) {f : Coordinator → Coordinator}
    (hbackground : ∀ s, (f s).background = s.background)
    (hconfig : ∀ s, s.config.isSome → (f s).config.isSome) :
    Undisturbed w (w.onCoordinator c f) where
  background d := by
    rw [World.coordinator_onCoordinator]
    split
    · next hd => rw [hbackground, hd]
    · rfl
  configured d hd := by
    rw [World.coordinator_onCoordinator]
    split
    · next heq => exact hconfig _ (heq ▸ hd)
    · exact hd
  commits _ := List.prefix_refl _
  made := Nat.le_refl _
  standing _ _ := rfl
  runs := rfl

theorem undisturbed_pushCoordinator {s : Coordinator}
    (h : s.background = (default : Coordinator).background) :
    Undisturbed w { w with coordinators := w.coordinators.push s } := by
  have hget : ∀ d, ({ w with coordinators := w.coordinators.push s } : World).coordinator d =
      if d = w.coordinators.size then s else w.coordinator d := Table.get_push _ s
  have hnew : w.coordinator w.coordinators.size = default := Table.get_size _
  constructor
  case background =>
    intro d
    rw [hget]
    split
    · next hd => rw [hd, hnew, h]
    · rfl
  case configured =>
    intro d hd
    rw [hget]
    split
    · next heq =>
      rw [heq, hnew] at hd
      cases hd
    · exact hd
  case commits => exact fun _ => List.prefix_refl _
  case made => exact Nat.le_refl _
  case standing => exact fun _ _ => rfl
  case runs => rfl

theorem undisturbed_onQuery (q : QueryId) {f : Query → Query}
    (h : (f (w.query q)).standing = (w.query q).standing) : Undisturbed w (w.onQuery q f) where
  background _ := rfl
  configured _ hc := hc
  commits _ := List.prefix_refl _
  made := Table.size_le_modify w.queries q f
  standing p _ := by
    rw [World.query_onQuery]
    split
    · next hp => rw [h, hp]
    · rfl
  runs := rfl

theorem undisturbed_setEngine {e : EngineId} {x : Engine}
    (h : ∀ key, ((w.engine e).file key).commits <+: (x.file key).commits) :
    Undisturbed w (w.setEngine e x) where
  background _ := rfl
  configured _ hc := hc
  commits f := by
    rw [World.file_setEngine]
    split
    · next he =>
      rw [World.file, he]
      exact h f.key
    · exact List.prefix_refl _
  made := Nat.le_refl _
  standing _ _ := rfl
  runs := rfl

theorem undisturbed_setFile {f : FileId} {x : File} (h : (w.file f).commits <+: x.commits) :
    Undisturbed w (w.setFile f x) := by
  refine undisturbed_setEngine w fun key => ?_
  rw [Engine.file_setFile]
  split
  · next hkey => rw [hkey]; exact h
  · exact List.prefix_refl _

end Objects

/-! ## One thing after the other -/

namespace World

variable {R : World → World → Prop} [IsPreorder World R]

theorem rel_foldl {α : Type} {f : World → α → World} (hf : ∀ w a, R w (f w a)) (as : List α)
    (w : World) : R w (as.foldl f w) :=
  List.foldlRecOn _ _ (refl_of R w) fun _ h a _ => trans_of R h (hf _ a)

/-- **A reset** keeps what each of its stages keeps: the notifiers are given up, the handles are
held on to, the registry is emptied, and the coordinators and the handles are let go. -/
theorem rel_resetRegistry (w : World) (r : RegistryId)
    (hdrop : ∀ w c, R w ((w.retainCoordinator c).dropNotifier c))
    (hretain : ∀ w h, R w (w.retainHandle h))
    (hregistry : ∀ w, R w (w.setRegistry r .empty))
    (hrelease : ∀ w c, R w (w.releaseCoordinator c))
    (hclose : ∀ w h, R w ((w.closeHandle h).releaseHandle h)) : R w (w.resetRegistry r) :=
  trans_of R (rel_foldl hdrop _ w) (trans_of R (rel_foldl hretain _ _)
    (trans_of R (hregistry _) (trans_of R (rel_foldl hrelease _ _) (rel_foldl hclose _ _))))

end World

/-! ## References -/

section References

variable (w : World)

theorem undisturbed_retainNotifier (n : NotifierId) : Undisturbed w (w.retainNotifier n) :=
  undisturbed_onNotifier w n _

theorem undisturbed_retireNotifier (n : NotifierId) : Undisturbed w (w.retireNotifier n) :=
  undisturbed_setFile w (List.prefix_refl _)

theorem undisturbed_releaseNotifier (n : NotifierId) : Undisturbed w (w.releaseNotifier n) := by
  have hcount := undisturbed_onNotifier w n fun x => { x with refs := x.refs - 1 }
  dsimp only [World.releaseNotifier]
  split
  · exact hcount.trans (undisturbed_retireNotifier _ n)
  · exact hcount

theorem undisturbed_dropNotifier (c : CoordinatorId) : Undisturbed w (w.dropNotifier c) := by
  unfold World.dropNotifier
  split
  · have hforgotten : Undisturbed w (w.onCoordinator c fun s => { s with notifier := none }) :=
      undisturbed_onCoordinator w c (fun _ => rfl) fun _ => id
    exact hforgotten.trans (undisturbed_releaseNotifier _ _)
  · exact .refl w

theorem undisturbed_retainCoordinator (c : CoordinatorId) :
    Undisturbed w (w.retainCoordinator c) :=
  undisturbed_onCoordinator w c (fun _ => rfl) fun _ => id

theorem undisturbed_retireCoordinator (c : CoordinatorId) :
    Undisturbed w (w.retireCoordinator c) :=
  (undisturbed_setRegistry w _ _).trans (undisturbed_dropNotifier _ c)

theorem undisturbed_releaseCoordinator (c : CoordinatorId) :
    Undisturbed w (w.releaseCoordinator c) := by
  have hcount : Undisturbed w (w.onCoordinator c fun s => { s with refs := s.refs - 1 }) :=
    undisturbed_onCoordinator w c (fun _ => rfl) fun _ => id
  dsimp only [World.releaseCoordinator]
  split
  · exact hcount.trans (undisturbed_retireCoordinator _ c)
  · exact hcount

theorem undisturbed_retainHandle (h : HandleId) : Undisturbed w (w.retainHandle h) :=
  undisturbed_onHandle w h _

theorem undisturbed_forgetHandle (c : CoordinatorId) (h : HandleId) :
    Undisturbed w (w.forgetHandle c h) :=
  undisturbed_onCoordinator w c (fun _ => rfl) fun _ => id

theorem undisturbed_closeHandle (h : HandleId) : Undisturbed w (w.closeHandle h) := by
  have hclosed := undisturbed_onHandle w h fun x => { x with cursor := none, coordinator := none }
  unfold World.closeHandle
  split
  · next c _ =>
    exact (hclosed.trans (undisturbed_forgetHandle _ c h)).trans
      (undisturbed_releaseCoordinator _ c)
  · exact hclosed

theorem undisturbed_releaseHandle (h : HandleId) : Undisturbed w (w.releaseHandle h) := by
  have hcount := undisturbed_onHandle w h fun x => { x with refs := x.refs - 1 }
  dsimp only [World.releaseHandle]
  split
  · exact hcount.trans (undisturbed_closeHandle _ h)
  · exact hcount

/-- A coordinator that is new has the background of one that was never made. -/
theorem undisturbed_getCoordinator (r : RegistryId) (path : String) :
    Undisturbed w (w.getCoordinator r path).1 := by
  unfold World.getCoordinator
  split
  · exact undisturbed_retainCoordinator w _
  · refine .trans ?_ (undisturbed_setRegistry _ _ _)
    exact undisturbed_pushCoordinator w rfl

theorem undisturbed_resetRegistry (r : RegistryId) : Undisturbed w (w.resetRegistry r) :=
  w.rel_resetRegistry r
    (fun w c => (undisturbed_retainCoordinator w c).trans (undisturbed_dropNotifier _ c))
    undisturbed_retainHandle (undisturbed_setRegistry · r .empty) undisturbed_releaseCoordinator
    fun w h => (undisturbed_closeHandle w h).trans (undisturbed_releaseHandle _ h)

end References

/-! ## Looking at files -/

/-- Files were looked at on the way from one world to the other, and nothing else happened. -/
structure Looked (w w' : World) : Prop where
  eq : w' = { w with engines := w'.engines }
  file : ∀ f, w'.file f = w.file f

namespace Looked

variable {w w' w'' : World}

theorem refl (w : World) : Looked w w := ⟨rfl, fun _ => rfl⟩

theorem trans (h : Looked w w') (h' : Looked w' w'') : Looked w w'' where
  eq := by rw [h'.eq, h.eq]
  file f := (h'.file f).trans (h.file f)

instance : IsPreorder World Looked where
  refl := refl
  trans _ _ _ := trans

theorem undisturbed (h : Looked w w') : Undisturbed w w' := by
  have hfile := h.file
  rw [h.eq] at hfile ⊢
  exact
    { background := fun _ => rfl
      configured := fun _ => id
      commits := fun f => hfile f ▸ List.prefix_refl _
      made := Nat.le_refl _
      standing := fun _ _ => rfl
      runs := rfl }

theorem coordinator (h : Looked w w') (c : CoordinatorId) :
    w'.coordinator c = w.coordinator c := by
  rw [h.eq]
  rfl

/-- What is looked at before a coordinator changes makes no difference to it. -/
theorem coordinator_onCoordinator_self (h : Looked w w') (c : CoordinatorId)
    (f : Coordinator → Coordinator) :
    (w'.onCoordinator c f).coordinator c = f (w.coordinator c) := by
  rw [w'.coordinator_onCoordinator_self, h.coordinator]

theorem of_setEngine (w : World) {e : EngineId} {x : Engine}
    (h : ∀ key, x.file key = (w.engine e).file key) : Looked w (w.setEngine e x) :=
  ⟨rfl, w.file_setEngine_of_same h⟩

end Looked

/-- The file of a configuration, if it names an engine. -/
def Config.file? (config : Config) : Option FileId :=
  config.engine.map (⟨·, FilePath.key config.path⟩)

/-- The file of the canonical configuration. -/
def Coordinator.file? (s : Coordinator) : Option FileId := s.config.bind (·.file?)

namespace Step

/-- What an engine shows of itself without changing a file. -/
theorem run_askEngine {α : Type} {config : Config} {ask : EngineId → Engine → Engine × α}
    {e : EngineId} (he : config.engine = some e) (w : World) :
    (askEngine config ask).run w =
      (w.setEngine e (ask e (w.engine e)).1, .ok (ask e (w.engine e)).2) := by
  have hengine : config.engine? = .ok e := by rw [Config.engine?, he]
  unfold askEngine
  rw [hengine]
  rfl

theorem stays_askEngine {α : Type} {R : World → World → Prop} [IsPreorder World R]
    (config : Config) (ask : EngineId → Engine → Engine × α)
    (h : ∀ w e, R w (w.setEngine e (ask e (w.engine e)).1)) : (askEngine config ask).Stays R := by
  intro w
  cases he : config.engine with
  | none =>
    have hengine : config.engine? = .error (.invalidConfig (.noEngine config.path)) := by
      rw [Config.engine?, he]
    unfold askEngine
    rw [hengine]
    exact refl_of R w
  | some e =>
    rw [run_askEngine he]
    exact h w e

theorem looked_openCursor (w : World) (e : EngineId) (path : String) :
    Looked w (w.setEngine e ((w.engine e).openCursor e path).1) := by
  refine .of_setEngine w fun key => ?_
  unfold Engine.openCursor
  split
  · rfl
  · exact Engine.file_touch _ _ _

theorem stays_openCursor (config : Config) : (openCursor config).Stays Looked :=
  (stays_askEngine config _ fun w e => looked_openCursor w e config.path).bind .ofExcept

theorem stays_latestVersion (config : Config) : (latestVersion config).Stays Looked :=
  stays_askEngine config _ fun w _ => .of_setEngine w (Engine.file_touch _ _)

theorem stays_openCursorAt (config : Config) (asked : Option Version) :
    (openCursorAt config asked).Stays Looked :=
  (stays_openCursor config).bind fun _ => .bind .world fun _ => .ofExcept _

theorem stays_of_looked {α : Type} {s : Step α} (h : s.Stays Looked) : s.Stays Undisturbed :=
  h.mono fun _ _ => Looked.undisturbed

/-! ## Opening -/

theorem stays_makeNotifier (c : CoordinatorId) (config : Config) :
    (makeNotifier c config).Stays Undisturbed := by
  refine Stays.bind (.ofExcept _) fun e => .bind (stays_askEngine config _ ?_) fun r => ?_
  · intro w e
    refine undisturbed_setEngine w fun key => ?_
    unfold Engine.listen
    split
    · exact List.prefix_refl _
    · rw [Engine.file_setFile]
      split
      · next hkey => rw [hkey]; exact List.prefix_refl _
      · exact List.prefix_refl _
  · cases r with
    | ok key =>
      refine .bind .world fun w => .bind (.update fun w => ?_) fun _ => .pure _
      exact .of_eq rfl rfl rfl rfl
    | error failure => exact .fail _

theorem stays_prepareAdoption (c : CoordinatorId) (config : Config) :
    (prepareAdoption c config).Stays Undisturbed := by
  refine Stays.bind .world fun w => .ite (.ite ?_ (.pure _)) ?_
  · exact (stays_makeNotifier c config).bind fun _ => .pure _
  · split
    · exact .bind (.ofExcept _) fun _ => .pure _
    · exact .pure _

theorem stays_applyAdoption (c : CoordinatorId) (adoption : Option Adoption) :
    (applyAdoption c adoption).Stays Undisturbed := by
  cases adoption with
  | none => exact .pure ()
  | some adoption =>
    exact .update fun w => undisturbed_onCoordinator w c (fun _ => rfl) fun _ _ => rfl

theorem stays_abandonAdoption (adoption : Option Adoption) :
    (abandonAdoption adoption).Stays Undisturbed := by
  unfold abandonAdoption
  split
  · exact .update fun w => undisturbed_releaseNotifier w _
  · exact .pure ()

theorem stays_makeHandle (c : CoordinatorId) (thread : Thread) (config : Config) :
    (makeHandle c thread config).Stays Undisturbed := by
  refine .bind (stays_of_looked (stays_openCursorAt config none)) fun cursor => .bind .world
    fun w => .bind (.update fun w => .of_eq rfl rfl rfl rfl) fun _ => .bind ?_ fun _ => .pure _
  exact .update fun w => undisturbed_retainCoordinator w c

theorem stays_rememberHandle (c : CoordinatorId) (h : HandleId) (thread : Thread) :
    (rememberHandle c h thread).Stays Undisturbed :=
  .update fun w => undisturbed_onCoordinator w c (fun _ => rfl) fun _ => id

theorem stays_getHandle (c : CoordinatorId) (thread : Thread) (config : Config) :
    (getHandle c thread config).Stays Undisturbed := by
  refine (stays_prepareAdoption c config).bind fun adoption => .bind .world fun w => ?_
  split
  · exact .bind (.update fun w => undisturbed_retainHandle w _) fun _ =>
      (stays_applyAdoption c adoption).bind fun _ => .pure _
  · refine .bind (stays_makeHandle c thread config).attempt fun r => ?_
    cases r with
    | ok h =>
      exact (stays_applyAdoption c adoption).bind fun _ =>
        (stays_rememberHandle c h thread).bind fun _ => .pure _
    | error failure => exact (stays_abandonAdoption adoption).bind fun _ => .fail _

/-! ## Moving and delivering -/

theorem stays_commit (config : Config) (log : Log) :
    (askEngine config fun _ x => x.commit config.path log).Stays Undisturbed := by
  refine stays_askEngine config _ fun w e => undisturbed_setEngine w fun key => ?_
  dsimp only [Engine.commit]
  rw [Engine.file_setFile]
  split
  · next hkey => rw [hkey]; exact List.prefix_append _ _
  · exact List.prefix_refl _

/-- A replay commits nothing. -/
theorem commits_follow {σ : Type} [LogReader σ] (cursor : Cursor) (f : File)
    (asked : Option Version) (reader : σ) :
    (cursor.follow f asked reader).file.commits = f.commits := by
  unfold Cursor.follow
  split
  · rfl
  · split <;> rfl

/-- A replay leaves the listeners alone. -/
theorem listeners_follow {σ : Type} [LogReader σ] (cursor : Cursor) (f : File)
    (asked : Option Version) (reader : σ) :
    (cursor.follow f asked reader).file.listeners = f.listeners := by
  unfold Cursor.follow
  split
  · rfl
  · split <;> rfl

theorem stays_moveHandle (h : HandleId) (asked : Option Version) :
    (moveHandle h asked).Stays Undisturbed := by
  refine Stays.world_bind fun w => ?_
  dsimp only
  split
  · exact .refl w
  · next cursor _ =>
    have hrest : Stays Undisturbed (do
        let moved ← ofExcept (cursor.follow (w.fileOf cursor) asked SchemaGuard.fresh).outcome
        update (·.onHandle h fun x => { x with cursor := some moved })
        return (cursor.current, moved.current)) :=
      .bind (.ofExcept _) fun _ => .bind (.update fun w => undisturbed_onHandle w h _) fun _ =>
        .pure _
    refine (undisturbed_setFile w ?_).trans (hrest _)
    rw [commits_follow]
    exact List.prefix_refl _

theorem standing_deliver (x : Query) (h : HandleId) (version : Version)
    (failure : Option Failure) : (x.deliver h version failure).1.standing = x.standing := by
  unfold Query.deliver
  split
  · rfl
  · split
    · rfl
    · split <;> rfl

theorem stays_deliver (q : QueryId) (h : HandleId) (version : Version)
    (failure : Option Failure) : (deliver q h version failure).Stays Undisturbed := by
  refine Stays.world_bind fun w => ?_
  exact (undisturbed_onQuery w q (standing_deliver _ h version failure)).trans
    (undisturbed_note _ rfl)

theorem stays_deliverAll (h : HandleId) (version : Version) (failure : Option Failure)
    (queries : List QueryId) : (deliverAll h version failure queries).Stays Undisturbed := by
  induction queries with
  | nil => exact .pure _
  | cons q rest ih =>
    exact (stays_deliver q h version failure).bind fun _ => ih.bind fun _ => .pure _

/-- To settle a handle is to move it at most once, and then to let the queries in main rotation
deliver. -/
theorem settle_from {R : World → World → Prop} [IsPreorder World R] {c : CoordinatorId}
    {h : HandleId} {w : World} (hmove : ∀ asked, (moveHandle h asked).Stays R)
    (hdeliver : ∀ version failure,
      (deliverAll h version failure (w.coordinator c).queries).Stays R) :
    R w ((settle c h).run w).1 := by
  unfold settle
  rw [run_bind_ok (show (coordinator c).run w = (w, .ok (w.coordinator c)) from rfl)]
  generalize w.coordinator c = s at hdeliver ⊢
  refine Stays.bind (.bind .world fun _ => .pure _) (fun target => ?_) w
  split
  · exact (hmove none).bind fun _ => .pure _
  · next target =>
    -- what is done once the handle is where it is to be
    have hrest : ∀ (moved : Bool) (version : Option Version), Stays R
        (if version != some target && s.asyncError.isNone then pure (false, [])
        else return (moved, ← deliverAll h (version.getD target) s.asyncError s.queries)) :=
      fun moved version => .ite (.pure _) ((hdeliver _ _).bind fun _ => .pure _)
    refine .bind .world fun w => .ite ?_ ?_
    · exact .bind (.pure _) fun _ => hrest _ _
    · exact (hmove _).bind fun _ => .bind (.pure _) fun _ => hrest _ _

theorem stays_settle_of {R : World → World → Prop} [IsPreorder World R] {h : HandleId}
    (hmove : ∀ asked, (moveHandle h asked).Stays R)
    (hdeliver : ∀ version failure queries, (deliverAll h version failure queries).Stays R)
    (c : CoordinatorId) : (settle c h).Stays R :=
  fun _ => settle_from hmove fun version failure => hdeliver version failure _

theorem stays_settle (c : CoordinatorId) (h : HandleId) : (settle c h).Stays Undisturbed :=
  stays_settle_of (stays_moveHandle h) (stays_deliverAll h) c

/-- To deliver where a handle is is only to let the queries in main rotation deliver. -/
theorem deliverHere_from {R : World → World → Prop} [IsPreorder World R] {c : CoordinatorId}
    {h : HandleId} {w : World}
    (hdeliver : ∀ version failure,
      (deliverAll h version failure (w.coordinator c).queries).Stays R) :
    R w ((deliverHere c h).run w).1 := by
  unfold deliverHere
  rw [run_bind_ok (run_world w)]
  dsimp only
  split
  · exact refl_of R w
  · exact hdeliver _ _ w

theorem stays_deliverHere_of {R : World → World → Prop} [IsPreorder World R] {h : HandleId}
    (hdeliver : ∀ version failure queries, (deliverAll h version failure queries).Stays R)
    (c : CoordinatorId) : (deliverHere c h).Stays R :=
  fun _ => deliverHere_from fun version failure => hdeliver version failure _

theorem stays_deliverHere (c : CoordinatorId) (h : HandleId) :
    (deliverHere c h).Stays Undisturbed := stays_deliverHere_of (stays_deliverAll h) c

theorem stays_concludeRun (q : QueryId) : (concludeRun q).Stays Undisturbed := by
  have hnoted : ∀ ranAt : Except Failure Version, Stays Undisturbed
      (update (·.onQuery q fun x => { x with ranAt := ranAt.toOption })) :=
    fun ranAt => .update fun w => undisturbed_onQuery w q rfl
  refine Stays.bind .world fun w => ?_
  dsimp only
  split
  · exact (stays_of_looked (stays_latestVersion _)).attempt.bind fun _ => hnoted _
  · exact .bind (.pure _) fun _ => hnoted _

end Step

end SnapshotCoordination
