import SnapshotCoordination.Proofs.Coordination.Replays
import SnapshotCoordination.Proofs.Handles.Keeping

/-!
# Commits that fail

A commit appends its log to the file first, then moves the handle to the version it made, and tells
others last. So a commit that fails has done nothing if it failed before it got to the engine, that
is, on a handle that is read-only or closed. If it failed later, the log stays where it is and nobody
was told: the guard refused the logs on the handle's way, be it this one or one that another process
committed, or the coordinator refused to announce it.

* **`Action.finish_sendNotifications`** — telling others fails only where the coordinator is
  read-only, whatever their cycles and callbacks do;
* **`Action.finish_commitThrough`** — what a commit does on an open handle;
* **`commit_outcome`** — all that a commit can come to;
* **`exists_committed_failure`** — it does come to a log that was committed although it failed.
-/

namespace SnapshotCoordination

namespace Step

theorem run_commit {config : Config} {f : FileId} (hf : config.file? = some f) (log : Log)
    (w : World) :
    ∃ w', (askEngine config fun _ x => x.commit config.path log).run w =
        (w', .ok ((w.file f).commit log).latest) ∧ w' = { w with engines := w'.engines } ∧
      ∀ g, w'.file g = if g = f then (w.file f).commit log else w.file g := by
  obtain ⟨e, he, rfl⟩ := Option.map_eq_some_iff.mp hf
  refine ⟨_, run_askEngine he w, rfl, fun g => ?_⟩
  exact w.file_setFile ⟨e, FilePath.key config.path⟩ g _

end Step

namespace Action

variable {α β : Type} (client : Callback → World → World)

/-! ## Telling others -/

/-- However its callbacks are answered, the action ends without a failure. -/
def Succeeds (a : Action α) : Prop := ∀ w, ∃ w' x, (a.begin w).finish client = (w', .ok x)

variable {client}

theorem Succeeds.bind {a : Action α} {f : α → Action β} (ha : a.Succeeds client)
    (hf : ∀ x, (f x).Succeeds client) : (a >>= f).Succeeds client := by
  intro w
  obtain ⟨w', x, hrun⟩ := ha w
  rw [finish_bind_ok client hrun]
  exact hf x w'

theorem Succeeds.forM {f : α → Action Unit} (hf : ∀ x, (f x).Succeeds client) (xs : List α) :
    (xs.forM f).Succeeds client := by
  induction xs with
  | nil => exact fun w => ⟨w, (), rfl⟩
  | cons x xs ih => exact (hf x).bind fun _ => ih

variable (client)

theorem succeeds_update (f : World → World) : (ofStep (.update f)).Succeeds client :=
  fun w => ⟨f w, (), rfl⟩

theorem succeeds_attempt (a : Action α) : a.attempt.Succeeds client :=
  fun w => ⟨_, _, Run.finish_attempt client (a.begin w)⟩

/-- A listener whose cycle fails keeps no other from being woken. -/
theorem succeeds_wakeListeners (n : NotifierId) : (wakeListeners n).Succeeds client := by
  intro w
  let file := (w.file (w.notifier n).file).sweepListeners w.isAliveCoordinator
  have hrest : (do
      ofStep (.update (·.setFile (w.notifier n).file file))
      ofStep (.update (file.listeners.foldl World.retainCoordinator ·))
      file.listeners.forM fun c => do
        let _ ← (onChange c).attempt
        ofStep (.update (·.releaseCoordinator c)) : Action Unit).Succeeds client :=
    .bind (succeeds_update client _) fun _ => .bind (succeeds_update client _) fun _ =>
      .forM (fun c => .bind (succeeds_attempt client _) fun _ => succeeds_update client _) _
  exact hrest w

/-- What a coordinator does to announce a commit, unless it refuses to. -/
def announceTo (notifier : Option NotifierId) : Action Unit :=
  match notifier with
  | none => pure ()
  | some n => do
    ofStep (.update (·.retainNotifier n))
    (wakeListeners n).ensuring (·.releaseNotifier n)

theorem succeeds_announceTo (notifier : Option NotifierId) :
    (announceTo notifier).Succeeds client := by
  cases notifier with
  | none => exact fun w => ⟨w, (), rfl⟩
  | some n =>
    have hensured : ((wakeListeners n).ensuring (·.releaseNotifier n)).Succeeds client := by
      intro w
      obtain ⟨w', x, hwake⟩ := succeeds_wakeListeners client n w
      rw [finish_ensuring, hwake]
      exact ⟨_, x, rfl⟩
    exact (succeeds_update client (·.retainNotifier n)).bind fun _ => hensured

/-- Only a read-only coordinator refuses to announce a commit, and then it does nothing. -/
theorem finish_sendNotifications (c : CoordinatorId) (w : World) :
    if (w.coordinator c).config.any (·.readOnly) then
      ((sendNotifications c).begin w).finish client =
        (w, .error (.readOnly (w.coordinator c).path))
    else ∃ w', ((sendNotifications c).begin w).finish client = (w', .ok ()) := by
  let s := w.coordinator c
  have hbegin : (sendNotifications c).begin w =
      (if s.config.any (·.readOnly) then ofStep (Step.fail (.readOnly s.path))
      else announceTo s.notifier : Action Unit).begin w := rfl
  rw [hbegin]
  split
  · rfl
  · obtain ⟨w', _, hrun⟩ := succeeds_announceTo client s.notifier w
    exact ⟨w', hrun⟩

/-! ## Committing -/

/-- What a commit through an open handle does with the coordinator of the handle. -/
def commitThrough (h : HandleId) (config : Config) (log : Log) (c : CoordinatorId) :
    Action Version := do
  let version ← Step.askEngine config fun _ x => x.commit config.path log
  let _ ← Step.moveHandle h (some version)
  sendNotifications c
  return version

theorem finish_commit (h : HandleId) (log : Log) (w : World) :
    ((commit h log).begin w).finish client =
      if (w.handle h).config.readOnly then (w, .error (.readOnly (w.handle h).config.path))
      else ((withCoordinator h (commitThrough h (w.handle h).config log)).begin w).finish
        client := by
  have hbegin : (commit h log).begin w =
      (if (w.handle h).config.readOnly then ofStep (Step.fail (.readOnly (w.handle h).config.path))
      else withCoordinator h (commitThrough h (w.handle h).config log) : Action Version).begin w :=
    rfl
  rw [hbegin]
  split <;> rfl

/-- The log was added to the history of one file. No other history changed, and nobody was told: no
query or context was called, no cycle was made and no handle has something new pending. -/
structure Appended (f : FileId) (log : Log) (w w' : World) : Prop where
  commits : ∀ g, (w'.file g).commits =
    if g = f then (w.file f).commits ++ [log] else (w.file g).commits
  trace : w'.trace = w.trace
  queries : w'.queries = w.queries
  background : ∀ c, (w'.coordinator c).background = (w.coordinator c).background
  pending : ∀ i, (w'.handle i).pending = (w.handle i).pending

theorem Appended.recounted {f : FileId} {log : Log} {w₀ w w' w₁ : World} (h : Appended f log w w')
    (hbefore : Recounted w₀ w) (hafter : Recounted w' w₁) : Appended f log w₀ w₁ where
  commits g := by rw [hafter.commits, h.commits, hbefore.commits, hbefore.commits]
  trace := hafter.trace.trans (h.trace.trans hbefore.trace)
  queries := hafter.queries.trans (h.queries.trans hbefore.queries)
  background c := (hafter.background c).trans ((h.background c).trans (hbefore.background c))
  pending i := by rw [hafter.handle, h.pending, hbefore.handle]

/-- The logs on the way of a handle at this version once one more is committed. -/
def onTheWay (f : File) (v : Version) (log : Log) : Log :=
  ((f.commits ++ [log]).drop (v.number - 1)).flatten

/-- Once the log is committed there are two things left that can fail: the guard refuses the logs on
the handle's way, or the coordinator refuses to tell others. -/
theorem finish_commitThrough {h : HandleId} {config : Config} {c : CoordinatorId} {w : World}
    {f : FileId} {v : Version} (hf : config.file? = some f)
    (hcursor : (w.handle h).cursor = some ⟨f, some v⟩) (hlatest : v ≤ (w.file f).latest)
    (log : Log) :
    let made := ((w.file f).commit log).latest
    let result := ((commitThrough h config log c).begin w).finish client
    SchemaGuard.allows (onTheWay (w.file f) v log) = false ∧ result.2 = .error .schemaMismatch ∧
        Appended f log w result.1 ∧ (result.1.handle h).cursor = some ⟨f, some v⟩ ∨
      SchemaGuard.allows (onTheWay (w.file f) v log) ∧ (w.coordinator c).config.any (·.readOnly) ∧
        result.2 = .error (.readOnly (w.coordinator c).path) ∧
        Appended f log w result.1 ∧ (result.1.handle h).cursor = some ⟨f, some made⟩ ∨
      SchemaGuard.allows (onTheWay (w.file f) v log) ∧
        (w.coordinator c).config.any (·.readOnly) = false ∧ result.2 = .ok made := by
  intro made result
  obtain ⟨w₁, hcommit, hsame, hfiles⟩ := Step.run_commit hf log w
  let file := (w.file f).commit log
  have hfile : w₁.file f = file := by rw [hfiles, if_pos rfl]
  have hhandle : (w₁.handle h).cursor = some ⟨f, some v⟩ := by rw [hsame]; exact hcursor
  -- the version it made is the latest one, and there is a route to it
  have hle : v ≤ file.latest :=
    Version.le_trans hlatest (File.latest_le_latest (List.prefix_append _ _))
  have hmove := Step.run_moveHandle_of_le hhandle Option.getD_some hle
    (by rw [hfile]; exact Version.le_refl _)
  rw [hfile] at hmove
  have hway : (file.logsBetween v file.latest).flatten = onTheWay (w.file f) v log :=
    congrArg List.flatten (file.logsBetween_latest v)
  rw [hway] at hmove
  -- the replay of the move counts, which no history shows
  let counted := w₁.setFile f file.countReplay
  have hcounted : Appended f log w counted := by
    have hcommits : ∀ g, (counted.file g).commits =
        if g = f then (w.file f).commits ++ [log] else (w.file g).commits := by
      intro g
      rw [World.file_setFile]
      split
      · rfl
      · next hg => rw [hfiles, if_neg hg]
    have hrest : counted = { w with engines := counted.engines } := by
      show { w₁ with engines := counted.engines } = _
      rw [hsame]
    exact ⟨hcommits, by rw [hrest], by rw [hrest], fun _ => by rw [hrest]; rfl,
      fun _ => by rw [hrest]; rfl⟩
  have hbegin : result = ((Step.moveHandle h (some file.latest) >>= fun _ => do
      sendNotifications c
      return file.latest : Action Version).begin w₁).finish client := finish_step_ok client hcommit
  cases hallows : SchemaGuard.allows (onTheWay (w.file f) v log) with
  | false =>
    rw [hallows, if_neg Bool.false_ne_true] at hmove
    have hresult : result = (counted, .error .schemaMismatch) :=
      hbegin.trans (finish_step_error client hmove)
    rw [hresult]
    exact .inl ⟨rfl, rfl, hcounted, hhandle⟩
  | true =>
    rw [hallows, if_pos rfl] at hmove
    let moved := counted.onHandle h ({ · with cursor := some ⟨f, some file.latest⟩ })
    have hmoved : Appended f log w moved := by
      refine ⟨hcounted.commits, hcounted.trace, hcounted.queries, hcounted.background, fun i => ?_⟩
      rw [← hcounted.pending i, World.handle_onHandle]
      split
      · next hi => rw [hi]
      · rfl
    have hcoordinator : moved.coordinator c = w.coordinator c := by
      show w₁.coordinators.get c = _
      rw [hsame]
      rfl
    have hresult : result = ((sendNotifications c >>= fun _ => pure file.latest :
        Action Version).begin moved).finish client := hbegin.trans (finish_step_ok client hmove)
    have hsend := finish_sendNotifications client c moved
    rw [hcoordinator] at hsend
    cases hreadOnly : (w.coordinator c).config.any (·.readOnly) with
    | true =>
      rw [hreadOnly, if_pos rfl] at hsend
      rw [hresult, finish_bind_error client hsend]
      refine .inr (.inl ⟨rfl, rfl, rfl, hmoved, ?_⟩)
      rw [World.handle_onHandle_self]
    | false =>
      rw [hreadOnly, if_neg Bool.false_ne_true] at hsend
      obtain ⟨w', hsend⟩ := hsend
      rw [hresult, finish_bind_ok client hsend]
      exact .inr (.inr ⟨rfl, rfl, rfl⟩)

end Action

/-- **What a commit comes to**, whatever went on in the process and however its callbacks are
answered. Nothing happens on a handle that is read-only or closed. Otherwise the log is committed
first, and there it stays: it may be that the guard refuses the logs on the handle's way, or that
the coordinator refuses to announce them, and then the commit fails and nobody is told. -/
theorem commit_outcome (client : Callback → World → World) (sections : List Section) (h : HandleId)
    (log : Log) :
    let w := (Moment.start.after sections).world
    let x := w.handle h
    let result := ((Action.commit h log).begin w).finish client
    x.config.readOnly ∧ result = (w, .error (.readOnly x.config.path)) ∨
      x.config.readOnly = false ∧ x.isOpen = false ∧ result = (w, .error (.closed x.config.path)) ∨
      ∃ f v c, x.config.readOnly = false ∧ x.cursor = some ⟨f, some v⟩ ∧ x.coordinator = some c ∧
        let made := ((w.file f).commit log).latest
        let accepted := SchemaGuard.allows (Action.onTheWay (w.file f) v log)
        let unannounced := (w.coordinator c).config.any (·.readOnly)
        (accepted = false ∧ result.2 = .error .schemaMismatch ∧
            Action.Appended f log w result.1 ∧ (result.1.handle h).cursor = some ⟨f, some v⟩ ∨
          accepted ∧ unannounced ∧ result.2 = .error (.readOnly (w.coordinator c).path) ∧
            Action.Appended f log w result.1 ∧ (result.1.handle h).cursor = some ⟨f, some made⟩ ∨
          accepted ∧ unannounced = false ∧ result.2 = .ok made) := by
  intro w x result
  have hresult := Action.finish_commit client h log w
  change result = _ at hresult
  cases hreadOnly : x.config.readOnly with
  | true =>
    rw [show (w.handle h).config.readOnly = true from hreadOnly, if_pos rfl] at hresult
    exact .inl ⟨rfl, hresult⟩
  | false =>
    rw [show (w.handle h).config.readOnly = false from hreadOnly, if_neg Bool.false_ne_true]
      at hresult
    refine .inr ?_
    cases Moment.sound_after sections h with
    | closed hcursor hcoordinator =>
      rw [Action.finish_withCoordinator_of_closed client hcoordinator] at hresult
      exact .inl ⟨rfl, by rw [Handle.isOpen, hcursor]; rfl, hresult⟩
    | reads f v c hcursor hcoordinator hconfig hlatest =>
      refine .inr ⟨f, v, c, rfl, hcursor, hcoordinator, ?_⟩
      rw [Action.finish_withCoordinator client hcoordinator] at hresult
      -- the reference to the coordinator changes nothing that matters here
      have hbefore := recounted_retainCoordinator w c
      have hretained := w.coordinator_onCoordinator_self c fun s => { s with refs := s.refs + 1 }
      have hthrough := Action.finish_commitThrough client (c := c) (w := w.retainCoordinator c)
        hconfig hcursor hlatest log
      generalize ((Action.commitThrough h x.config log c).begin
        (w.retainCoordinator c)).finish client = through at hthrough hresult
      change (w.retainCoordinator c).coordinator c = _ at hretained
      rw [hretained] at hthrough
      have hafter := recounted_releaseCoordinator through.1 c
      rw [hresult]
      dsimp only
      rw [hafter.handle]
      rcases hthrough with ⟨hallows, houtcome, happended, hhandle⟩ |
        ⟨hallows, hunannounced, houtcome, happended, hhandle⟩ | hannounced
      · exact .inl ⟨hallows, houtcome, happended.recounted hbefore hafter, hhandle⟩
      · exact .inr (.inl ⟨hallows, hunannounced, houtcome, happended.recounted hbefore hafter,
          hhandle⟩)
      · exact .inr (.inr hannounced)

/-- A handle that somebody opened, on a file that nobody has committed to. -/
def freshHandle : List Section :=
  [.chore .makeEngine, .chore .makeRegistry, .chore (.getCoordinator 0 "/a"),
    .chore (.getHandle 0 none (.forFile "/a" 0))]

/-- Not every commit that fails leaves the histories as they were. -/
theorem exists_committed_failure :
    ¬ ∀ sections h log w' failure,
      (Action.commit h log).quietly (Moment.start.after sections).world = (w', .error failure) →
      ∀ f, (w'.file f).commits = ((Moment.start.after sections).world.file f).commits := by
  intro hall
  have hunchanged := hall freshHandle 0 [.removePrimaryKey] _ .schemaMismatch
    (Prod.ext rfl (by decide +kernel)) ⟨0, "/a"⟩
  revert hunchanged
  decide +kernel

end SnapshotCoordination
