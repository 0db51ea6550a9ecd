import SnapshotCoordination.Proofs.Handles.Calls
import SnapshotCoordination.Proofs.Handles.Telling

/-!
# A commit reaches every open handle

A commit that goes well is announced through the notifier of its coordinator. Whoever has a notifier
for that file is woken, once: it runs one change cycle and tells all its open handles, even if the
cycle failed. Nobody else is woken, and no other handle is told.

* **`Action.commit_eq_ok`** — what has gone well if a commit has;
* **`Linked.count_audience`** — the audience of a file are those who have a notifier for it;
* **`Orderly.hears_of_writable`** — a coordinator with a writable handle is in it;
* **`Orderly.announced`** — what an announcement comes to;
* **`commit_reaches_open_handles`** — all of this, wherever calls were made one at a time.
-/

namespace SnapshotCoordination

/-! ## Paths -/

/-- Every configuration is used with the coordinator of its path. -/
structure World.Normal (w : World) : Prop where
  canonical : ∀ c canonical, (w.coordinator c).config = some canonical →
    FilePath.key canonical.path = (w.coordinator c).path
  handle : ∀ h c, (w.handle h).coordinator = some c →
    FilePath.key (w.handle h).config.path = (w.coordinator c).path

/-- It is enough to look at what was made. -/
theorem World.normal_iff (w : World) :
    w.Normal ↔
      (∀ c < w.coordinators.size, ∀ canonical ∈ (w.coordinator c).config,
        FilePath.key canonical.path = (w.coordinator c).path) ∧
      ∀ h < w.handles.size, ∀ c ∈ (w.handle h).coordinator,
        FilePath.key (w.handle h).config.path = (w.coordinator c).path := by
  refine ⟨fun hw => ⟨fun c _ canonical hc => hw.canonical c canonical hc,
    fun h _ c hc => hw.handle h c hc⟩, fun ⟨hcanonical, hhandle⟩ => ⟨fun c canonical hc => ?_,
    fun h c hc => ?_⟩⟩
  · have hmade : c < w.coordinators.size := Table.lt_size_of_ne Coordinator.config (by
      rw [show (w.coordinators.get c).config = _ from hc]
      nofun)
    exact hcanonical c hmade canonical hc
  · exact hhandle h (lt_size_of_coordinator hc) c hc

instance (w : World) : Decidable w.Normal := decidable_of_iff' _ w.normal_iff

namespace Config

/-- The same file of the same engine. -/
theorem file?_congr {config canonical : Config} (hengine : config.engine = canonical.engine)
    (hkey : FilePath.key config.path = FilePath.key canonical.path) :
    config.file? = canonical.file? := by
  unfold file?
  rw [hengine, hkey]

end Config

/-! ## Committing -/

/-- A log was committed to file `f`, and handle `h` was moved to the version it made. -/
structure Written (h : HandleId) (f : FileId) (log : Log) (v : Version) (w w' : World) : Prop where
  commits : ∀ g, (w'.file g).commits =
    if g = f then (w.file f).commits ++ [log] else (w.file g).commits
  self : ∃ file, w'.handle h = { w.handle h with cursor := some ⟨file, some v⟩ }
  others : ∀ i, i ≠ h → w'.handle i = w.handle i
  coordinators : w'.coordinators = w.coordinators
  trace : w'.trace = w.trace
  queries : w'.queries = w.queries
  same : SameHoldings w w'

/-- No handle was told anything, nor given another context. -/
theorem Written.context_pending {h : HandleId} {f : FileId} {log : Log} {v : Version} {w w' : World}
    (hwritten : Written h f log v w w') (i : HandleId) :
    (w'.handle i).context = (w.handle i).context ∧ (w'.handle i).pending = (w.handle i).pending := by
  by_cases hi : i = h
  · obtain ⟨file, hself⟩ := hwritten.self
    rw [hi, hself]
    exact ⟨rfl, rfl⟩
  · rw [hwritten.others i hi]
    exact ⟨rfl, rfl⟩

namespace Action

/-- A log is committed and the handle moved. -/
theorem written_of_run {h : HandleId} {config : Config} {f : FileId} {log : Log} {w w₁ w₂ : World}
    {version : Version} {moved : Option Version × Option Version} (hf : config.file? = some f)
    (hcommit : (Step.askEngine config fun _ x => x.commit config.path log).run w = (w₁, .ok version))
    (hmove : (Step.moveHandle h (some version)).run w₁ = (w₂, .ok moved)) :
    version = ((w.file f).commit log).latest ∧ Written h f log version w w₂ := by
  obtain ⟨w₁', hrun, heq, hfiles⟩ := Step.run_commit hf log w
  rw [hrun, Prod.mk.injEq, Except.ok.injEq] at hcommit
  obtain ⟨rfl, rfl⟩ := hcommit
  refine ⟨rfl, ?_⟩
  have hhandle : ∀ i, w₁'.handle i = w.handle i := fun i => by rw [heq]; rfl
  cases hcursor : (w₁'.handle h).cursor with
  | none =>
    unfold Step.moveHandle at hmove
    rw [Step.run_bind_ok (Step.run_world _)] at hmove
    dsimp only at hmove
    rw [hcursor] at hmove
    cases hmove
  | some cursor =>
    have hsame : SameHoldings w w₂ := by
      have hcommitted := Step.sameHoldings_commit config log w
      have hmoved := Step.sameHoldings_moveHandle h (some ((w.file f).commit log).latest) w₁'
      rw [hrun] at hcommitted
      rw [hmove] at hmoved
      exact hcommitted.trans hmoved
    rw [Step.run_moveHandle hcursor] at hmove
    have hcommits := Step.commits_follow cursor (w₁'.fileOf cursor)
      (some ((w.file f).commit log).latest) SchemaGuard.fresh
    split at hmove
    · next reached hreached =>
      obtain ⟨u, -, rfl, -⟩ := Cursor.follow_guard_eq_ok hreached
      rw [Prod.mk.injEq] at hmove
      obtain ⟨rfl, -⟩ := hmove
      refine ⟨fun g => ?_, ⟨cursor.file, ?_⟩, fun i hi => ?_, ?_, ?_, ?_, hsame⟩
      · -- the replay of the move counts, which no history shows
        have hcount : ((w₁'.setFile cursor.file (cursor.follow (w₁'.fileOf cursor)
            (some ((w.file f).commit log).latest) SchemaGuard.fresh).file).file g).commits =
              (w₁'.file g).commits := by
          rw [World.file_setFile]
          split
          · next hg => rw [hcommits, hg]; rfl
          · rfl
        refine hcount.trans ?_
        rw [hfiles]
        split <;> rfl
      · rw [World.handle_onHandle_self]
        show ({ w₁'.handle h with cursor := some ⟨cursor.file, some ((w.file f).commit log).latest⟩ } :
          Handle) = _
        rw [hhandle]
      · rw [World.handle_onHandle_of_ne _ hi]
        exact hhandle i
      · show w₁'.coordinators = _
        rw [heq]
      · show w₁'.trace = _
        rw [heq]
      · show w₁'.queries = _
        rw [heq]
    · cases hmove

/-- **What has gone well if a commit has**: the log was committed, the handle was moved, and the
coordinator, which was held on to meanwhile, has announced it. -/
theorem commit_eq_ok {h : HandleId} {log : Log} {w w' : World} {v : Version}
    (hok : (commit h log).quietly w = (w', .ok v)) :
    ∃ c f w₁ w₂, (w.handle h).config.readOnly = false ∧ (w.handle h).coordinator = some c ∧
      (w.handle h).config.file? = some f ∧ v = ((w.file f).commit log).latest ∧
      Written h f log v (w.retainCoordinator c) w₁ ∧
      (sendNotifications c).quiet.run w₁ = (w₂, .ok ()) ∧ w' = w₂.releaseCoordinator c := by
  let config := (w.handle h).config
  have hbegin := finish_commit (fun _ w => w) h log w
  change (commit h log).quietly w = _ at hbegin
  rw [hok] at hbegin
  split at hbegin
  · cases hbegin
  next hwritable =>
  cases hcoordinator : (w.handle h).coordinator with
  | none =>
    rw [finish_withCoordinator_of_closed _ hcoordinator] at hbegin
    cases hbegin
  | some c =>
    rw [finish_withCoordinator _ hcoordinator, Prod.mk.injEq] at hbegin
    obtain ⟨hworld, houtcome⟩ := hbegin
    have hquiet : (commitThrough h config log c).quiet = (do
        let version ← Step.askEngine config fun _ x => x.commit config.path log
        let _ ← Step.moveHandle h (some version)
        (sendNotifications c).quiet
        return version : Step Version) := by
      unfold commitThrough
      rw [quiet_bind]
      congr 1
      funext version
      rw [quiet_bind]
      congr 1
      funext _
      rw [quiet_bind]
      rfl
    have hthrough : (commitThrough h config log c).quiet.run (w.retainCoordinator c) =
        ((((commitThrough h config log c).begin (w.retainCoordinator c)).finish fun _ w => w).1,
          .ok v) := Prod.ext rfl houtcome.symm
    rw [hquiet] at hthrough
    obtain ⟨w₀, version, hcommit, hrest⟩ := Step.run_bind_eq_ok hthrough
    obtain ⟨w₁, moved, hmove, hrest⟩ := Step.run_bind_eq_ok hrest
    obtain ⟨w₂, _, hsend, hlast⟩ := Step.run_bind_eq_ok hrest
    rw [Step.run_pure, Prod.mk.injEq, Except.ok.injEq] at hlast
    obtain ⟨rfl, rfl⟩ := hlast
    cases hf : config.file? with
    | none =>
      have hengine : config.engine? = .error (.invalidConfig (.noEngine config.path)) := by
        rw [Config.engine?, Option.map_eq_none_iff.mp hf]
      unfold Step.askEngine at hcommit
      rw [hengine] at hcommit
      cases hcommit
    | some f =>
      obtain ⟨rfl, hwritten⟩ := written_of_run hf hcommit hmove
      exact ⟨c, f, w₁, _, by simpa using hwritable, rfl, rfl, rfl, hwritten, hsend, hworld⟩

end Action

/-! ## The audience -/

namespace World

/-- The live listeners of a file. -/
def audience (w : World) (f : FileId) : List CoordinatorId :=
  (w.file f).listeners.filter w.isAliveCoordinator

theorem recounted_sweepListeners (w : World) (f : FileId) (alive : ListenerId → Bool) :
    Recounted w (w.setFile f ((w.file f).sweepListeners alive)) := by
  refine ⟨rfl, rfl, rfl, fun g => ?_, fun _ => rfl, fun _ => rfl⟩
  rw [file_setFile]
  split
  · next hg => rw [hg]; rfl
  · rfl

/-- An announcement wakes the audience of the file, -/
theorem woken_announce (w : World) (n : NotifierId) :
    Woken (w.audience (w.notifier n).file) w (w.announce n) :=
  .of_recounted (recounted_sweepListeners w _ _) (woken_wake _ _)

/-- and all its live handles are told. -/
theorem alerted_announce (w : World) (n : NotifierId) :
    Alerted ((w.audience (w.notifier n).file).flatMap w.liveHandles) w (w.announce n) := by
  let f := (w.notifier n).file
  let swept := w.setFile f ((w.file f).sweepListeners w.isAliveCoordinator)
  have halive : ∀ c ∈ w.audience f, swept.isAliveCoordinator c :=
    fun c hc => (List.mem_filter.mp hc).2
  have hwake := alerted_wake halive
  exact (Alerted.of_recounted (recounted_sweepListeners w _ _)).trans hwake

end World

theorem Borrowed.audience {cs : List CoordinatorId} {hs : List HandleId} {ns : List NotifierId}
    {w w' : World} (h : Borrowed cs hs ns w w') (f : FileId) : w'.audience f = w.audience f := by
  unfold World.audience
  rw [h.isAliveCoordinator]
  exact h.awake f

namespace Linked

variable {w : World} {f : FileId}

/-- The audience of a file are those who hear of it, each of them once. -/
theorem count_audience (h : Linked w) (f : FileId) (d : CoordinatorId) :
    (w.audience f).count d = if w.hears d = some f then 1 else 0 := by
  cases halive : w.isAliveCoordinator d with
  | true =>
    rw [World.audience, List.count_filter halive]
    exact h.tuned.listed f d
  | false =>
    rw [if_neg, List.count_eq_zero]
    · intro hmem
      rw [(List.mem_filter.mp hmem).2] at halive
      cases halive
    · intro hhears
      rw [h.awake d (World.isSome_notifier_of_hears hhears)] at halive
      cases halive

theorem nodup_audience (h : Linked w) (f : FileId) : (w.audience f).Nodup := by
  rw [List.nodup_iff_count_le_one]
  intro d
  rw [h.count_audience]
  split <;> omega

theorem mem_audience (h : Linked w) {d : CoordinatorId} :
    d ∈ w.audience f ↔ w.hears d = some f := by
  rw [← List.count_pos_iff, h.count_audience]
  split <;> simp_all

end Linked

/-- Whoever remembers a handle is the only one, and does so once. -/
theorem Counted.nodup_flatMap_remembered {cs ds : List CoordinatorId} {w : World}
    (h : Counted cs w) (hds : ds.Nodup) : (ds.flatMap w.remembered).Nodup := by
  rw [List.nodup_flatMap]
  refine ⟨fun d _ => h.once d, hds.imp fun hne i hi hi' => hne ?_⟩
  exact Option.some_inj.mp (((h.member _ i).mp hi).symm.trans ((h.member _ i).mp hi'))

namespace Orderly

variable {w w' : World}

/-- Who has a writable handle open hears of its file. -/
theorem hears_of_writable (hw : Orderly w) (hnormal : w.Normal) {h : HandleId} {c : CoordinatorId}
    {f : FileId} (hopen : (w.handle h).coordinator = some c)
    (hwritable : (w.handle h).config.readOnly = false)
    (hf : (w.handle h).config.file? = some f) :
    (∃ canonical, (w.coordinator c).config = some canonical ∧ canonical.readOnly = false) ∧
      w.hears c = some f := by
  obtain ⟨canonical, hcanonical, hsuits⟩ := hw.concord.agreed.suits h c hopen
  have hcanonicalWritable : canonical.readOnly = false := hsuits.readOnly ▸ hwritable
  refine ⟨⟨canonical, hcanonical, hcanonicalWritable⟩, ?_⟩
  cases hn : (w.coordinator c).notifier with
  | none =>
    -- who lacks a notifier remembers no handle
    have hnobody := hw.concord.agreed.attended c canonical hcanonical hcanonicalWritable hn
    have hmem := (hw.concord.counted.member c h).mpr hopen
    rw [hnobody] at hmem
    cases hmem
  | some n =>
    obtain ⟨aimed, haimed, hfile⟩ := hw.linked.tuned.aimed c n hn
    obtain rfl : canonical = aimed := Option.some_inj.mp (hcanonical.symm.trans haimed)
    have hsame : (w.handle h).config.file? = canonical.file? := Config.file?_congr hsuits.engine
      ((hnormal.handle h c hopen).trans (hnormal.canonical c canonical hcanonical).symm)
    rw [World.hears, hn, Option.map_some, ← hfile, ← hsame, hf]

/-- **What the announcement of a coordinator comes to**, with a reference to it held on to: the
audience of its file is woken, and all its handles are told. -/
theorem announced (hw : Orderly w) {c : CoordinatorId} {f : FileId} (hhears : w.hears c = some f)
    {w₁ w₂ : World} (hheld : Borrowed [c] [] [] w w₁)
    (hsend : (Action.sendNotifications c).quiet.run w₁ = (w₂, .ok ())) :
    Woken (w.audience f) w₁ w₂ ∧ Alerted ((w.audience f).flatMap w.remembered) w₁ w₂ := by
  obtain ⟨n, hn, rfl⟩ := Option.map_eq_some_iff.mp hhears
  have hsame : (w₁.coordinator c).notifier = some n :=
    (congrArg Foreground.notifier (hheld.coordinator c)).trans hn
  have hlast := (hw.linked.tuned.owned c n hn).2
  -- a reference to the notifier is held on to as well
  have hboth := hheld.retainNotifier (n := n) (by omega)
  have hfile : ((w₁.retainNotifier n).notifier n).file = (w.notifier n).file := by
    rw [hboth.notifier n (by omega)]
  have hwoken := World.woken_announce (w₁.retainNotifier n) n
  have halerted := World.alerted_announce (w₁.retainNotifier n) n
  rw [hfile, hboth.audience] at hwoken halerted
  have hremembered : (w₁.retainNotifier n).liveHandles = w.remembered := by
    funext d
    rw [hboth.liveHandles, hw.concord.counted.liveHandles]
  rw [hremembered] at halerted
  have htaken : Recounted w₁ (w₁.retainNotifier n) :=
    ⟨rfl, rfl, rfl, fun _ => rfl, fun _ => rfl, fun _ => rfl⟩
  rw [Action.run_sendNotifications] at hsend
  split at hsend
  · cases hsend
  · rw [hsame] at hsend
    obtain ⟨rfl, -⟩ := Prod.mk.inj hsend
    refine ⟨(Woken.of_recounted htaken hwoken).recounted (recounted_releaseNotifier _ n), ?_⟩
    have hreleased := (Alerted.of_recounted htaken).trans
      (halerted.trans (.of_recounted (recounted_releaseNotifier _ n)))
    rwa [List.nil_append, List.append_nil] at hreleased

end Orderly

/-! ## Commits -/

/-- **A commit reaches every open handle**, wherever calls were made one at a time and every
configuration is used with the coordinator of its path. If it goes well, it made the next version,
and its handle is at that. The coordinators that have a notifier for the file, and nobody else, are
woken, each of them once: it runs a change cycle and tells its live handles, whatever became of any
cycle. So all handles that are open with them, and nobody else, were told, once. -/
theorem commit_reaches_open_handles {calls : List Call} (hallowed : Call.AllAllowed .start calls)
    (hnormal : (World.start.afterCalls calls).Normal) {h : HandleId} {log : Log} {w' : World}
    {v : Version}
    (hok : (Action.commit h log).quietly (World.start.afterCalls calls) = (w', .ok v)) :
    let w := World.start.afterCalls calls
    ∃ (c : CoordinatorId) (f : FileId) (cs : List CoordinatorId) (hs : List HandleId) (w₁ : World),
      ((w.handle h).coordinator = some c ∧ (w.handle h).config.file? = some f) ∧
      (v = ⟨(w.file f).latest.number + 1, 0⟩ ∧ (w'.file f).latest = v ∧
        (w'.handle h).version? = some v) ∧
      (cs.Nodup ∧ ∀ d, d ∈ cs ↔ w.hears d = some f) ∧
      (Written h f log v (w.retainCoordinator c) w₁ ∧ Woken cs w₁ w' ∧
        ∀ d, d ∉ cs → (w'.coordinator d).background = (w.coordinator d).background) ∧
      (hs.Nodup ∧ h ∈ hs ∧ ∀ i, i ∈ hs ↔
        (w.handle i).isOpen ∧ ∃ d ∈ cs, (w.handle i).coordinator = some d) ∧
      (∀ i, (w'.handle i).pending = (decide (i ∈ hs) || (w.handle i).pending)) ∧
      w'.announced = w.announced ++ hs.filterMap fun i => (w.handle i).context := by
  intro w
  have hw : Orderly w := Orderly.start.after hallowed
  have hcounted := hw.concord.counted
  obtain ⟨c, f, w₁, w₂, hwritable, hopen, hf, rfl, hwritten, hsend, rfl⟩ :=
    Action.commit_eq_ok hok
  have hhears := (hw.hears_of_writable hnormal hopen hwritable hf).2
  have hheld : Borrowed [c] [] [] w w₁ :=
    ((Borrowed.of_same (.refl w)).retainCoordinator (hcounted.isAlive_of_open hopen)).andThen
      hwritten.same
  obtain ⟨hwoken, halerted⟩ := hw.announced hhears hheld hsend
  let cs := w.audience f
  let hs := cs.flatMap w.remembered
  let w' := w₂.releaseCoordinator c
  have hwoken' : Woken cs w₁ w' := hwoken.recounted (recounted_releaseCoordinator _ c)
  have halerted' : Alerted hs w₁ w' := by
    have h := halerted.trans (.of_recounted (recounted_releaseCoordinator w₂ c))
    rwa [List.append_nil] at h
  have hmem : ∀ i, i ∈ hs ↔ ∃ d ∈ cs, (w.handle i).coordinator = some d := by
    intro i
    simp only [hs, List.mem_flatMap, hcounted.member]
  have hhandle : ∀ i, (w₁.handle i).context = (w.handle i).context ∧
      (w₁.handle i).pending = (w.handle i).pending := hwritten.context_pending
  have hcommits : (w'.file f).commits = (w.file f).commits ++ [log] := by
    rw [hwoken'.commits, hwritten.commits, if_pos rfl]
    rfl
  refine ⟨c, f, cs, hs, w₁, ⟨hopen, hf⟩, ⟨?_, ?_, ?_⟩,
    ⟨hw.linked.nodup_audience f, fun d => hw.linked.mem_audience⟩,
    ⟨hwritten, hwoken', fun d hd => ?_⟩,
    ⟨hcounted.nodup_flatMap_remembered (hw.linked.nodup_audience f), ?_, fun i => ?_⟩,
    fun i => ?_, ?_⟩
  · rw [File.latest, File.latest, File.commit, List.length_append]
    rfl
  · rw [File.latest, hcommits]
    rfl
  · obtain ⟨file, hself⟩ := hwritten.self
    rw [Handle.version?, halerted'.handle]
    split <;> rw [hself] <;> rfl
  · rw [hwoken'.background hd, World.coordinator, hwritten.coordinators]
    exact (recounted_retainCoordinator w c).background d
  · exact (hmem h).mpr ⟨c, hw.linked.mem_audience.mpr hhears, hopen⟩
  · rw [hmem, hcounted.isOpen, iff_and_self]
    rintro ⟨d, -, hd⟩
    rw [hd]
    rfl
  · rw [halerted'.handle]
    split
    · next hi => simp [hi]
    · next hi => simp [hi, (hhandle i).2]
  · have hannounced : w₁.announced = w.announced :=
      congrArg (List.filterMap Event.available?) hwritten.trace
    rw [halerted'.announced, hannounced]
    simp only [hhandle]

/-- Handles are open for a file through two registries, and a query is kept up to date through the
second one, when a log is committed that nobody can replay; so only a handle that is opened after
that goes on. There is another file, and a handle that was closed. -/
def twoRegistries : List Call :=
  [.chore .makeEngine, .chore .makeRegistry, .chore .makeRegistry,
    .openFile 0 none (.forFile "/a" 0), .openFile 1 none (.forFile "/a" 0),
    .chore (.makeQuery none [] ⟨1, 0⟩), .register 1 0, .onChange 1, .commit 0 [.eraseTable 0],
    .openFile 0 (some "t") (.forFile "/x/../a" 0), .openFile 0 (some "u") (.forFile "/a" 0),
    .openFile 0 none (.forFile "/b" 0), .chore (.closeHandle 3), .chore (.setContext 0 (some 0)),
    .chore (.setContext 1 (some 1)), .chore (.setContext 3 (some 3)), .chore (.setContext 4 (some 4))]

/-- The cycle of the second registry fails, and its handle is told all the same. -/
theorem commit_reaches_open_handles_twoRegistries :
    let w := World.start.afterCalls twoRegistries
    let committed := (Action.commit 2 [.selectTable 0]).quietly w
    let w' := committed.1
    (Call.AllAllowed .start twoRegistries ∧ w.Normal ∧ committed.2 = .ok ⟨3, 0⟩) ∧
      ((w.coordinator 1).asyncError = none ∧ (w'.coordinator 1).asyncError.isSome) ∧
      (w'.announced = [0, 1] ∧ (w'.handle 1).pending) ∧
      ∃ hs : List HandleId, hs.Nodup ∧ (∀ i ∈ [0, 1, 2], i ∈ hs) ∧ (∀ i ∈ [3, 4], i ∉ hs) ∧
        w'.announced = w.announced ++ hs.filterMap fun i => (w.handle i).context := by
  intro w committed w'
  have hallowed : Call.AllAllowed .start twoRegistries := by decide +kernel
  have hnormal : w.Normal := by decide +kernel
  have hok : committed.2 = .ok ⟨3, 0⟩ := by decide +kernel
  have hcommitted : committed = (committed.1, .ok ⟨3, 0⟩) := by rw [← hok]
  obtain ⟨c, f, cs, hs, w₁, ⟨-, hf⟩, -, ⟨-, hcs⟩, -, ⟨hnodup, -, hhs⟩, hpending, hannounced⟩ :=
    commit_reaches_open_handles hallowed hnormal hcommitted
  have hfile : (w.handle 2).config.file? = some ⟨0, "/a"⟩ := by decide +kernel
  obtain rfl : f = ⟨0, "/a"⟩ := Option.some_inj.mp (hf.symm.trans hfile)
  have htold : ∀ i ∈ [0, 1, 2], i ∈ hs := by
    intro i hi
    have hopen : ∀ i ∈ [0, 1, 2], (w.handle i).isOpen ∧
        ∃ d ∈ [0, 1], w.hears d = some ⟨0, "/a"⟩ ∧ (w.handle i).coordinator = some d := by
      decide +kernel
    obtain ⟨hopen, d, -, hhears, hd⟩ := hopen i hi
    exact (hhs i).mpr ⟨hopen, d, (hcs d).mpr hhears, hd⟩
  refine ⟨⟨hallowed, hnormal, hok⟩, by decide +kernel, ⟨by decide +kernel, ?_⟩, hs, hnodup, htold,
    fun i hi hmem => ?_, hannounced⟩
  · rw [hpending, decide_eq_true (htold 1 (by decide)), Bool.true_or]
  · have hothers : ∀ i ∈ [3, 4], (w.handle i).isOpen →
        (w.handle i).coordinator = some 2 ∧ w.hears 2 ≠ some ⟨0, "/a"⟩ := by decide +kernel
    obtain ⟨hopen, d, hd, hcoordinator⟩ := (hhs i).mp hmem
    obtain ⟨htwo, hdeaf⟩ := hothers i hi hopen
    obtain rfl : d = 2 := Option.some_inj.mp (hcoordinator.symm.trans htwo)
    exact hdeaf ((hcs 2).mp hd)

end SnapshotCoordination
