import SnapshotCoordination.Proofs.Handles.Landing

/-!
# What a refresh comes to

A refresh takes a handle to where it is to land, if there is a way, lets queries deliver there and
calls the callbacks that are due. If the handle moved, its context hears of it last.

* **`Step.landed_settle`**, **`Action.landed_refresh`** — one refresh, whatever world it is made in;
* **`Action.quietly_refresh_again`** — another one moves nothing, if all that decides where it goes
  is as it was;
* **`refresh_lands`** — both together, whatever went on in a process before.
-/

namespace SnapshotCoordination

/-! ## Moving and delivering -/

namespace Step

/-- A move of an open handle forward succeeds if there is a way; otherwise it leaves the handle where
it was. -/
theorem run_moveHandle_forward {w : World} {h : HandleId} {f : FileId} {v target : Version}
    {asked : Option Version} (hcursor : (w.handle h).cursor = some ⟨f, some v⟩)
    (htarget : asked.getD (w.file f).latest = target) (hle : v ≤ target) :
    ∃ w', Serves h [] w w' ∧
      (w.HasWay f v target ∧ (w'.handle h).cursor = some ⟨f, some target⟩ ∧
          (moveHandle h asked).run w = (w', .ok (some v, some target)) ∨
        ¬ w.HasWay f v target ∧ (w'.handle h).cursor = some ⟨f, some v⟩ ∧
          ∃ failure, (moveHandle h asked).run w = (w', .error failure)) := by
  by_cases hlatest : target ≤ (w.file f).latest
  · have hmove := run_moveHandle_of_le hcursor htarget hle hlatest
    let counted := w.setFile f (w.file f).countReplay
    have hcounted : Serves h [] w counted := .setFile w rfl
    have hmoved : Serves h [] counted (counted.onHandle h
      ({ · with cursor := some ⟨f, some target⟩ })) := .onHandle counted rfl rfl
    cases hallows : SchemaGuard.allows ((w.file f).logsBetween v target).flatten with
    | true =>
      rw [hallows, if_pos rfl] at hmove
      exact ⟨_, hcounted.trans hmoved, .inl ⟨⟨hlatest, hallows⟩, by rw [World.handle_onHandle_self],
        hmove⟩⟩
    | false =>
      rw [hallows, if_neg Bool.false_ne_true] at hmove
      refine ⟨_, hcounted, .inr ⟨fun hway => ?_, hcursor, _, hmove⟩⟩
      rw [hway.2] at hallows
      cases hallows
  · -- there is no such version, so nothing is replayed
    let missing : Failure := .storage (.missingVersion target (w.file f).latest)
    have hfollow : (Cursor.mk f (some v)).follow (w.file f) asked SchemaGuard.fresh =
        ⟨w.file f, .fresh, .error missing⟩ := by
      unfold Cursor.follow Cursor.route
      dsimp only
      rw [htarget, if_neg (Version.not_lt_of_le hle), if_pos (Version.not_le.mp hlatest)]
    have hmove := run_moveHandle hcursor asked
    rw [World.fileOf, hfollow] at hmove
    exact ⟨w.setFile f (w.file f), .setFile w rfl, .inr ⟨fun hway => hlatest hway.1, hcursor,
      missing, hmove⟩⟩

/-- What it is to ask queries for a delivery: the answers in order, which say whose callbacks are
due. -/
def delivered (h : HandleId) (version : Version) (failure : Option Failure)
    (answers : List (QueryId × Bool)) : List Event :=
  answers.map fun a => .deliver a.1 h version failure a.2

/-- The queries whose callbacks are due. -/
def dueOf (answers : List (QueryId × Bool)) : List QueryId :=
  (answers.filter (·.2)).map (·.1)

theorem run_deliver (q : QueryId) (h : HandleId) (version : Version) (failure : Option Failure)
    (w : World) :
    ∃ w' due, (deliver q h version failure).run w = (w', .ok due) ∧
      Serves h [.deliver q h version failure due] w w' ∧ w'.handles = w.handles :=
  ⟨_, _, rfl, (Serves.onQuery w q (congrArg Prod.fst (standing_deliver _ h version failure))).trans
    (.note _ _), rfl⟩

theorem run_deliverAll (h : HandleId) (version : Version) (failure : Option Failure)
    (queries : List QueryId) (w : World) :
    ∃ w' answers, (deliverAll h version failure queries).run w = (w', .ok (dueOf answers)) ∧
      answers.map Prod.fst = queries ∧ Serves h (delivered h version failure answers) w w' ∧
      w'.handles = w.handles := by
  induction queries generalizing w with
  | nil => exact ⟨w, [], rfl, rfl, .refl w, rfl⟩
  | cons q rest ih =>
    obtain ⟨w₁, due, hrun, hserves, hhandles⟩ := run_deliver q h version failure w
    obtain ⟨w', answers, hrest, hqueries, hserves', hhandles'⟩ := ih w₁
    refine ⟨w', (q, due) :: answers, ?_, by rw [List.map_cons, hqueries], hserves.trans hserves',
      hhandles'.trans hhandles⟩
    show (deliver q h version failure >>= fun due => _).run w = _
    rw [run_bind_ok hrun, run_bind_ok hrest]
    cases due <;> rfl

/-- What is done once a handle is where it is to be: the queries are asked for a delivery if the
handle is at the version that they are ready at, or if a failure is captured. -/
def offer (s : Coordinator) (h : HandleId) (target : Version) (moved : Bool)
    (version : Option Version) : Step (Bool × List QueryId) :=
  if version != some target && s.asyncError.isNone then pure (false, [])
  else do return (moved, ← deliverAll h (version.getD target) s.asyncError s.queries)

theorem run_offer (s : Coordinator) (h : HandleId) {target version : Version} {moved : Bool}
    (hmoved : version ≠ target → moved = false) (w : World) :
    ∃ w' answers, (offer s h target moved (some version)).run w = (w', .ok (moved, dueOf answers)) ∧
      answers.map Prod.fst = (if version = target ∨ s.asyncError.isSome then s.queries else []) ∧
      Serves h (delivered h version s.asyncError answers) w w' ∧ w'.handles = w.handles := by
  unfold offer
  by_cases hasked : version = target ∨ s.asyncError.isSome
  · obtain ⟨w', answers, hrun, hqueries, hserves, hhandles⟩ :=
      run_deliverAll h version s.asyncError s.queries w
    have hguard : ¬ (some version != some target && s.asyncError.isNone) := by
      rcases hasked with rfl | hfailed
      · simp
      · simp [Option.isNone_eq_false_iff.mpr hfailed]
    refine ⟨w', answers, ?_, by rw [hqueries, if_pos hasked], hserves, hhandles⟩
    rw [if_neg hguard]
    exact run_bind_ok hrun _
  · have hpast : version ≠ target := fun heq => hasked (.inl heq)
    have hguard : some version != some target && s.asyncError.isNone := by
      have hnone : s.asyncError = none := by
        simpa using fun h => hasked (.inr h)
      simp [hpast, hnone]
    refine ⟨w, [], ?_, by rw [if_neg hasked]; rfl, .refl w, rfl⟩
    rw [if_pos hguard, hmoved hpast]
    rfl

theorem run_settle_of_none {w : World} {c : CoordinatorId} (hready : w.ready? c = none)
    (h : HandleId) :
    (settle c h).run w =
      (moveHandle h none >>= fun reached => pure (reached.1 != reached.2, [])).run w := by
  unfold settle
  rw [run_bind_ok (show (coordinator c).run w = (w, .ok (w.coordinator c)) from rfl),
    run_bind_ok (show (readyVersion c).run w = (w, .ok (w.ready? c)) from rfl), hready]

theorem run_settle_of_some {w : World} {c : CoordinatorId} {target : Version}
    (hready : w.ready? c = some target) (h : HandleId) :
    (settle c h).run w =
      if (w.handle h).version?.any (target < ·) then
        (offer (w.coordinator c) h target false (w.handle h).version?).run w
      else (moveHandle h (some target) >>= fun reached =>
        offer (w.coordinator c) h target (reached.1 != reached.2) reached.2).run w := by
  unfold settle
  rw [run_bind_ok (show (coordinator c).run w = (w, .ok (w.coordinator c)) from rfl),
    run_bind_ok (show (readyVersion c).run w = (w, .ok (w.ready? c)) from rfl), hready]
  rw [run_bind_ok (run_world w)]
  dsimp only
  split <;> rfl

theorem landed_settle {w : World} {h : HandleId} {f : FileId} {v : Version} (c : CoordinatorId)
    (hcursor : (w.handle h).cursor = some ⟨f, some v⟩) (hlatest : v ≤ (w.file f).latest) :
    Landed c h f v (fun answers => (v != w.landing c f v, dueOf answers))
      (delivered h (w.landing c f v) (w.coordinator c).asyncError) w ((settle c h).run w) := by
  have hversion : (w.handle h).version? = some v := by rw [Handle.version?, hcursor]; rfl
  cases hready : w.ready? c with
  | none =>
    have hlanding := World.landing_of_none (f := f) hready v
    have haddressees : w.addressees c (w.landing c f v) = [] := by rw [World.addressees, hready]
    obtain ⟨w', hserves, ⟨hway, hlands, hrun⟩ | ⟨hway, hstill, failure, hrun⟩⟩ :=
      run_moveHandle_forward hcursor (Option.getD_none.trans hlanding.symm)
        (World.le_landing hlatest)
    · rw [run_settle_of_none hready, run_bind_ok hrun]
      exact .landed w' [] hway hlands haddressees.symm hserves
    · rw [run_settle_of_none hready, run_bind_error hrun]
      exact .stayed w' failure hway hstill hserves
  | some target =>
    have haddressees : w.addressees c (w.landing c f v) =
        if w.landing c f v = target ∨ (w.coordinator c).asyncError.isSome then
          (w.coordinator c).queries else [] := by rw [World.addressees, hready]
    rw [run_settle_of_some hready, hversion]
    by_cases hpast : target < v
    · -- the handle is past the results, so it stays where it is
      have hlanding := World.landing_of_past (f := f) hready (Version.le_of_lt hpast)
      have hany : (some v).any (target < ·) := decide_eq_true hpast
      have hstill : (v != w.landing c f v) = false := by rw [hlanding, bne_self_eq_false]
      obtain ⟨w', answers, hrun, hqueries, hserves, hhandles⟩ :=
        run_offer (w.coordinator c) h (fun _ : v ≠ target => hstill) w
      rw [if_pos hany, ← hstill, hrun]
      refine .landed w' answers ?_ ?_ ?_ ?_
      · rw [hlanding]
        exact World.hasWay_self hlatest
      · rw [hlanding, World.handle_congr hhandles]
        exact hcursor
      · rw [haddressees, hlanding]
        exact hqueries
      · rw [hlanding]
        exact hserves
    · have hlanding := World.landing_of_le (f := f) hready (Version.not_lt.mp hpast)
      have hany : ¬ (some v).any (target < ·) := fun h => hpast (of_decide_eq_true h)
      obtain ⟨w₁, hserves, ⟨hway, hlands, hmove⟩ | ⟨hway, hstill, failure, hmove⟩⟩ :=
        run_moveHandle_forward hcursor (Option.getD_some.trans hlanding.symm)
          (World.le_landing hlatest)
      · have hthere : w.landing c f v ≠ target → (some v != some (w.landing c f v)) = false :=
          fun hne => absurd hlanding hne
        obtain ⟨w', answers, hrun, hqueries, hserves', hhandles⟩ :=
          run_offer (w.coordinator c) h hthere w₁
        rw [if_neg hany, run_bind_ok hmove, hrun]
        exact .landed w' answers hway (by rw [World.handle_congr hhandles]; exact hlands)
          (haddressees ▸ hqueries) (hserves.trans hserves')
      · rw [if_neg hany, run_bind_error hmove]
        exact .stayed w₁ failure hway hstill hserves

end Step

/-! ## A whole refresh -/

namespace Action

/-- Tell the context of a handle, if it has one, that the handle moved. -/
def tellMoved (h : HandleId) : Action Unit := do
  match ((← Step.world).handle h).context with
  | none => return
  | some context => do
    Step.note (.didChange context)
    callOut (.didChange context)

/-- Tell a context, if there is one, that its handle moved. -/
def tellContext : Option ContextId → Action Unit
  | none => pure ()
  | some context => do
    Step.note (.didChange context)
    callOut (.didChange context)

/-- What a refresh does with the coordinator of the handle. -/
def refreshThrough (h : HandleId) (c : CoordinatorId) : Action Unit := do
  Step.update (·.onHandle h fun x => { x with pending := false })
  if ← advanceToReady c h then tellMoved h else return

theorem quietly_callbacks (h : HandleId) (due : List QueryId) (w : World) :
    ∃ w', (due.forM callCallbacks).quietly w = (w', .ok ()) ∧
      Serves h (due.map .callbacks) w w' ∧ w'.handles = w.handles := by
  induction due generalizing w with
  | nil => exact ⟨w, rfl, .refl w, rfl⟩
  | cons q due ih =>
    obtain ⟨w', hrun, hserves, hhandles⟩ := ih (w.note (.callbacks q))
    exact ⟨w', hrun, (Serves.note w (.callbacks q)).trans hserves, hhandles⟩

/-- What the context of a handle hears, if it has one, once the handle moved. -/
def heard (w : World) (h : HandleId) : List Event := (w.handle h).context.toList.map .didChange

theorem quietly_tellMoved (h : HandleId) (w : World) :
    ∃ w', (tellMoved h).quietly w = (w', .ok ()) ∧ Serves h (heard w h) w w' ∧
      w'.handles = w.handles := by
  have hbegin : (tellMoved h).quietly w = (tellContext (w.handle h).context).quietly w := rfl
  rw [hbegin, heard]
  cases (w.handle h).context with
  | none => exact ⟨w, rfl, .refl w, rfl⟩
  | some context => exact ⟨_, rfl, .note w _, rfl⟩

/-- The queries deliver first, and the callbacks that are due follow. -/
theorem landed_advanceToReady {w : World} {h : HandleId} {f : FileId} {v : Version}
    (c : CoordinatorId) (hcursor : (w.handle h).cursor = some ⟨f, some v⟩)
    (hlatest : v ≤ (w.file f).latest) :
    Landed c h f v (fun _ => v != w.landing c f v)
      (fun answers => Step.delivered h (w.landing c f v) (w.coordinator c).asyncError answers ++
        (Step.dueOf answers).map .callbacks) w ((advanceToReady c h).quietly w) := by
  have hsettle : Landed c h f v _ _ w ((ofStep (Step.settle c h)).quietly w) :=
    Step.landed_settle c hcursor hlatest
  refine hsettle.andThen fun answers w₁ _ => ?_
  obtain ⟨w', hcallbacks, hserves, hhandles⟩ := quietly_callbacks h (Step.dueOf answers) w₁
  exact ⟨w', finish_bind_ok _ hcallbacks, hserves, hhandles⟩

/-- The callbacks are called before the context hears that the handle moved. -/
theorem landed_refreshThrough {w : World} {h : HandleId} {f : FileId} {v : Version}
    (c : CoordinatorId) (hcursor : (w.handle h).cursor = some ⟨f, some v⟩)
    (hlatest : v ≤ (w.file f).latest) :
    Landed c h f v (fun _ => ())
      (fun answers => Step.delivered h (w.landing c f v) (w.coordinator c).asyncError answers ++
        (Step.dueOf answers).map .callbacks ++ if v = w.landing c f v then [] else heard w h)
      w ((refreshThrough h c).quietly w) := by
  let w₁ := w.onHandle h fun x => { x with pending := false }
  have hclear : Serves h [] w w₁ := .onHandle w rfl rfl
  have hcursor₁ : (w₁.handle h).cursor = some ⟨f, some v⟩ := by
    rw [World.handle_onHandle_self]
    exact hcursor
  have hadvance := landed_advanceToReady c hcursor₁ hlatest
  rw [hclear.landing, hclear.asyncError] at hadvance
  refine .before hclear (hadvance.andThen fun answers w₂ hserves => ?_)
  have hheard : heard w₂ h = heard w h := by rw [heard, heard, hserves.context, hclear.context]
  by_cases hstill : v = w.landing c f v
  · rw [if_pos hstill, ← hstill, bne_self_eq_false]
    exact ⟨w₂, rfl, .refl w₂, rfl⟩
  · rw [if_neg hstill, bne_iff_ne.mpr hstill, ← hheard]
    exact quietly_tellMoved h w₂

/-- **One refresh** of an open handle, in whatever world it is made. -/
theorem landed_refresh {w : World} {h : HandleId} {f : FileId} {v : Version} {c : CoordinatorId}
    (hcursor : (w.handle h).cursor = some ⟨f, some v⟩)
    (hcoordinator : (w.handle h).coordinator = some c) (hlatest : v ≤ (w.file f).latest) :
    Landed c h f v (fun _ => ())
      (fun answers => Step.delivered h (w.landing c f v) (w.coordinator c).asyncError answers ++
        (Step.dueOf answers).map .callbacks ++ if v = w.landing c f v then [] else heard w h)
      w ((refresh h).quietly w) := by
  have hbefore := Serves.of_recounted (h := h) (recounted_retainCoordinator w c)
  have hthrough := landed_refreshThrough (h := h) c hcursor (w := w.retainCoordinator c) hlatest
  rw [hbefore.landing, hbefore.asyncError] at hthrough
  have hrun := finish_withCoordinator (fun _ w => w) hcoordinator (refreshThrough h)
  have hresult : (refresh h).quietly w = _ := hrun
  rw [hresult]
  exact .before hbefore (.recounted (recounted_releaseCoordinator _ c) hthrough)

end Action

/-! ## Another refresh -/

namespace World

/-- No handle was moved, and no context heard that one was. -/
structure Still (w w' : World) : Prop where
  cursor : ∀ i, (w'.handle i).cursor = (w.handle i).cursor
  unheard : ∃ events, w'.trace = w.trace ++ events ∧ ∀ context, Event.didChange context ∉ events

/-- All that decides where a refresh takes a handle is as it was: the handle, the history of its file
and the main rotation, with the same queries at the same versions. -/
structure SameFooting (c : CoordinatorId) (h : HandleId) (f : FileId) (w w' : World) : Prop where
  cursor : (w'.handle h).cursor = (w.handle h).cursor
  coordinator : (w'.handle h).coordinator = (w.handle h).coordinator
  commits : (w'.file f).commits = (w.file f).commits
  main : (w'.coordinator c).queries = (w.coordinator c).queries
  versions : ∀ q ∈ (w.coordinator c).queries, (w'.query q).version = (w.query q).version

end World

namespace Action

variable {w w' : World} {h : HandleId} {f : FileId} {v : Version} {c : CoordinatorId}

/-- A refresh moves nothing if there is no way, or none to go. -/
theorem quietly_refresh_still (hcursor : (w.handle h).cursor = some ⟨f, some v⟩)
    (hcoordinator : (w.handle h).coordinator = some c) (hlatest : v ≤ (w.file f).latest)
    (hstill : w.HasWay f v (w.landing c f v) → w.landing c f v = v) :
    w.Still ((refresh h).quietly w).1 := by
  have hlanded := landed_refresh hcursor hcoordinator hlatest
  generalize (refresh h).quietly w = result at hlanded
  have hcursors : ∀ {events w'}, Serves h events w w' → (w'.handle h).cursor = some ⟨f, some v⟩ →
      ∀ i, (w'.handle i).cursor = (w.handle i).cursor := by
    intro events w' hserves hcursor' i
    by_cases hi : i = h
    · rw [hi, hcursor', hcursor]
    · rw [hserves.others i hi]
  cases hlanded with
  | landed w' answers hway hcursor' hqueries hserves =>
    rw [hstill hway, if_pos rfl, List.append_nil] at hserves
    rw [hstill hway] at hcursor'
    refine ⟨hcursors hserves hcursor', _, hserves.trace, fun context hmem => ?_⟩
    -- all that happened is that queries were asked and called back
    rcases List.mem_append.mp hmem with hmem | hmem
    · obtain ⟨a, -, ha⟩ := List.mem_map.mp hmem
      cases ha
    · obtain ⟨q, -, hq⟩ := List.mem_map.mp hmem
      cases hq
  | stayed w' failure hway hcursor' hserves =>
    exact ⟨hcursors hserves hcursor', [], hserves.trace, fun context hmem => nomatch hmem⟩

/-- **Another refresh** moves nothing. -/
theorem quietly_refresh_again (hcursor : (w.handle h).cursor = some ⟨f, some v⟩)
    (hcoordinator : (w.handle h).coordinator = some c) (hlatest : v ≤ (w.file f).latest)
    (hfooting : ((refresh h).quietly w).1.SameFooting c h f w') :
    w'.Still ((refresh h).quietly w').1 := by
  have hlanded := landed_refresh hcursor hcoordinator hlatest
  generalize (refresh h).quietly w = result at hlanded hfooting
  have hdecides : ∀ {events w₁}, Serves h events w w₁ → w₁.SameFooting c h f w' →
      w'.ready? c = w.ready? c ∧ (w'.file f).commits = (w.file f).commits ∧
      (w'.handle h).coordinator = some c ∧ (w'.file f).latest = (w.file f).latest := by
    intro events w₁ hserves hfooting
    have hcommits := hfooting.commits.trans (hserves.commits f)
    exact ⟨(World.ready?_congr hfooting.main hfooting.versions).trans (hserves.ready? c), hcommits,
      hfooting.coordinator.trans (hserves.coordinator.trans hcoordinator),
      by rw [File.latest, File.latest, hcommits]⟩
  cases hlanded with
  | landed w₁ answers hway hcursor₁ hqueries hserves =>
    obtain ⟨hready, hcommits, hcoordinator', hlatest'⟩ := hdecides hserves hfooting
    refine quietly_refresh_still (hfooting.cursor.trans hcursor₁) hcoordinator'
      (by rw [hlatest']; exact hway.1) fun _ => ?_
    rw [World.landing_congr hready hcommits, World.landing_landing]
  | stayed w₁ failure hway hcursor₁ hserves =>
    obtain ⟨hready, hcommits, hcoordinator', hlatest'⟩ := hdecides hserves hfooting
    refine quietly_refresh_still (hfooting.cursor.trans hcursor₁) hcoordinator'
      (by rw [hlatest']; exact hlatest) fun hway' => ?_
    rw [World.landing_congr hready hcommits, World.hasWay_congr hcommits] at hway'
    exact absurd hway' hway

end Action

/-! ## Whatever went on before -/

/-- **A refresh lands where the results are.** Whatever went on in a process, let `ready` be the
earliest version that a query in main rotation of an open handle's coordinator has set. A refresh of
the handle takes it there unless it is past it, or to the latest version if there is none; it fails,
and then nothing happens, just if there is no such version or the guard refuses the logs on the way.
Every query in main rotation is asked to deliver if the handle landed on that version, or if a failure
is captured, the callbacks that are due follow, and the context hears of it just if the handle moved.
No other handle is touched, and another refresh moves nothing as long as nothing is committed and the
main rotation is left as it is. -/
theorem refresh_lands {sections : List Section} {h : HandleId}
    (hopen : ((Moment.start.after sections).world.handle h).isOpen) :
    let w := (Moment.start.after sections).world
    let result := (Action.refresh h).quietly w
    ∃ f v c ready, (w.handle h).cursor = some ⟨f, some v⟩ ∧ (w.handle h).coordinator = some c ∧
      w.ReadyAt c ready ∧
      let s := w.coordinator c
      let landing := ready.elim (w.file f).latest fun target => if v < target then target else v
      (result.2 = .ok () ↔ landing ≤ (w.file f).latest ∧
        SchemaGuard.allows ((w.file f).logsBetween v landing).flatten) ∧
      (result.2 = .ok () → (result.1.handle h).cursor = some ⟨f, some landing⟩ ∧ v ≤ landing ∧
        ∃ answers : List (QueryId × Bool),
          answers.map Prod.fst =
            (if ready.isSome ∧ (ready = some landing ∨ s.asyncError.isSome) then s.queries else []) ∧
          result.1.trace = w.trace ++
            (answers.map fun a => .deliver a.1 h landing s.asyncError a.2) ++
            ((answers.filter (·.2)).map fun a => .callbacks a.1) ++
            if v < landing then (w.handle h).context.toList.map .didChange else []) ∧
      (result.2 ≠ .ok () → (result.1.handle h).cursor = some ⟨f, some v⟩ ∧
        result.1.trace = w.trace) ∧
      (∀ i ≠ h, result.1.handle i = w.handle i) ∧
      ∀ w', result.1.SameFooting c h f w' → w'.Still ((Action.refresh h).quietly w').1 := by
  intro w result
  cases Moment.sound_after sections h with
  | closed hcursor hcoordinator =>
    rw [Handle.isOpen, hcursor] at hopen
    cases hopen
  | reads f v c hcursor hcoordinator hconfig hlatest =>
    have hlanded := Action.landed_refresh hcursor hcoordinator hlatest
    have hagain : ∀ w', result.1.SameFooting c h f w' →
        w'.Still ((Action.refresh h).quietly w').1 := fun _ hfooting =>
      Action.quietly_refresh_again hcursor hcoordinator hlatest hfooting
    have hle : v ≤ w.landing c f v := World.le_landing hlatest
    -- what the statement spells out
    have hlanding : (w.ready? c).elim (w.file f).latest (fun target => if v < target then target
        else v) = w.landing c f v := by
      unfold World.landing
      cases w.ready? c <;> rfl
    have haddressees : (if (w.ready? c).isSome ∧ (w.ready? c = some (w.landing c f v) ∨
        (w.coordinator c).asyncError.isSome) then (w.coordinator c).queries else []) =
        w.addressees c (w.landing c f v) := by
      unfold World.addressees
      cases w.ready? c with
      | none => exact if_neg fun h => nomatch h.1
      | some target => simp only [Option.isSome_some, true_and, Option.some_inj, @eq_comm _ target]
    have hmoved : ∀ events : List Event, (if v < w.landing c f v then events else []) =
        if v = w.landing c f v then [] else events := by
      intro events
      by_cases heq : v = w.landing c f v
      · rw [if_pos heq, if_neg (Version.not_lt_of_le (heq ▸ Version.le_refl v))]
      · rw [if_neg heq, if_pos (Version.not_le.mp fun hge => heq (Version.le_antisymm hle hge))]
    refine ⟨f, v, c, w.ready? c, hcursor, hcoordinator, w.readyAt c, ?_⟩
    dsimp only
    rw [hlanding, haddressees, hmoved]
    change Landed c h f v _ _ w result at hlanded
    generalize result = result at hlanded hagain
    cases hlanded with
    | landed w' answers hway hcursor' hqueries hserves =>
      refine ⟨⟨fun _ => hway, fun _ => rfl⟩, fun _ => ⟨hcursor', hle, answers, hqueries, ?_⟩,
        fun h => absurd rfl h, hserves.others, hagain⟩
      have hcallbacks : ((answers.filter (·.2)).map fun a => Event.callbacks a.1) =
          (Step.dueOf answers).map .callbacks := by
        rw [Step.dueOf, List.map_map]
        rfl
      rw [hserves.trace, hcallbacks]
      simp only [List.append_assoc]
      rfl
    | stayed w' failure hway hcursor' hserves =>
      refine ⟨⟨nofun, fun h => absurd h hway⟩, nofun, fun _ => ⟨hcursor', ?_⟩,
        hserves.others, hagain⟩
      rw [hserves.trace, List.append_nil]

/-- A query has run at the first version of a file, and then the second one was committed. -/
def ranBefore : List Section :=
  [.chore .makeEngine, .chore .makeRegistry, .chore (.getCoordinator 0 "/a"),
    .chore (.getHandle 0 none (.forFile "/a" 0)), .chore (.setContext 0 (some 0)),
    .chore (.makeQuery (some (.forFile "/a" 0)) [] ⟨1, 0⟩), .register 0 0, .beginCycle 0,
    .startRun .empty 0, .chore (.concludeRun 0), .concludeCycle 0 [0],
    .chore (.commit (.forFile "/a" 0) [])]

/-- The handle stays at the first version, and gets the results. -/
theorem refresh_lands_ranBefore :
    let w := (Moment.start.after ranBefore).world
    let w' := ((Action.refresh 0).quietly w).1
    (w.handle 0).isOpen ∧ (w'.handle 0).cursor = some ⟨⟨0, "/a"⟩, some ⟨1, 0⟩⟩ ∧
      w'.trace = w.trace ++ [.deliver 0 0 ⟨1, 0⟩ none true, .callbacks 0] ∧
      w'.Still ((Action.refresh 0).quietly w').1 := by
  intro w w'
  have hopen : (w.handle 0).isOpen := by decide +kernel
  obtain ⟨f, v, c, ready, hcursor, hcoordinator, -, -, hok, -, -, hagain⟩ := refresh_lands hopen
  refine ⟨hopen, by decide +kernel, by decide +kernel, hagain w' ⟨rfl, rfl, rfl, rfl, ?_⟩⟩
  exact fun _ _ => rfl

/-- A section that neither commits nor runs anything and moves no handle. -/
def Section.isCalm : Section → Bool
  | .chore (.commit ..) | .chore (.moveHandle ..) | .chore (.settle ..) => false
  | .chore (.concludeRun _) | .beginCycle _ | .startRun .. | .concludeCycle .. => false
  | _ => true

/-- Another refresh can move the handle although nothing was committed or run in between. -/
theorem exists_refresh_moving_again :
    ¬ ∀ (sections between : List Section) (h : HandleId), (∀ s ∈ between, s.isCalm) →
      let m := Moment.start.after sections
      let first := (Action.refresh h).quietly m.world
      let w := ({ m with world := first.1 }.after between).world
      first.2 = .ok () →
        (((Action.refresh h).quietly w).1.handle h).version? = (w.handle h).version? := by
  intro hall
  have hstill := hall ranBefore
    [.kill 0, .chore (.makeQuery (some (.forFile "/a" 0)) [] ⟨1, 0⟩), .register 0 1] 0
    (by decide) (by decide +kernel)
  revert hstill
  decide +kernel

end SnapshotCoordination
