import SnapshotCoordination.Proofs.Handles.Refreshing

/-!
# A captured failure is reported

While a failure is captured, whoever collects results is given the failure in their place. Client
code gets control while callbacks are called and may do anything then, so what an action itself asks
of queries and contexts has to be told apart from what the client has others ask.

* **`Run.Asks`** — what a run asks for, however its callbacks are answered;
* **`Action.Takes`** — with that, where an action ends, built up along the action;
* **`captured_failure_reported`** — who is given a captured failure, and who is not.
-/

namespace SnapshotCoordination

/-! ## What a run asks for -/

/-- With `client` answering its callbacks, a run asks for these events from the world `w` on. What
the client does while it has control is not among them. -/
def Run.Asks {α : Type} (client : Callback → World → World) : Run α → World → List Event → Prop
  | .over w' _, w, events => w'.trace = w.trace ++ events
  | .waiting callback w' resume, w, events => ∃ before after, events = before ++ after ∧
      w'.trace = w.trace ++ before ∧
      (resume (client callback w')).Asks client (client callback w') after

namespace Run.Asks

variable {α β : Type} {client : Callback → World → World} {r : Run α} {f : α → World → Run β}
  {w w₁ : World} {events more : List Event}

/-- What was asked for before the run began comes first. -/
theorem after (h : r.Asks client w₁ more) (htrace : w₁.trace = w.trace ++ events) :
    r.Asks client w (events ++ more) := by
  cases r with
  | «over» w' outcome =>
    unfold Asks at h ⊢
    rw [h, htrace, List.append_assoc]
  | waiting callback w' resume =>
    obtain ⟨first, rest, rfl, hfirst, hrest⟩ := h
    exact ⟨events ++ first, rest, by simp, by rw [hfirst, htrace, List.append_assoc], hrest⟩

theorem andThen_ok {a : α} (h : r.Asks client w events) (hfinish : r.finish client = (w₁, .ok a))
    (hnext : (f a w₁).Asks client w₁ more) : (r.andThen f).Asks client w (events ++ more) := by
  induction r generalizing w events with
  | «over» w' outcome =>
    cases hfinish
    exact hnext.after h
  | waiting callback w' resume ih =>
    obtain ⟨first, rest, rfl, hfirst, hrest⟩ := h
    exact ⟨first, rest ++ more, by simp, hfirst, ih _ hrest hfinish⟩

theorem andThen_error {failure : Failure} (h : r.Asks client w events)
    (hfinish : r.finish client = (w₁, .error failure)) :
    (r.andThen f).Asks client w events := by
  induction r generalizing w events with
  | «over» w' outcome =>
    cases hfinish
    exact h
  | waiting callback w' resume ih =>
    obtain ⟨first, rest, rfl, hfirst, hrest⟩ := h
    exact ⟨first, rest, rfl, hfirst, ih _ hrest hfinish⟩

theorem attempt (h : r.Asks client w events) : r.attempt.Asks client w events := by
  induction r generalizing w events with
  | «over» w' outcome => exact h
  | waiting callback w' resume ih =>
    obtain ⟨first, rest, rfl, hfirst, hrest⟩ := h
    exact ⟨first, rest, rfl, hfirst, ih _ hrest⟩

end Run.Asks

/-! ## Where an action ends -/

namespace Action

/-- With `client` answering its callbacks, an action begun in `w` asks for these events and ends in
`w'` with this outcome. -/
structure Takes {α : Type} (client : Callback → World → World) (a : Action α) (w : World)
    (events : List Event) (w' : World) (outcome : Except Failure α) : Prop where
  asks : (a.begin w).Asks client w events
  finish : (a.begin w).finish client = (w', outcome)

variable {α β : Type} {client : Callback → World → World} {a : Action α} {g : α → Action β}
  {w w₁ w' : World} {events more : List Event} {outcome : Except Failure β}

theorem takes_step {s : Step β} (hrun : s.run w = (w', outcome))
    (htrace : w'.trace = w.trace ++ events) : Takes client (ofStep s) w events w' outcome := by
  obtain ⟨rfl, rfl⟩ := Prod.mk.inj hrun
  exact ⟨htrace, rfl⟩

theorem takes_callOut (callback : Callback) (w : World) :
    Takes client (callOut callback) w [] (client callback w) (.ok ()) :=
  ⟨⟨[], [], rfl, (List.append_nil _).symm, (List.append_nil _).symm⟩, rfl⟩

namespace Takes

theorem bind {x : α} (h : Takes client a w events w₁ (.ok x))
    (hnext : Takes client (g x) w₁ more w' outcome) :
    Takes client (a >>= g) w (events ++ more) w' outcome :=
  ⟨h.asks.andThen_ok h.finish hnext.asks, (finish_bind_ok client h.finish).trans hnext.finish⟩

theorem bind_error {failure : Failure} (h : Takes client a w events w' (.error failure)) :
    Takes client (a >>= g) w events w' (.error failure) :=
  ⟨h.asks.andThen_error h.finish, finish_bind_error client h.finish⟩

/-- A step that asks for nothing, before anything else. -/
theorem silently {s : Step α} {x : α} (hrun : s.run w = (w₁, .ok x)) (htrace : w₁.trace = w.trace)
    (hnext : Takes client (g x) w₁ events w' outcome) :
    Takes client (ofStep s >>= g) w events w' outcome := by
  have hfirst : Takes client (ofStep s) w [] w₁ (.ok x) :=
    takes_step hrun (by rw [htrace, List.append_nil])
  exact hfirst.bind hnext

theorem attempt {b : Action β} (h : Takes client b w events w' outcome) :
    Takes client b.attempt w events w' (.ok outcome) := by
  refine ⟨h.asks.attempt, ?_⟩
  have hfinish := Run.finish_attempt client (b.begin w)
  rwa [h.finish] at hfinish

theorem ensuring {b : Action β} {after : World → World} (h : Takes client b w events w' outcome)
    (hafter : (after w').trace = w'.trace) :
    Takes client (b.ensuring after) w events (after w') outcome := by
  have hoverall : Takes client (ofStep (.update after) >>= fun _ => ofStep (.ofExcept outcome)) w' []
      (after w') outcome :=
    .silently (Step.run_update after w') hafter (takes_step rfl (List.append_nil _).symm)
  have hthen := h.attempt.bind (g := fun outcome => do
    ofStep (.update after)
    ofStep (.ofExcept outcome)) hoverall
  rwa [List.append_nil] at hthen

/-- The references that an action on an open handle takes are noticed by nobody. -/
theorem withCoordinator {h : HandleId} {c : CoordinatorId} {act : CoordinatorId → Action β}
    (hopen : (w.handle h).coordinator = some c)
    (hact : Takes client (act c) (w.retainCoordinator c) events w' outcome) :
    Takes client (withCoordinator h act) w events (w'.releaseCoordinator c) outcome := by
  have hfound : (Step.coordinatorOf h).run w = (w.retainCoordinator c, .ok c) := by
    rw [Step.run_coordinatorOf, hopen]
  exact .silently hfound (recounted_retainCoordinator w c).trace
    (hact.ensuring (recounted_releaseCoordinator w' c).trace)

end Takes

/-- The callbacks that are due are called one by one. -/
theorem takes_callbacks (client : Callback → World → World) (due : List QueryId) (w : World) :
    ∃ w', Takes client (due.forM callCallbacks) w (due.map .callbacks) w' (.ok ()) := by
  induction due generalizing w with
  | nil => exact ⟨w, (List.append_nil _).symm, rfl⟩
  | cons q due ih =>
    obtain ⟨w', hrest⟩ := ih (client (.callbacks q) (w.note (.callbacks q)))
    have hcall : Takes client (callCallbacks q) w [.callbacks q] _ (.ok ()) :=
      (takes_step (s := Step.note (.callbacks q)) rfl rfl).bind (takes_callOut _ _)
    exact ⟨w', hcall.bind hrest⟩

/-- A context hears that its handle moved, and nobody else hears anything. -/
theorem takes_tellMoved (client : Callback → World → World) (h : HandleId) (w : World) :
    ∃ w', Takes client (tellMoved h) w (heard w h) w' (.ok ()) := by
  have hwhom : ∃ w', Takes client (tellContext (w.handle h).context) w (heard w h) w' (.ok ()) := by
    unfold heard
    cases (w.handle h).context with
    | none => exact ⟨w, (List.append_nil _).symm, rfl⟩
    | some context =>
      exact ⟨_, (takes_step (s := Step.note (.didChange context)) rfl rfl).bind
        (takes_callOut _ _)⟩
  obtain ⟨w', htakes⟩ := hwhom
  exact ⟨w', .silently (Step.run_world w) rfl htakes⟩

/-! ## Collecting results -/

variable {h : HandleId} {c : CoordinatorId} {f : FileId} {v : Version}

/-- What a refresh asks for: queries are asked to deliver and callbacks are called, and last a
context hears that the handle moved. A refresh that fails asks for nothing. -/
theorem takes_refresh (client : Callback → World → World)
    (hcursor : (w.handle h).cursor = some ⟨f, some v⟩)
    (hcoordinator : (w.handle h).coordinator = some c) (hlatest : v ≤ (w.file f).latest) :
    (∃ w' answers told, answers.map Prod.fst = w.addressees c (w.landing c f v) ∧
      (∀ e ∈ told, ∃ context, e = .didChange context) ∧
      Takes client (refresh h) w
        (Step.delivered h (w.landing c f v) (w.coordinator c).asyncError answers ++
          ((Step.dueOf answers).map .callbacks ++ told)) w' (.ok ())) ∨
    ∃ w' failure, Takes client (refresh h) w [] w' (.error failure) := by
  -- all that is done before the queries are asked leaves what they are asked for as it is
  let w₀ := w.retainCoordinator c
  let w₁ := w₀.onHandle h fun x => { x with pending := false }
  have hclear : Serves h [] w w₁ :=
    (Serves.of_recounted (recounted_retainCoordinator w c)).trans (.onHandle w₀ rfl rfl)
  have hcursor₁ : (w₁.handle h).cursor = some ⟨f, some v⟩ := by
    rw [World.handle_onHandle_self]
    exact hcursor
  have htrace : w₁.trace = w.trace := hclear.trace.trans (List.append_nil _)
  have hsettle := Landed.before hclear (Step.landed_settle (w := w₁) c hcursor₁ hlatest)
  rw [hclear.landing, hclear.asyncError] at hsettle
  have hthrough : ∀ {events w' outcome}, Takes client (refreshThrough h c) w₀ events w' outcome →
      Takes client (refresh h) w events (w'.releaseCoordinator c) outcome :=
    fun hthrough => .withCoordinator hcoordinator hthrough
  have hbegin : ∀ {events w' outcome}, Takes client
      (advanceToReady c h >>= fun moved => if moved then tellMoved h else pure ()) w₁ events w'
        outcome → Takes client (refreshThrough h c) w₀ events w' outcome :=
    fun hnext => .silently (Step.run_update _ w₀) rfl hnext
  generalize hrun : (Step.settle c h).run w₁ = result at hsettle
  cases hsettle with
  | landed w₂ answers hway hlands hqueries hserves =>
    left
    have hsettled : Takes client (ofStep (Step.settle c h)) w₁ _ w₂ _ :=
      takes_step hrun (by rw [hserves.trace, htrace])
    obtain ⟨w₃, hcallbacks⟩ := takes_callbacks client (Step.dueOf answers) w₂
    have hover : Takes client (pure (v != w.landing c f v) : Action Bool) w₃ [] w₃ (.ok _) :=
      ⟨(List.append_nil _).symm, rfl⟩
    have hadvance : Takes client (advanceToReady c h) w₁ _ w₃ _ :=
      hsettled.bind (hcallbacks.bind hover)
    have htold : ∃ w' told, (∀ e ∈ told, ∃ context, e = Event.didChange context) ∧
        Takes client (if v != w.landing c f v then tellMoved h else pure ()) w₃ told w' (.ok ()) := by
      cases v != w.landing c f v with
      | true =>
        obtain ⟨w', htells⟩ := takes_tellMoved client h w₃
        refine ⟨w', heard w₃ h, fun e he => ?_, htells⟩
        obtain ⟨context, -, rfl⟩ := List.mem_map.mp he
        exact ⟨context, rfl⟩
      | false => exact ⟨w₃, [], nofun, (List.append_nil _).symm, rfl⟩
    obtain ⟨w', told, htold, htells⟩ := htold
    have hall := hthrough (hbegin (hadvance.bind htells))
    rw [List.append_nil, List.append_assoc] at hall
    exact ⟨_, answers, told, hqueries, htold, hall⟩
  | stayed w₂ failure hway hstays hserves =>
    right
    have hsettled : Takes client (ofStep (Step.settle c h)) w₁ [] w₂ (.error failure) :=
      takes_step hrun (by rw [hserves.trace, htrace])
    have hadvance : Takes client (advanceToReady c h) w₁ [] w₂ (.error failure) :=
      hsettled.bind_error
    exact ⟨_, failure, hthrough (hbegin hadvance.bind_error)⟩

/-- Collecting results asks every query in main rotation to deliver at the version of the handle. -/
theorem takes_deliverAvailable (client : Callback → World → World)
    (hcursor : (w.handle h).cursor = some ⟨f, some v⟩)
    (hcoordinator : (w.handle h).coordinator = some c) :
    ∃ w' answers, answers.map Prod.fst = (w.coordinator c).queries ∧
      Takes client (deliverAvailable h) w
        (Step.delivered h v (w.coordinator c).asyncError answers ++
          (Step.dueOf answers).map .callbacks) w' (.ok ()) := by
  let w₁ := w.retainCoordinator c
  have hretained := recounted_retainCoordinator w c
  have hbackground := hretained.background c
  have hmain : (w₁.coordinator c).queries = (w.coordinator c).queries :=
    congrArg Background.queries hbackground
  have hfailure : (w₁.coordinator c).asyncError = (w.coordinator c).asyncError :=
    congrArg Background.asyncError hbackground
  have hversion : (w₁.handle h).version? = some v := by
    rw [Handle.version?, hretained.handle, hcursor]
    rfl
  obtain ⟨w₂, answers, hrun, hqueries, hserves, -⟩ := Step.run_deliverAll h v
    (w₁.coordinator c).asyncError (w₁.coordinator c).queries w₁
  have hhere : (Step.deliverHere c h).run w₁ = (w₂, .ok (Step.dueOf answers)) := by
    unfold Step.deliverHere
    rw [Step.run_bind_ok (Step.run_world w₁)]
    dsimp only
    rw [hversion]
    exact hrun
  obtain ⟨w₃, hcallbacks⟩ := takes_callbacks client (Step.dueOf answers) w₂
  have hdelivered : Takes client (ofStep (Step.deliverHere c h)) w₁ _ w₂ _ :=
    takes_step hhere hserves.trace
  rw [hfailure] at hdelivered
  exact ⟨_, answers, by rw [hqueries, hmain],
    .withCoordinator hcoordinator (hdelivered.bind hcallbacks)⟩

end Action

/-- With a failure captured, every query in main rotation is asked, wherever the handle landed, as
long as one of them has set a version. -/
theorem World.addressees_of_failed {w : World} {c : CoordinatorId} {failure : Failure}
    (hfailed : (w.coordinator c).asyncError = some failure) (version : Version) :
    w.addressees c version =
      if ∃ q ∈ (w.coordinator c).queries, (w.query q).version.isUnset = false then
        (w.coordinator c).queries else [] := by
  have hready := w.readyAt c
  unfold World.addressees
  cases hversion : w.ready? c with
  | none =>
    rw [hversion] at hready
    refine (if_neg fun hset => ?_).symm
    obtain ⟨q, hq, hset⟩ := hset
    rw [hready q hq] at hset
    cases hset
  | some target =>
    rw [hversion] at hready
    obtain ⟨⟨q, hq, hset⟩, -⟩ := hready
    rw [if_pos ⟨q, hq, by rw [hset.1]; exact hset.2⟩]
    exact if_pos (.inr (by rw [hfailed]; rfl))

/-- **Who is given a captured failure.** Whatever went on in a process, let a failure be captured by
the coordinator of an open handle. Whatever the client does when it has control, a call that collects
results gives the failure to every query in main rotation, as often as it is listed there, and calls
the callbacks of exactly those that answer so. A refresh does the same, whatever versions the queries
have and wherever the handle goes, as long as one query in main rotation has set a version; if none
has, it gives the failure to nobody. -/
theorem captured_failure_reported {sections : List Section} {h : HandleId} {c : CoordinatorId}
    {failure : Failure}
    (hopen : ((Moment.start.after sections).world.handle h).coordinator = some c)
    (hfailed : ((Moment.start.after sections).world.coordinator c).asyncError = some failure)
    (client : Callback → World → World) :
    let w := (Moment.start.after sections).world
    let s := w.coordinator c
    let refresh := (Action.refresh h).begin w
    let collect := (Action.deliverAvailable h).begin w
    ((refresh.finish client).2 = .ok () → ∃ version told, ∃ answers : List (QueryId × Bool),
      answers.map Prod.fst =
        (if ∃ q ∈ s.queries, (w.query q).version.isUnset = false then s.queries else []) ∧
      (∀ e ∈ told, ∃ context, e = .didChange context) ∧
      refresh.Asks client w ((answers.map fun a => .deliver a.1 h version (some failure) a.2) ++
        ((answers.filter (·.2)).map fun a => .callbacks a.1) ++ told)) ∧
    ((refresh.finish client).2 ≠ .ok () → refresh.Asks client w []) ∧
    (collect.finish client).2 = .ok () ∧
    ∃ version, ∃ answers : List (QueryId × Bool), (w.handle h).version? = some version ∧
      answers.map Prod.fst = s.queries ∧
      collect.Asks client w ((answers.map fun a => .deliver a.1 h version (some failure) a.2) ++
        (answers.filter (·.2)).map fun a => .callbacks a.1) := by
  intro w s refresh collect
  cases Moment.sound_after sections h with
  | closed hcursor hcoordinator =>
    rw [hcoordinator] at hopen
    cases hopen
  | reads f v d hcursor hcoordinator hconfig hlatest =>
    obtain rfl : d = c := Option.some.inj (hcoordinator.symm.trans hopen)
    have hdue : ∀ answers : List (QueryId × Bool),
        (answers.filter (·.2)).map (fun a => Event.callbacks a.1) =
          (Step.dueOf answers).map .callbacks := by
      intro answers
      simp [Step.dueOf]
    obtain ⟨w', answers, hqueries, hcollect⟩ :=
      Action.takes_deliverAvailable client hcursor hcoordinator
    rw [hfailed] at hcollect
    refine ⟨fun hok => ?_, fun hnot => ?_, congrArg Prod.snd hcollect.finish, v, answers, ?_,
      hqueries, by rw [hdue]; exact hcollect.asks⟩
    · rcases Action.takes_refresh client hcursor hcoordinator hlatest with
        ⟨w', answers, told, hasked, htold, htakes⟩ | ⟨w', failure', htakes⟩
      · rw [hfailed] at htakes
        rw [World.addressees_of_failed hfailed] at hasked
        exact ⟨_, told, answers, hasked, htold, by rw [hdue, List.append_assoc]; exact htakes.asks⟩
      · have hfinish := congrArg Prod.snd htakes.finish
        change (refresh.finish client).2 = _ at hfinish
        rw [hok] at hfinish
        cases hfinish
    · rcases Action.takes_refresh client hcursor hcoordinator hlatest with
        ⟨w', answers, told, -, -, htakes⟩ | ⟨w', failure', htakes⟩
      · exact absurd (congrArg Prod.snd htakes.finish) hnot
      · exact htakes.asks
    · rw [Handle.version?, hcursor]
      rfl

/-- No cursor can be opened any more, and then queries are registered at these versions. The failure
is captured, and a cycle takes the queries over into main rotation. -/
def failedPins (versions : List Version) : List Section :=
  [.chore .makeEngine, .chore .makeRegistry, .chore (.getCoordinator 0 "/a"),
    .chore (.getHandle 0 none (.forFile "/a" 0)), .chore (.setFaults 0 true false)] ++
  (versions.mapIdx fun q version =>
    [.chore (.makeQuery (some (.forFile "/a" 0)) [] version), .register 0 q]).flatten ++
  [.beginCycle 0]

/-- The failure that is captured then. -/
def failedPin : Failure :=
  .asyncOpen "/a" (Failure.storage (.tooManyOpenFiles "/a")).message

/-- If one of two queries has set a version, a refresh gives the failure to both. -/
theorem captured_failure_reported_oneSet :
    let w := (Moment.start.after (failedPins [.unset, ⟨1, 0⟩])).world
    (w.handle 0).coordinator = some 0 ∧ (w.coordinator 0).asyncError = some failedPin ∧
      ((Action.refresh 0).quietly w).1.trace = w.trace ++ [
        .deliver 0 0 ⟨1, 0⟩ (some failedPin) true, .deliver 1 0 ⟨1, 0⟩ (some failedPin) true,
        .callbacks 0, .callbacks 1] ∧
      ∃ answers : List (QueryId × Bool), answers.map Prod.fst = [0, 1] ∧
        ((Action.deliverAvailable 0).begin w).Asks (fun _ w => w) w
          ((answers.map fun a => .deliver a.1 0 ⟨1, 0⟩ (some failedPin) a.2) ++
            (answers.filter (·.2)).map fun a => .callbacks a.1) := by
  intro w
  have hopen : (w.handle 0).coordinator = some 0 := by decide +kernel
  have hfailed : (w.coordinator 0).asyncError = some failedPin := by decide +kernel
  have hmain : (w.coordinator 0).queries = [0, 1] := by decide +kernel
  have hversion : (w.handle 0).version? = some ⟨1, 0⟩ := by decide +kernel
  obtain ⟨-, -, -, version, answers, hversion', hqueries, hasks⟩ :=
    captured_failure_reported hopen hfailed fun _ w => w
  obtain rfl : ⟨1, 0⟩ = version := Option.some.inj (hversion.symm.trans hversion')
  exact ⟨hopen, hfailed, by decide +kernel, answers, hqueries.trans hmain, hasks⟩

/-- A refresh of an open handle can succeed without giving a captured failure to a query in main
rotation. -/
theorem exists_unreported_failure :
    ¬ ∀ (sections : List Section) (h : HandleId) (c : CoordinatorId) (failure : Failure),
      let w := (Moment.start.after sections).world
      let result := (Action.refresh h).quietly w
      (w.handle h).coordinator = some c → (w.coordinator c).asyncError = some failure →
      result.2 = .ok () → ∀ q ∈ (w.coordinator c).queries, ∃ version due,
        .deliver q h version (some failure) due ∈ result.1.trace := by
  intro hall
  have hmain : 0 ∈ ((Moment.start.after (failedPins [.unset])).world.coordinator 0).queries := by
    decide +kernel
  obtain ⟨version, due, hmem⟩ := hall (failedPins [.unset]) 0 0 failedPin (by decide +kernel)
    (by decide +kernel) (by decide +kernel) 0 hmain
  have htrace : ((Action.refresh 0).quietly
      (Moment.start.after (failedPins [.unset])).world).1.trace = [] := by decide +kernel
  rw [htrace] at hmem
  cases hmem

end SnapshotCoordination
