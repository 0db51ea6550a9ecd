import SnapshotCoordination.Coordination.HandleActions
import SnapshotCoordination.Proofs.Coordination.Events

/-!
# Runs are rows of sections

An action is split by its callbacks into stretches that run undisturbed, and every such stretch is a
row of sections. What a callback does is a row of sections as well, for all it can do is to carry
out actions, whose callbacks do the same.

* **`Run.Sectioned`** — every stretch of a run is a row of sections, if every callback is; where it
  has callbacks called, a delivery has said that they are due;
* **`Run.Sectioned.finish`**, **`finish_due`** — then so is the whole run;
* **`Action.sectioned_onChange`**, **`sectioned_sendNotifications`**, **`sectioned_commit`**,
  **`sectioned_refresh`**, **`sectioned_deliverAvailable`**, **`sectioned_registerQuery`**,
  **`sectioned_openFile`** — this is so of all that client code can ask for.
-/

namespace SnapshotCoordination

/-! ## What sections come to -/

/-- A row of sections leads from one moment to the other. -/
def Moment.Precedes (m m' : Moment) : Prop :=
  ∃ sections, m.Follows Moment.Allows sections ∧ m.after sections = m'

/-- A row of sections that calls only callbacks that are due leads from one moment to the other. -/
def Moment.Makes (m m' : Moment) : Prop :=
  ∃ sections, m.Follows Moment.AllowsDue sections ∧ m.after sections = m'

namespace Moment

variable {m m' m'' : Moment}

/-- A row of sections, and another where it has led, are a row, whatever rule they follow. -/
theorem rows_trans {allowed : Moment → Section → Prop}
    (h : ∃ sections, m.Follows allowed sections ∧ m.after sections = m')
    (h' : ∃ sections, m'.Follows allowed sections ∧ m'.after sections = m'') :
    ∃ sections, m.Follows allowed sections ∧ m.after sections = m'' := by
  obtain ⟨sections, hfollows, rfl⟩ := h
  obtain ⟨more, hmore, rfl⟩ := h'
  exact ⟨sections ++ more, hfollows.append hmore, m.after_append sections more⟩

namespace Precedes

theorem refl (m : Moment) : m.Precedes m := ⟨[], trivial, rfl⟩

theorem trans (h : m.Precedes m') (h' : m'.Precedes m'') : m.Precedes m'' := rows_trans h h'

theorem begun (h : m.Precedes m') : m.begun ⊆ m'.begun := by
  obtain ⟨sections, hfollows, rfl⟩ := h
  exact hfollows.preserves (I := fun m' => m.begun ⊆ m'.begun)
    (fun m' s _ hm => List.Subset.trans hm (m'.begun_perform s).subset) (List.Subset.refl _)

/-- What was told is not taken back. -/
theorem trace (h : m.Precedes m') : m.world.trace ⊆ m'.world.trace := by
  obtain ⟨sections, hfollows, rfl⟩ := h
  refine hfollows.preserves (I := fun m' => m.world.trace ⊆ m'.world.trace) (fun m' s _ hm => ?_)
    (List.Subset.refl _)
  rw [m'.trace_perform]
  exact List.Subset.trans hm (List.subset_append_left _ _)

end Precedes

namespace Makes

theorem precedes (h : m.Makes m') : m.Precedes m' := by
  obtain ⟨sections, hfollows, hafter⟩ := h
  exact ⟨sections, hfollows.mono fun _ _ => AllowsDue.allows, hafter⟩

theorem refl (m : Moment) : m.Makes m := ⟨[], trivial, rfl⟩

theorem trans (h : m.Makes m') (h' : m'.Makes m'') : m.Makes m'' := rows_trans h h'

theorem perform {s : Section} (h : m.AllowsDue s) : m.Makes (m.perform s) :=
  ⟨[s], ⟨h, trivial⟩, rfl⟩

/-- A loop of chores is a row of sections. -/
theorem chores {α : Type} (m : Moment) {f : World → α → World} {x : α → Chore}
    (hx : ∀ a (m : Moment), m.AllowsDue (.chore (x a))) (h : ∀ w a, (x a).perform w = f w a)
    (as : List α) : ∃ m', m.Makes m' ∧ m'.world = as.foldl f m.world := by
  induction as generalizing m with
  | nil => exact ⟨m, refl m, rfl⟩
  | cons a as ih =>
    obtain ⟨m', hmakes, hworld⟩ := ih (m.perform (.chore (x a)))
    refine ⟨m', (perform (hx a m)).trans hmakes, ?_⟩
    have hstep : (m.perform (.chore (x a))).world = f m.world a := h m.world a
    rw [hworld, hstep, List.foldl_cons]

end Makes

end Moment

/-! ## Runs -/

/-- A run that starts at a moment performs sections until it waits or is over, and again whenever
it goes on, as long as all that its callbacks do is to perform sections. -/
def Run.Sectioned {α : Type} : Run α → Moment → Prop
  | .over w _, m => ∃ m', m.Makes m' ∧ m'.world = w
  | .waiting _ w resume, m =>
    ∃ m', m.Makes m' ∧ m'.world = w ∧
      ∀ m'', m'.Precedes m'' → (resume m''.world).Sectioned m''

namespace Run.Sectioned

variable {α β : Type} {r : Run α} {m m' : Moment}

theorem of_makes (h : m.Makes m') (hr : r.Sectioned m') : r.Sectioned m := by
  cases r with
  | «over» w outcome =>
    obtain ⟨m₁, h₁, hworld⟩ := hr
    exact ⟨m₁, h.trans h₁, hworld⟩
  | waiting callback w resume =>
    obtain ⟨m₁, h₁, hworld, hresume⟩ := hr
    exact ⟨m₁, h.trans h₁, hworld, hresume⟩

theorem andThen (hr : r.Sectioned m) {f : α → World → Run β}
    (hf : ∀ a m', m.Precedes m' → (f a m'.world).Sectioned m') : (r.andThen f).Sectioned m := by
  induction r generalizing m with
  | «over» w outcome =>
    obtain ⟨m', h, rfl⟩ := hr
    cases outcome with
    | ok a => exact (hf a m' h.precedes).of_makes h
    | error failure => exact ⟨m', h, rfl⟩
  | waiting callback w resume ih =>
    obtain ⟨m', h, rfl, hresume⟩ := hr
    refine ⟨m', h, rfl, fun m'' h' => ?_⟩
    -- the second action begins in whatever moment the callbacks have left
    exact ih m''.world (hresume m'' h') fun a m₃ h₃ => hf a m₃ (h.precedes.trans (h'.trans h₃))

theorem attempt (hr : r.Sectioned m) : r.attempt.Sectioned m := by
  induction r generalizing m with
  | «over» w outcome => exact hr
  | waiting callback w resume ih =>
    obtain ⟨m', h, hworld, hresume⟩ := hr
    exact ⟨m', h, hworld, fun m'' h' => ih m''.world (hresume m'' h')⟩

/-- What sections lead to, and the callbacks, a whole run leads to, if it can be put together. -/
theorem finish_of {R : Moment → Moment → Prop} (hr : r.Sectioned m)
    (hmakes : ∀ {m m'}, m.Makes m' → R m m') (hprecedes : ∀ {m m'}, R m m' → m.Precedes m')
    (htrans : ∀ {m m' m''}, R m m' → R m' m'' → R m m'') {client : Callback → World → World}
    (hclient : ∀ callback (m : Moment), ∃ m', R m m' ∧ m'.world = client callback m.world) :
    ∃ m', R m m' ∧ m'.world = (r.finish client).1 := by
  induction r generalizing m with
  | «over» w outcome =>
    obtain ⟨m', h, hworld⟩ := hr
    exact ⟨m', hmakes h, hworld⟩
  | waiting callback w resume ih =>
    obtain ⟨m', h, rfl, hresume⟩ := hr
    obtain ⟨m'', h', hworld⟩ := hclient callback m'
    -- the run goes on in whatever moment the callback has left
    obtain ⟨m₃, h₃, hfinish⟩ := ih m''.world (hresume m'' (hprecedes h'))
    refine ⟨m₃, htrans (hmakes h) (htrans h' h₃), ?_⟩
    rw [hfinish, hworld]
    rfl

/-- **A whole run is a row of sections**, if all that its callbacks do is. -/
theorem finish (hr : r.Sectioned m) {client : Callback → World → World}
    (hclient : ∀ callback (m : Moment), ∃ m', m.Precedes m' ∧ m'.world = client callback m.world) :
    ∃ m', m.Precedes m' ∧ m'.world = (r.finish client).1 :=
  hr.finish_of Moment.Makes.precedes id Moment.Precedes.trans hclient

/-- **Only callbacks that are due are called** in a whole run, if that is so of its callbacks. -/
theorem finish_due (hr : r.Sectioned m) {client : Callback → World → World}
    (hclient : ∀ callback (m : Moment), ∃ m', m.Makes m' ∧ m'.world = client callback m.world) :
    ∃ m', m.Makes m' ∧ m'.world = (r.finish client).1 :=
  hr.finish_of id Moment.Makes.precedes Moment.Makes.trans hclient

end Run.Sectioned

/-! ## Actions -/

namespace Action

variable {α β : Type}

/-- The action makes a row of sections of what is between its callbacks, if it starts now. -/
def Sectioned (a : Action α) (m : Moment) : Prop := (a.begin m.world).Sectioned m

theorem sectioned_ofStep {s : Step α} {m m' : Moment} (h : m.Makes m')
    (hworld : m'.world = (s.run m.world).1) : (ofStep s).Sectioned m := ⟨m', h, hworld⟩

theorem sectioned_pure (a : α) (m : Moment) : (pure a : Action α).Sectioned m := ⟨m, .refl m, rfl⟩

theorem sectioned_callOut (callback : Callback) (m : Moment) : (callOut callback).Sectioned m :=
  ⟨m, .refl m, rfl, fun m' _ => ⟨m', .refl m', rfl⟩⟩

namespace Sectioned

theorem bind {a : Action α} {f : α → Action β} {m : Moment} (ha : a.Sectioned m)
    (hf : ∀ x m', m.Precedes m' → (f x).Sectioned m') : (a >>= f).Sectioned m :=
  Run.Sectioned.andThen ha hf

/-- A step first, which comes to some sections. -/
theorem step {s : Step α} {f : α → Action β} {m m' : Moment} (h : m.Makes m')
    (hworld : m'.world = (s.run m.world).1)
    (hf : ∀ a, (s.run m.world).2 = .ok a → (f a).Sectioned m') : (ofStep s >>= f).Sectioned m := by
  have hrest : Run.Sectioned ((Run.over (s.run m.world).1 (s.run m.world).2).andThen f) m' := by
    rw [← hworld]
    cases hs : (s.run m.world).2 with
    | ok a => exact hf a hs
    | error failure => exact ⟨m', .refl m', rfl⟩
  exact hrest.of_makes h

theorem chore {s : Step α} {f : α → Action β} {m : Moment} (x : Chore)
    (hallowed : m.AllowsDue (.chore x)) (hx : x.perform m.world = (s.run m.world).1)
    (hf : ∀ a m', m.Precedes m' → (f a).Sectioned m') : (ofStep s >>= f).Sectioned m :=
  step (.perform hallowed) hx fun a _ => hf a _ (Moment.Makes.perform hallowed).precedes

theorem chores {γ : Type} {f : Unit → Action β} {g : World → γ → World} {m : Moment}
    (x : γ → Chore) (hallowed : ∀ c (m : Moment), m.AllowsDue (.chore (x c)))
    (hx : ∀ w c, (x c).perform w = g w c) (cs : List γ)
    (hf : ∀ m', m.Precedes m' → (f ()).Sectioned m') :
    (ofStep (.update (cs.foldl g ·)) >>= f).Sectioned m := by
  obtain ⟨m', h, hworld⟩ := Moment.Makes.chores m hallowed hx cs
  exact step h hworld fun _ _ => hf m' h.precedes

theorem attempt {a : Action α} {m : Moment} (ha : a.Sectioned m) : a.attempt.Sectioned m :=
  Run.Sectioned.attempt ha

theorem forM {f : β → Action Unit} {bs : List β} {m : Moment}
    (hf : ∀ b ∈ bs, ∀ m', m.Precedes m' → (f b).Sectioned m') : (bs.forM f).Sectioned m := by
  induction bs generalizing m with
  | nil => exact sectioned_pure () m
  | cons b bs ih =>
    refine (hf b List.mem_cons_self m (.refl m)).bind fun _ m' h => ih fun b' hb' m'' h' => ?_
    exact hf b' (List.mem_cons_of_mem b hb') m'' (h.trans h')

/-- What has to be done in any case is a chore. -/
theorem ensuring {a : Action α} {m : Moment} (ha : a.Sectioned m) {after : World → World}
    (x : Chore) (hallowed : ∀ m : Moment, m.AllowsDue (.chore x))
    (hx : ∀ w, x.perform w = after w) : (a.ensuring after).Sectioned m :=
  ha.attempt.bind fun _ m' _ => chore x (hallowed m') (hx m'.world) fun _ m'' _ =>
    sectioned_ofStep (.refl m'') rfl

end Sectioned

/-! ### Change cycles -/

theorem sectioned_runQuery {changes : Changes} {q : QueryId} {m : Moment}
    (h : m.AllowsDue (.startRun changes q)) : (runQuery changes q).Sectioned m :=
  .step (.perform h) rfl fun _ _ => (sectioned_callOut _ _).bind fun _ _ _ =>
    sectioned_ofStep (.perform (s := .chore (.concludeRun q)) trivial) rfl

/-- Callbacks may be called once a delivery has said that they are due. -/
theorem sectioned_callCallbacks {q : QueryId} {m : Moment}
    (hdue : ∃ e ∈ m.world.trace, e.due? = some q) : (callCallbacks q).Sectioned m :=
  .chore (.tellCallbacks q) hdue rfl fun _ m' _ => sectioned_callOut _ m'

/-- Every run of a cycle, and its end, find it begun: callbacks do not take that back. -/
theorem sectioned_runCycle (c : CoordinatorId) (m : Moment) : (runCycle c).Sectioned m := by
  have hallowed : m.AllowsDue (.beginCycle c) := trivial
  have hworld : (m.perform (.beginCycle c)).world = ((Step.beginCycle c).run m.world).1 :=
    Moment.world_beginCycle rfl
  refine .step (s := Step.beginCycle c) (.perform hallowed) hworld fun begun hbegun => ?_
  cases begun with
  | none => exact sectioned_pure () _
  | some cycle =>
    have hmem : (c, cycle) ∈ (m.perform (.beginCycle c)).begun := by
      dsimp only [Moment.perform]
      rcases hrun : (Step.beginCycle c).run m.world with ⟨w, outcome⟩
      obtain rfl : outcome = .ok (some cycle) := by rw [hrun] at hbegun; exact hbegun
      exact List.mem_append_right _ List.mem_cons_self
    refine Sectioned.bind (.forM fun q hq m' h => ?_) fun _ m' h => ?_
    · exact sectioned_runQuery ⟨_, h.begun hmem, rfl, hq⟩
    · have hend : m'.AllowsDue (.concludeCycle c cycle.queries) := ⟨_, h.begun hmem, rfl, rfl⟩
      exact sectioned_ofStep (.perform hend) rfl

theorem sectioned_notifyHandle (h : HandleId) (m : Moment) : (notifyHandle h).Sectioned m := by
  refine .chore (.setPending h true) trivial rfl fun _ m' _ => ?_
  refine .step (.refl m') rfl fun w _ => ?_
  cases (w.handle h).context with
  | none => exact sectioned_pure () m'
  | some context => exact .chore (.tellAvailable context) trivial rfl fun _ m'' _ => sectioned_callOut _ m''

theorem sectioned_onChange (c : CoordinatorId) (m : Moment) : (onChange c).Sectioned m := by
  refine (sectioned_runCycle c m).attempt.bind fun outcome m₁ _ => ?_
  refine .step (.refl m₁) rfl fun w _ => ?_
  refine .chores .retainHandle (fun _ _ => trivial) (fun _ _ => rfl) (w.liveHandles c) fun m₂ _ => ?_
  refine Sectioned.bind (.forM fun h _ m' _ => sectioned_notifyHandle h m') fun _ m₃ _ => ?_
  refine .chores .releaseHandle (fun _ _ => trivial) (fun _ _ => rfl) (w.liveHandles c) fun m₄ _ => ?_
  exact sectioned_ofStep (.refl m₄) rfl

/-! ### Announcements -/

theorem sectioned_wakeListeners (n : NotifierId) (m : Moment) : (wakeListeners n).Sectioned m := by
  refine .step (.refl m) rfl fun w hw => ?_
  obtain rfl : m.world = w := Except.ok.inj hw
  refine .chore (.sweepListeners (m.world.notifier n).file) trivial rfl fun _ m₁ _ => ?_
  refine .chores .retainCoordinator (fun _ _ => trivial) (fun _ _ => rfl) _ fun m₂ _ => ?_
  refine .forM fun c _ m' _ => ?_
  refine (sectioned_onChange c m').attempt.bind fun _ m'' _ => ?_
  exact sectioned_ofStep (.perform (s := .chore (.releaseCoordinator c)) trivial) rfl

theorem sectioned_sendNotifications (c : CoordinatorId) (m : Moment) :
    (sendNotifications c).Sectioned m := by
  refine .step (.refl m) rfl fun s _ => ?_
  split
  · exact sectioned_ofStep (.refl m) rfl
  · split
    · exact sectioned_pure () m
    · next n _ =>
      refine .chore (.retainNotifier n) trivial rfl fun _ m' _ => ?_
      exact (sectioned_wakeListeners n m').ensuring (.releaseNotifier n) (fun _ => trivial) fun _ => rfl

/-! ### Handles -/

/-- The coordinator of a handle is retained, and released in the end. -/
theorem sectioned_withCoordinator {h : HandleId} {act : CoordinatorId → Action α} {m : Moment}
    (hact : ∀ c, (act c).Sectioned (m.perform (.chore (.retainCoordinator c)))) :
    (withCoordinator h act).Sectioned m := by
  have hrun := Step.run_coordinatorOf h m.world
  cases hcoordinator : (m.world.handle h).coordinator with
  | none =>
    rw [hcoordinator] at hrun
    refine .step (s := Step.coordinatorOf h) (.refl m) (by rw [hrun]) fun c hc => ?_
    rw [hrun] at hc
    cases hc
  | some c =>
    rw [hcoordinator] at hrun
    have hretain : m.AllowsDue (.chore (.retainCoordinator c)) := trivial
    refine .step (s := Step.coordinatorOf h) (.perform hretain) (by rw [hrun]; rfl) fun d hd => ?_
    obtain rfl : c = d := by rw [hrun] at hd; exact Except.ok.inj hd
    exact (hact c).ensuring (.releaseCoordinator c) (fun _ => trivial) fun _ => rfl

theorem sectioned_commit (h : HandleId) (log : Log) (m : Moment) : (commit h log).Sectioned m := by
  refine .step (.refl m) rfl fun w _ => ?_
  dsimp only
  split
  · exact sectioned_ofStep (.refl m) rfl
  · refine sectioned_withCoordinator fun c => ?_
    refine .chore (.commit (w.handle h).config log) trivial rfl fun version m₁ _ => ?_
    refine .chore (.moveHandle h (some version)) trivial rfl fun _ m₂ _ => ?_
    exact (sectioned_sendNotifications c m₂).bind fun _ m₃ _ => sectioned_pure version m₃

theorem sectioned_advanceToReady (c : CoordinatorId) (h : HandleId) (m : Moment) :
    (advanceToReady c h).Sectioned m := by
  have hsettle : m.AllowsDue (.chore (.settle c h)) := trivial
  refine .step (.perform hsettle) rfl fun ⟨moved, due⟩ hsettled => ?_
  refine Sectioned.bind (.forM fun q hq m' hlater => ?_) fun _ m₂ _ => sectioned_pure moved m₂
  obtain ⟨e, he, hdue⟩ := Step.due_settle (Prod.ext rfl hsettled) q hq
  exact sectioned_callCallbacks ⟨e, hlater.trace he, hdue⟩

theorem sectioned_processAvailable (c : CoordinatorId) (h : HandleId) (m : Moment) :
    (processAvailable c h).Sectioned m := by
  have hdeliver : m.AllowsDue (.chore (.deliverHere c h)) := trivial
  refine .step (.perform hdeliver) rfl fun due hdelivered => .forM fun q hq m' hlater => ?_
  obtain ⟨e, he, hdue⟩ := Step.due_deliverHere (Prod.ext rfl hdelivered) q hq
  exact sectioned_callCallbacks ⟨e, hlater.trace he, hdue⟩

theorem sectioned_refresh (h : HandleId) (m : Moment) : (refresh h).Sectioned m := by
  refine sectioned_withCoordinator fun c => ?_
  refine .chore (.setPending h false) trivial rfl fun _ m₁ _ => ?_
  refine (sectioned_advanceToReady c h m₁).bind fun moved m₂ _ => ?_
  cases moved with
  | false => exact sectioned_pure () m₂
  | true =>
    refine .step (.refl m₂) rfl fun w _ => ?_
    cases (w.handle h).context with
    | none => exact sectioned_pure () m₂
    | some context =>
      exact .chore (.tellDidChange context) trivial rfl fun _ m₃ _ => sectioned_callOut _ m₃

theorem sectioned_deliverAvailable (h : HandleId) (m : Moment) : (deliverAvailable h).Sectioned m :=
  sectioned_withCoordinator fun c => sectioned_processAvailable c h _

/-- A query can be registered once it was made, if it was not registered before. -/
theorem sectioned_registerQuery {h : HandleId} {q : QueryId} {m : Moment}
    (hmade : q < m.world.queries.size) (hfresh : ∀ p ∈ m.registered, p.1 ≠ q) :
    (registerQuery h q).Sectioned m := by
  refine sectioned_withCoordinator fun c => ?_
  let m' := m.perform (.chore (.retainCoordinator c))
  have hallowed : m'.AllowsDue (.register c q) := ⟨hmade, hfresh⟩
  exact sectioned_ofStep (.perform hallowed) (m'.world_register c q)

/-! ### Opening -/

theorem sectioned_openFile (r : RegistryId) (thread : Thread) (config : Config) (m : Moment) :
    (ofStep (Step.openFile r thread config)).Sectioned m := by
  cases hfault : config.fault? with
  | some fault =>
    refine sectioned_ofStep (.refl m) ?_
    unfold Step.openFile
    rw [hfault]
    rfl
  | none =>
    let c := (m.world.getCoordinator r config.path).2
    let m₁ := m.perform (.chore (.getCoordinator r config.path))
    let m₂ := m₁.perform (.chore (.getHandle c thread config))
    have hfind : m.AllowsDue (.chore (.getCoordinator r config.path)) := trivial
    have hopen : m₁.AllowsDue (.chore (.getHandle c thread config)) := trivial
    have hrelease : m₂.AllowsDue (.chore (.releaseCoordinator c)) := trivial
    refine sectioned_ofStep (((Moment.Makes.perform hfind).trans (.perform hopen)).trans
      (.perform hrelease)) ?_
    unfold Step.openFile
    rw [hfault]
    rfl

theorem sectioned_getCanonicalHandle (c : CoordinatorId) (thread : Thread) (m : Moment) :
    (ofStep (Step.getCanonicalHandle c thread)).Sectioned m := by
  cases hconfig : (m.world.coordinator c).config? with
  | error failure =>
    refine sectioned_ofStep (.refl m) ?_
    unfold Step.getCanonicalHandle
    rw [Step.run_bind_ok (Step.run_world _), hconfig]
    rfl
  | ok config =>
    have hopen : m.AllowsDue (.chore (.getHandle c thread config)) := trivial
    refine sectioned_ofStep (.perform hopen) ?_
    unfold Step.getCanonicalHandle
    rw [Step.run_bind_ok (Step.run_world _), hconfig]
    rfl

end Action

end SnapshotCoordination
