import SnapshotCoordination.Proofs.Coordination.Accounting
import SnapshotCoordination.Proofs.Coordination.Chores
import SnapshotCoordination.Proofs.Handles.Refreshing

/-!
# What sections tell

What a section tells queries and binding contexts (`Moment.told`) is known by its kind:

* **`Moment.told_register`**, **`told_beginCycle`**, **`told_concludeCycle`** — a registration and
  both ends of a change cycle release the dead queries of their coordinator. The start goes on to
  attach the queries that it imports; before the end, the queries that were run hand over.
* **`Moment.told_settle`**, **`told_deliverHere`** — the queries in main rotation deliver, and
  callbacks are due to those that say so (**`Step.due_settle`**, **`due_deliverHere`**).
* **`Moment.told_silent`** — any other chore tells nobody anything, short of those that do nothing
  else.
-/

namespace SnapshotCoordination

namespace Event

/-- The query that is asked for something. -/
def query? : Event → Option QueryId
  | attach q _ | detach q | run q _ | handOver q _ | deliver q .. | callbacks q | release q => some q
  | available _ | didChange _ => none

/-- The query whose callbacks are due because of this. -/
def due? : Event → Option QueryId
  | deliver q _ _ _ true => some q
  | _ => none

/-- One of these queries is attached or detached. -/
def Imports (queries : List QueryId) (e : Event) : Prop :=
  ∃ q ∈ queries, e = .detach q ∨ ∃ v, e = .attach q v

/-- One of these queries delivers. -/
def Delivers (queries : List QueryId) (e : Event) : Prop :=
  ∃ q ∈ queries, ∃ h version failure due, e = .deliver q h version failure due

end Event

/-! ## Telling nothing but such things -/

/-- From one world to the other, nothing but such things was told. -/
def World.Tells (P : Event → Prop) (w w' : World) : Prop :=
  ∃ told, w'.trace = w.trace ++ told ∧ ∀ e ∈ told, P e

namespace World

variable {P : Event → Prop} {w w' : World}

theorem tells_of_eq (h : w'.trace = w.trace) : w.Tells P w' :=
  ⟨[], h.trans (List.append_nil _).symm, nofun⟩

instance : IsPreorder World (World.Tells P) where
  refl _ := tells_of_eq rfl
  trans _ _ _ := by
    rintro ⟨told, htrace, htold⟩ ⟨more, htrace', hmore⟩
    refine ⟨told ++ more, by rw [htrace', htrace, List.append_assoc], fun e he => ?_⟩
    exact (List.mem_append.mp he).elim (htold e) (hmore e)

end World

theorem bears_tells (P : Event → Prop) : Bears (World.Tells P) where
  elsewhere _ htrace := World.tells_of_eq htrace
  changed _ _ _ _ := World.tells_of_eq rfl
  made _ _ _ := World.tells_of_eq rfl
  adopted _ _ _ _ := World.tells_of_eq rfl

theorem drives_tells (c : CoordinatorId) (P : Event → Prop) : Drives c (World.Tells P) where
  looked h := World.tells_of_eq (by rw [h.eq])
  file _ _ _ _ _ := World.tells_of_eq rfl
  coordinator _ _ _ := World.tells_of_eq rfl

theorem covers_tells (c : CoordinatorId) : Covers c (World.Tells fun _ => True) where
  toDrives := drives_tells c _
  query _ _ _ := World.tells_of_eq rfl
  told _ e _ := ⟨[e], rfl, fun _ _ => trivial⟩

namespace Step

variable {P : Event → Prop} {c : CoordinatorId} {config : Config} {recorder : ChangeRecorder}

theorem tells_note {e : Event} (he : P e) : (note e).Stays (World.Tells P) :=
  .update fun _ => ⟨[e], rfl, fun _ h => List.mem_singleton.mp h ▸ he⟩

/-! ### Imports -/

theorem tells_liftAndReplay {queries ready : List QueryId} (hready : ready ⊆ queries) (w : World)
    (latest : Version) :
    (liftAndReplay c w ready latest recorder).Stays (World.Tells (Event.Imports queries)) := by
  have hdrives := drives_tells c (Event.Imports queries)
  have hattach : ∀ q ∈ ready, ∀ v, (attach q v).Stays (World.Tells (Event.Imports queries)) :=
    fun q hq v => tells_note ⟨q, hready hq, .inr ⟨v, rfl⟩⟩
  have hdetach : ∀ q ∈ ready, (detach q).Stays (World.Tells (Event.Imports queries)) :=
    fun q hq => tells_note ⟨q, hready hq, .inl rfl⟩
  refine .bind (.forM_of_mem fun q hq => ?_) fun _ => .bind (hdrives.stepAdvancer _) fun target => ?_
  · exact .bind (hdrives.stepAdvancer _) fun v => hattach q hq v
  · refine .bind (hdrives.replayQueryCursor _ _) fun changes =>
      .bind (.forM_of_mem fun q hq => ?_) fun _ => .pure _
    exact .bind (hdetach q hq) fun _ => .bind Drives.readCoordinator fun s => hattach q hq _

/-- An import asks something of the waiting queries only. -/
theorem tells_importAndReplay (w : World) :
    w.Tells (Event.Imports (w.coordinator c).newQueries)
      ((importAndReplay c config recorder).run w).1 := by
  let queries := (w.coordinator c).newQueries
  have hdrives := drives_tells c (Event.Imports queries)
  cases hcursor : (w.coordinator c).queryCursor with
  | none =>
    rw [run_import_of_closed hcursor]
    exact refl_of (World.Tells _) w
  | some cursor =>
    have hopen : (w.coordinator c).queryCursor.isSome := by rw [hcursor]; rfl
    by_cases hwaiting : (w.coordinator c).newQueries = []
    · rw [run_import_of_nil hopen hwaiting]
      exact hdrives.replayQueryCursor _ _ w
    · rw [run_import_of_waiting hopen hwaiting]
      -- the waiting list is cut first, but whoever is ready was on it
      have hfinish : ∀ latest, (finishImport c w latest recorder).Stays
          (World.Tells (Event.Imports queries)) := fun latest =>
        .ite (.fail _) (.bind
          (tells_liftAndReplay (fun q hq => ((w.mem_ready c latest).mp hq).1) w latest) fun _ =>
            .bind (hdrives.joinMain _) fun _ => .pure _)
      refine Stays.bind (hdrives.look (stays_latestVersion config)) (fun latest =>
        .bind ?_ fun _ => hfinish latest) w
      exact hdrives.onCoordinator fun _ _ => .of_cursors rfl rfl

theorem tells_resumeCycle (c : CoordinatorId) (config : Config) (s : Coordinator) (w : World) :
    w.Tells (Event.Imports (w.coordinator c).newQueries) ((resumeCycle c config s).run w).1 := by
  have hdrives := drives_tells c (Event.Imports (w.coordinator c).newQueries)
  unfold resumeCycle
  rw [run_bind_ok (run_coordinator c w)]
  split
  · exact Stays.bind hdrives.abandonImport (fun _ => .pure _) w
  · rw [run_bind_ok (run_world w)]
    refine Stays.bind_from (s := attempt _) (tells_importAndReplay w) fun outcome => ?_
    cases outcome with
    | ok changes => exact .bind Drives.readCoordinator fun _ => .pure _
    | error failure =>
      exact .bind (hdrives.onCoordinator fun _ _ => .of_cursors rfl rfl) fun _ =>
        .bind hdrives.abandonImport fun _ => .fail _

/-! ### Cycles and registrations -/

/-- The start of a cycle releases the dead queries and then imports others. -/
theorem trace_beginCycle {w : World} (hconfig : (w.coordinator c).config = some config) :
    ∃ imports, ((beginCycle c).run w).1.trace = w.trace ++ w.releases c ++ imports ∧
      ∀ e ∈ imports, e.Imports (w.sweptCoordinator c).newQueries := by
  obtain ⟨w₁, hclean, -, hself, htrace, -⟩ := run_cleanUp c w
  rw [run_beginCycle_of_swept hconfig hclean hself, ← htrace]
  split
  · exact World.tells_of_eq (w := w₁) rfl
  split
  · obtain ⟨w₂, s, hready, hbecomes, houtcome⟩ := run_readyQueryCursor (c := c) config w₁
    have hresume := tells_resumeCycle c config (w.sweptCoordinator c) w₂
    rw [hbecomes.self, houtcome.waiting, hself] at hresume
    rw [run_bind_ok hready, ← hbecomes.trace]
    exact hresume
  · have hresume := tells_resumeCycle c config (w.sweptCoordinator c) w₁
    rw [hself] at hresume
    exact hresume

theorem trace_registerQuery {w : World} (hconfig : (w.coordinator c).config = some config)
    (q : QueryId) : ((registerQuery c q).run w).1.trace = w.trace ++ w.releases c := by
  obtain ⟨w₁, hclean, -, -, htrace, -⟩ := run_cleanUp c w
  obtain ⟨w₂, s, hpin, hbecomes, -⟩ := run_pinVersion (c := c) config (w.query q).version w₁
  unfold registerQuery
  rw [run_bind_ok (run_coordinator c w), Coordinator.config?, hconfig,
    run_bind_ok (run_ofExcept (.ok config) w), run_bind_ok (run_world w), run_bind_ok hclean,
    run_bind_ok hpin, run_onCoordinator]
  exact hbecomes.trace.trans htrace

/-- At the end of a cycle queries hand over, and then the dead ones are released. -/
theorem trace_concludeCycle (queries : List QueryId) (w : World) :
    ∃ handed, ((concludeCycle c queries).run w).1.trace = w.trace ++ handed ++ w.releases c ∧
      ∀ e ∈ handed, ∃ q ∈ queries, ∃ v, e = .handOver q v := by
  obtain ⟨w₁, hover, hhanded⟩ := run_handOvers queries w
  obtain ⟨w₂, hclean, -, -, htrace, -⟩ := run_cleanUp c w₁
  let P : Event → Prop := fun e => ∃ q ∈ queries, ∃ v, e = .handOver q v
  have htells : ∀ q ∈ queries, (handOver q).Stays (World.Tells P) := fun q hq =>
    .bind (.update fun w => World.tells_of_eq rfl) fun _ =>
      .bind .world fun w => tells_note ⟨q, hq, _, rfl⟩
  obtain ⟨handed, htold, hevents⟩ := Stays.forM_of_mem htells w
  rw [hover] at htold
  refine ⟨handed, ?_, hevents⟩
  unfold concludeCycle
  rw [run_bind_ok hover, hclean]
  show w₂.trace = _
  rw [htrace, htold, hhanded.releases]

/-! ### Deliveries -/

theorem tells_deliverAll (h : HandleId) (version : Version) (failure : Option Failure)
    (queries : List QueryId) :
    (deliverAll h version failure queries).Stays (World.Tells (Event.Delivers queries)) := by
  intro w
  obtain ⟨w', answers, hrun, rfl, hserves, -⟩ := run_deliverAll h version failure queries w
  rw [hrun]
  refine ⟨delivered h version failure answers, hserves.trace, fun e he => ?_⟩
  obtain ⟨a, ha, rfl⟩ := List.mem_map.mp he
  exact ⟨a.1, List.mem_map_of_mem ha, h, version, failure, a.2, rfl⟩

/-- Callbacks are due to the queries that said so when they delivered. -/
theorem due_deliverAll {h : HandleId} {version : Version} {failure : Option Failure}
    {queries due : List QueryId} {w w' : World}
    (hrun : (deliverAll h version failure queries).run w = (w', .ok due)) :
    ∀ q ∈ due, ∃ e ∈ w'.trace, e.due? = some q := by
  obtain ⟨w₁, answers, hrun', -, hserves, -⟩ := run_deliverAll h version failure queries w
  rw [hrun] at hrun'
  obtain ⟨rfl, hdue⟩ := Prod.mk.inj hrun'
  rw [Except.ok.inj hdue]
  intro q hq
  obtain ⟨⟨p, isDue⟩, ha, rfl⟩ := List.mem_map.mp hq
  obtain ⟨hanswer, rfl : isDue = true⟩ := List.mem_filter.mp ha
  refine ⟨.deliver p h version failure true, ?_, rfl⟩
  rw [hserves.trace]
  exact List.mem_append_right _ (List.mem_map_of_mem hanswer)

theorem due_offer {s : Coordinator} {h : HandleId} {target : Version} {moved moved' : Bool}
    {version : Option Version} {due : List QueryId} {w w' : World}
    (hrun : (offer s h target moved version).run w = (w', .ok (moved', due))) :
    ∀ q ∈ due, ∃ e ∈ w'.trace, e.due? = some q := by
  unfold offer at hrun
  split at hrun
  · cases hrun
    exact nofun
  · obtain ⟨w₁, found, hdeliver, hrun⟩ := run_bind_eq_ok hrun
    cases hrun
    exact due_deliverAll hdeliver

theorem due_settle {c : CoordinatorId} {h : HandleId} {moved : Bool} {due : List QueryId}
    {w w' : World} (hrun : (settle c h).run w = (w', .ok (moved, due))) :
    ∀ q ∈ due, ∃ e ∈ w'.trace, e.due? = some q := by
  cases hready : w.ready? c with
  | none =>
    rw [run_settle_of_none hready] at hrun
    obtain ⟨w₁, reached, -, hrun⟩ := run_bind_eq_ok hrun
    cases hrun
    exact nofun
  | some target =>
    rw [run_settle_of_some hready] at hrun
    split at hrun
    · exact due_offer hrun
    · obtain ⟨w₁, reached, -, hrun⟩ := run_bind_eq_ok hrun
      exact due_offer hrun

theorem due_deliverHere {c : CoordinatorId} {h : HandleId} {due : List QueryId} {w w' : World}
    (hrun : (deliverHere c h).run w = (w', .ok due)) :
    ∀ q ∈ due, ∃ e ∈ w'.trace, e.due? = some q := by
  unfold deliverHere at hrun
  rw [run_bind_ok (run_world w)] at hrun
  dsimp only at hrun
  split at hrun
  · cases hrun
  · exact due_deliverAll hrun

end Step

/-! ## Sections -/

namespace Moment

/-- What a section tells. -/
def told (m : Moment) (s : Section) : List Event :=
  (m.perform s).world.trace.drop m.world.trace.length

theorem trace_perform (m : Moment) (s : Section) :
    (m.perform s).world.trace = m.world.trace ++ m.told s := by
  obtain ⟨told, htrace, -⟩ := m.perform_of_changes covers_tells
    (fun _ e => ⟨[e], rfl, fun _ _ => trivial⟩) (bears_tells fun _ => True) s
  rw [Moment.told, htrace, List.drop_left]

theorem told_of_trace {m : Moment} {s : Section} {told : List Event}
    (h : (m.perform s).world.trace = m.world.trace ++ told) : m.told s = told := by
  rw [Moment.told, h, List.drop_left]

theorem told_of_tells {m : Moment} {s : Section} {P : Event → Prop}
    (h : m.world.Tells P (m.perform s).world) : ∀ e ∈ m.told s, P e := by
  obtain ⟨told, htrace, htold⟩ := h
  rw [told_of_trace htrace]
  exact htold

variable (m : Moment)

theorem told_silent {x : Chore} (hx : x.isSilent) : m.told (.chore x) = [] :=
  List.eq_nil_iff_forall_not_mem.mpr
    (told_of_tells ((bears_tells fun _ => False).perform m.world hx))

theorem told_settle (c : CoordinatorId) (h : HandleId) :
    ∀ e ∈ m.told (.chore (.settle c h)), e.Delivers (m.world.coordinator c).queries :=
  told_of_tells (Step.settle_from ((bears_tells _).moveHandle h) fun version failure =>
    Step.tells_deliverAll h version failure _)

theorem told_deliverHere (c : CoordinatorId) (h : HandleId) :
    ∀ e ∈ m.told (.chore (.deliverHere c h)), e.Delivers (m.world.coordinator c).queries :=
  told_of_tells (Step.deliverHere_from fun version failure =>
    Step.tells_deliverAll h version failure _)

variable {m} {c : CoordinatorId} {config : Config}

theorem told_register (hconfig : (m.world.coordinator c).config = some config) (q : QueryId) :
    m.told (.register c q) = m.world.releases c := by
  refine told_of_trace ?_
  rw [world_register]
  exact Step.trace_registerQuery hconfig q

theorem told_beginCycle (hconfig : (m.world.coordinator c).config = some config) :
    ∃ imports, m.told (.beginCycle c) = m.world.releases c ++ imports ∧
      ∀ e ∈ imports, e.Imports (m.world.sweptCoordinator c).newQueries := by
  obtain ⟨imports, htrace, himports⟩ := Step.trace_beginCycle hconfig
  have hworld : (m.perform (.beginCycle c)).world = ((Step.beginCycle c).run m.world).1 :=
    world_beginCycle rfl
  refine ⟨imports, told_of_trace ?_, himports⟩
  rw [hworld, htrace, List.append_assoc]

theorem told_concludeCycle (m : Moment) (c : CoordinatorId) (queries : List QueryId) :
    ∃ handed, m.told (.concludeCycle c queries) = handed ++ m.world.releases c ∧
      ∀ e ∈ handed, ∃ q ∈ queries, ∃ v, e = .handOver q v := by
  obtain ⟨handed, htrace, hhanded⟩ := Step.trace_concludeCycle (c := c) queries m.world
  exact ⟨handed, told_of_trace (htrace.trans (List.append_assoc ..)), hhanded⟩

/-! ### Callbacks that are due -/

/-- The rule `Moment.Allows`, and beside it: a query calls its callbacks only if a delivery said that
they are due. -/
def AllowsDue (m : Moment) : Section → Prop
  | .chore (.tellCallbacks q) => ∃ e ∈ m.world.trace, e.due? = some q
  | s => m.Allows s

instance (m : Moment) (s : Section) : Decidable (m.AllowsDue s) := by
  unfold AllowsDue
  split <;> infer_instance

theorem AllowsDue.allows {m : Moment} {s : Section} (h : m.AllowsDue s) : m.Allows s := by
  unfold AllowsDue at h
  split at h
  · trivial
  · exact h

end Moment

end SnapshotCoordination
