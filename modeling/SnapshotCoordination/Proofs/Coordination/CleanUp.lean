import SnapshotCoordination.Coordination.Pipeline
import SnapshotCoordination.Proofs.Coordination.Undisturbed
import SnapshotCoordination.Proofs.Lists.Sweeping

/-!
# Letting go of dead queries

`Within c` relates two worlds between which only the background of coordinator `c` was touched:
everything the pipeline does short of running queries stays within its coordinator. The first
such step is the one that lets go of dead queries. What it makes of the coordinator is
`Coordinator.swept`; what it tells the queries is one release for each dead entry
(`run_cleanUp`).
-/

namespace SnapshotCoordination

/-! ## Within one coordinator -/

/-- From one world to the other only the background of coordinator `c` was touched, no query was
run, and nothing was committed. -/
structure Within (c : CoordinatorId) (w w' : World) : Prop where
  others : ∀ d, d ≠ c → w'.coordinator d = w.coordinator d
  config : (w'.coordinator c).config = (w.coordinator c).config
  queries : w'.queries = w.queries
  commits : ∀ f, (w'.file f).commits = (w.file f).commits
  runs : w'.runs = w.runs

namespace Within

variable {c : CoordinatorId} {w w' w'' : World}

theorem refl (w : World) : Within c w w := ⟨fun _ _ => rfl, rfl, rfl, fun _ => rfl, rfl⟩

theorem trans (h : Within c w w') (h' : Within c w' w'') : Within c w w'' where
  others d hd := (h'.others d hd).trans (h.others d hd)
  config := h'.config.trans h.config
  queries := h'.queries.trans h.queries
  commits f := (h'.commits f).trans (h.commits f)
  runs := h'.runs.trans h.runs

theorem query (h : Within c w w') (q : QueryId) : w'.query q = w.query q := by
  unfold World.query
  rw [h.queries]

theorem latest (h : Within c w w') (f : FileId) : (w'.file f).latest = (w.file f).latest := by
  unfold File.latest
  rw [h.commits]

theorem of_looked (h : Looked w w') : Within c w w' := by
  have hfile := h.file
  rw [h.eq] at hfile ⊢
  exact ⟨fun _ _ => rfl, rfl, rfl, fun f => by rw [hfile], rfl⟩

theorem onCoordinator (w : World) {f : Coordinator → Coordinator}
    (h : (f (w.coordinator c)).config = (w.coordinator c).config) :
    Within c w (w.onCoordinator c f) where
  others _ hd := w.coordinator_onCoordinator_of_ne hd f
  config := by rw [w.coordinator_onCoordinator_self]; exact h
  queries := rfl
  commits _ := rfl
  runs := rfl

end Within

/-! ## Telling queries -/

namespace World

/-- Append several events to the trace. -/
def notes (w : World) (events : List Event) : World := { w with trace := w.trace ++ events }

theorem notes_notes (w : World) (as bs : List Event) :
    (w.notes as).notes bs = w.notes (as ++ bs) := by
  unfold notes
  rw [List.append_assoc]

theorem runs_notes (w : World) {events : List Event} (h : ∀ e ∈ events, e.run? = none) :
    (w.notes events).runs = w.runs := by
  unfold runs notes
  rw [List.filterMap_append, List.filterMap_eq_nil_iff.mpr h]
  exact List.append_nil _

end World

namespace Within

theorem notes {c : CoordinatorId} (w : World) {events : List Event}
    (h : ∀ e ∈ events, e.run? = none) : Within c w (w.notes events) :=
  ⟨fun _ _ => rfl, rfl, rfl, fun _ => rfl, w.runs_notes h⟩

end Within

namespace Step

theorem run_coordinator (c : CoordinatorId) (w : World) :
    (coordinator c).run w = (w, .ok (w.coordinator c)) := rfl

theorem run_onCoordinator (c : CoordinatorId) (f : Coordinator → Coordinator) (w : World) :
    (onCoordinator c f).run w = (w.onCoordinator c f, .ok ()) := rfl

/-- Tell several queries the same. -/
theorem run_forM_note {α : Type} (f : α → Event) (xs : List α) (w : World) :
    (xs.forM fun a => note (f a)).run w = (w.notes (xs.map f), .ok ()) := by
  induction xs generalizing w with
  | nil => rw [List.map_nil, World.notes, List.append_nil]; rfl
  | cons a xs ih =>
    show (xs.forM fun a => note (f a)).run (w.note (f a)) = _
    rw [ih, List.map_cons, ← List.singleton_append, ← World.notes_notes]
    rfl

end Step

/-! ## The coordinator after a sweep -/

namespace Coordinator

/-- The coordinator without its dead queries. -/
def swept (s : Coordinator) (dead : QueryId → Bool) : Coordinator :=
  let main := sweep dead s.queries
  let waiting := sweep dead s.newQueries
  { s with
    queries := main.1
    newQueries := waiting.1
    queryCursor :=
      if !main.2.isEmpty && main.1.isEmpty then s.queryCursor.map (·.endRead) else s.queryCursor
    advancer :=
      if !waiting.2.isEmpty && waiting.1.isEmpty then s.advancer.map (·.endRead) else s.advancer
    asyncError :=
      if main.1.isEmpty && waiting.1.isEmpty then s.asyncError.filter (·.isConsistency)
      else s.asyncError }

variable {s : Coordinator} {dead : QueryId → Bool}

/-- As long as a query is left, a captured failure stays. -/
theorem asyncError_swept_of_mem {q : QueryId}
    (h : q ∈ (s.swept dead).queries ∨ q ∈ (s.swept dead).newQueries) :
    (s.swept dead).asyncError = s.asyncError := by
  dsimp only [swept] at h ⊢
  rw [if_neg]
  rw [Bool.and_eq_true, List.isEmpty_iff, List.isEmpty_iff]
  rintro ⟨hmain, hwaiting⟩
  rw [hmain, hwaiting] at h
  rcases h with h | h <;> cases h

/-- As long as a query is left in main rotation, the query cursor stays where it is. -/
theorem queryCursor_swept_of_mem {q : QueryId} (h : q ∈ (s.swept dead).queries) :
    (s.swept dead).queryCursor = s.queryCursor := by
  dsimp only [swept] at h ⊢
  rw [if_neg]
  rw [Bool.and_eq_true, List.isEmpty_iff]
  rintro ⟨-, hmain⟩
  rw [hmain] at h
  cases h

/-- As long as a waiting query is left, the advancer stays where it is. -/
theorem advancer_swept_of_mem {q : QueryId} (h : q ∈ (s.swept dead).newQueries) :
    (s.swept dead).advancer = s.advancer := by
  dsimp only [swept] at h ⊢
  rw [if_neg]
  rw [Bool.and_eq_true, List.isEmpty_iff]
  rintro ⟨-, hwaiting⟩
  rw [hwaiting] at h
  cases h

end Coordinator

namespace World

/-- Whether only a coordinator still refers to a query. -/
def isDead (w : World) (q : QueryId) : Bool := !(w.query q).alive

/-- The coordinator once its dead queries are let go. -/
def sweptCoordinator (w : World) (c : CoordinatorId) : Coordinator :=
  (w.coordinator c).swept w.isDead

/-- What the queries of a coordinator are told when the dead ones are let go. -/
def releases (w : World) (c : CoordinatorId) : List Event :=
  ((sweep w.isDead (w.coordinator c).queries).2 ++
    (sweep w.isDead (w.coordinator c).newQueries).2).map .release

end World

namespace Step

/-- Letting go of dead queries never fails. It sweeps the coordinator and releases every dead
entry. -/
theorem run_cleanUp (c : CoordinatorId) (w : World) :
    ∃ w', (cleanUp c).run w = (w', .ok ()) ∧ Within c w w' ∧
      w'.coordinator c = w.sweptCoordinator c ∧
      w'.trace = w.trace ++ w.releases c ∧ w'.engines = w.engines := by
  let main := sweep w.isDead (w.coordinator c).queries
  let waiting := sweep w.isDead (w.coordinator c).newQueries
  -- the three changes of the coordinator, one after the other
  let sweepMain (s : Coordinator) : Coordinator :=
    { s with
      queries := main.1
      queryCursor :=
        if !main.2.isEmpty && main.1.isEmpty then s.queryCursor.map (·.endRead)
        else s.queryCursor }
  let sweepWaiting (s : Coordinator) : Coordinator :=
    { s with
      newQueries := waiting.1
      advancer :=
        if !waiting.2.isEmpty && waiting.1.isEmpty then s.advancer.map (·.endRead)
        else s.advancer }
  let forget (s : Coordinator) : Coordinator :=
    if s.queries.isEmpty && s.newQueries.isEmpty then
      { s with asyncError := s.asyncError.filter (·.isConsistency) }
    else s
  let w₁ := (w.notes (main.2.map .release)).onCoordinator c sweepMain
  let w₂ := (w₁.notes (waiting.2.map .release)).onCoordinator c sweepWaiting
  have hrun : (cleanUp c).run w = (w₂.onCoordinator c forget, .ok ()) := by
    unfold cleanUp
    rw [run_bind_ok (run_world w)]
    show (main.2.forM (fun q => note (.release q)) >>= _).run w = _
    rw [run_bind_ok (run_forM_note .release main.2 w), run_bind_ok (run_onCoordinator c _ _)]
    show (waiting.2.forM (fun q => note (.release q)) >>= _).run w₁ = _
    rw [run_bind_ok (run_forM_note .release waiting.2 w₁), run_bind_ok (run_onCoordinator c _ _)]
    rfl
  have hreleases : ∀ gone : List QueryId, ∀ e ∈ gone.map Event.release, e.run? = none := by
    intro gone e he
    obtain ⟨q, -, rfl⟩ := List.mem_map.mp he
    rfl
  have hwithin : Within c w (w₂.onCoordinator c forget) :=
    ((((Within.notes w (hreleases _)).trans (.onCoordinator _ rfl)).trans
      (.notes _ (hreleases _))).trans (.onCoordinator _ rfl)).trans
      (.onCoordinator _ (by dsimp only [forget]; split <;> rfl))
  refine ⟨_, hrun, hwithin, ?_, ?_, rfl⟩
  · have hself : (w₂.onCoordinator c forget).coordinator c =
        forget (sweepWaiting (sweepMain (w.coordinator c))) := by
      rw [World.coordinator_onCoordinator_self, World.coordinator_onCoordinator_self]
      show forget (sweepWaiting (w₁.coordinator c)) = _
      rw [World.coordinator_onCoordinator_self]
      rfl
    rw [hself]
    dsimp only [forget, sweepWaiting, sweepMain, World.sweptCoordinator, Coordinator.swept]
    split <;> rfl
  · show (w.trace ++ main.2.map Event.release) ++ waiting.2.map Event.release = _
    rw [List.append_assoc, ← List.map_append]
    rfl

end Step

end SnapshotCoordination
