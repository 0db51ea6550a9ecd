import SnapshotCoordination.Proofs.Handles.Keeping

/-!
# Where a handle is to land

The queries of a coordinator are ready at the earliest version that one of them in main rotation has
set (`World.ready?`). A handle that is not past that version is to land on it, one that is past it is
to stay, and if there is none, a handle is to land on the latest version (`World.landing`).

* **`World.readyAt`** — what version the queries are ready at;
* **`World.landing_landing`** — a handle that has landed has nowhere to go;
* **`Serves`** — nothing happened but some events, and what became of one handle;
* **`Landed`** — what an operation comes to that takes a handle to where it is to land.
-/

namespace SnapshotCoordination

/-! ## The version that queries are ready at -/

namespace Version

theorem foldl_earlier (v : Version) (vs : List Version) :
    vs.foldl earlier v ∈ v :: vs ∧ ∀ u ∈ v :: vs, vs.foldl earlier v ≤ u := by
  induction vs generalizing v with
  | nil => exact ⟨List.mem_singleton_self v, fun u hu => List.mem_singleton.mp hu ▸ le_refl v⟩
  | cons x vs ih =>
    obtain ⟨hmem, hle⟩ := ih (v.earlier x)
    have hhead : v.earlier x ∈ [v, x] ∧ v.earlier x ≤ v ∧ v.earlier x ≤ x := by
      unfold earlier
      split
      · next hlt => simp [le_refl, le_of_lt hlt]
      · next hlt => simp [le_refl, not_lt.mp hlt]
    refine ⟨?_, fun u hu => ?_⟩
    · rcases List.mem_cons.mp hmem with hmem | hmem
      · rw [List.foldl_cons, hmem]
        exact List.mem_append_left vs hhead.1
      · exact List.mem_cons_of_mem v (List.mem_cons_of_mem x hmem)
    · -- both that were compared are later than the earlier one
      have hfirst := hle _ (List.mem_cons_self ..)
      rcases List.mem_cons.mp hu with rfl | hu
      · exact le_trans hfirst hhead.2.1
      rcases List.mem_cons.mp hu with rfl | hu
      · exact le_trans hfirst hhead.2.2
      · exact hle u (List.mem_cons_of_mem _ hu)

end Version

namespace World

/-- The earliest version that a query in main rotation has set. -/
def ready? (w : World) (c : CoordinatorId) : Option Version :=
  Version.earliest? (((w.coordinator c).queries.map fun q => (w.query q).version).filter
    (!·.isUnset))

theorem ready?_congr {w w' : World} {c : CoordinatorId}
    (hmain : (w'.coordinator c).queries = (w.coordinator c).queries)
    (hversions : ∀ q ∈ (w.coordinator c).queries, (w'.query q).version = (w.query q).version) :
    w'.ready? c = w.ready? c := by
  unfold ready?
  rw [hmain, List.map_congr_left hversions]

/-- No query in main rotation has set a version, or this is the earliest one. -/
def ReadyAt (w : World) (c : CoordinatorId) : Option Version → Prop
  | none => ∀ q ∈ (w.coordinator c).queries, (w.query q).version.isUnset
  | some v =>
    (∃ q ∈ (w.coordinator c).queries, (w.query q).version = v ∧ v.isUnset = false) ∧
      ∀ q ∈ (w.coordinator c).queries, (w.query q).version.isUnset = false →
        v ≤ (w.query q).version

theorem readyAt (w : World) (c : CoordinatorId) : w.ReadyAt c (w.ready? c) := by
  have hmem : ∀ {v}, v ∈ ((w.coordinator c).queries.map fun q => (w.query q).version).filter
      (!·.isUnset) ↔ (∃ q ∈ (w.coordinator c).queries, (w.query q).version = v) ∧
        v.isUnset = false := by
    simp
  unfold ready?
  cases hset : ((w.coordinator c).queries.map fun q => (w.query q).version).filter
      (!·.isUnset) with
  | nil =>
    intro q hq
    by_contra hversion
    have := hmem.mpr ⟨⟨q, hq, rfl⟩, Bool.of_not_eq_true hversion⟩
    rw [hset] at this
    cases this
  | cons v vs =>
    obtain ⟨hearliest, hle⟩ := Version.foldl_earlier v vs
    rw [← hset] at hearliest hle
    obtain ⟨⟨q, hq, hversion⟩, hunset⟩ := hmem.mp hearliest
    exact ⟨⟨q, hq, hversion, hunset⟩, fun p hp hp' => hle _ (hmem.mpr ⟨⟨p, hp, rfl⟩, hp'⟩)⟩

/-- The version that a refresh takes a handle to which reads version `v` of a file. -/
def landing (w : World) (c : CoordinatorId) (f : FileId) (v : Version) : Version :=
  match w.ready? c with
  | none => (w.file f).latest
  | some target => if v < target then target else v

/-- The version exists, and the guard takes in the logs on the way to it. -/
def HasWay (w : World) (f : FileId) (u v : Version) : Prop :=
  v ≤ (w.file f).latest ∧ SchemaGuard.allows ((w.file f).logsBetween u v).flatten

/-- The queries that a refresh asks for a delivery to a handle which it took to a version. -/
def addressees (w : World) (c : CoordinatorId) (version : Version) : List QueryId :=
  match w.ready? c with
  | none => []
  | some target =>
    if version = target ∨ (w.coordinator c).asyncError.isSome then (w.coordinator c).queries else []

section

variable {w w' : World} {c : CoordinatorId} {f : FileId} {u v target : Version}

theorem landing_of_none (hready : w.ready? c = none) (v : Version) :
    w.landing c f v = (w.file f).latest := by
  rw [landing, hready]

theorem landing_of_le (hready : w.ready? c = some target) (hle : v ≤ target) :
    w.landing c f v = target := by
  rw [landing, hready]
  dsimp only
  split
  · rfl
  · next hlt => exact Version.le_antisymm hle (Version.not_lt.mp hlt)

theorem landing_of_past (hready : w.ready? c = some target) (hpast : target ≤ v) :
    w.landing c f v = v := by
  rw [landing, hready]
  exact if_neg (Version.not_lt_of_le hpast)

theorem le_landing (hlatest : v ≤ (w.file f).latest) : v ≤ w.landing c f v := by
  cases hready : w.ready? c with
  | none => rwa [landing_of_none hready]
  | some target =>
    rcases Version.le_total v target with hle | hpast
    · rwa [landing_of_le hready hle]
    · rw [landing_of_past hready hpast]
      exact Version.le_refl v

/-- A handle that has landed is where it is to land. -/
theorem landing_landing : w.landing c f (w.landing c f v) = w.landing c f v := by
  cases hready : w.ready? c with
  | none => rw [landing_of_none hready, landing_of_none hready]
  | some target =>
    rcases Version.le_total v target with hle | hpast
    · rw [landing_of_le hready hle, landing_of_le hready (Version.le_refl target)]
    · rw [landing_of_past hready hpast, landing_of_past hready hpast]

theorem landing_congr (hready : w'.ready? c = w.ready? c)
    (hcommits : (w'.file f).commits = (w.file f).commits) :
    w'.landing c f v = w.landing c f v := by
  rw [landing, landing, hready, File.latest, File.latest, hcommits]

theorem hasWay_congr (hcommits : (w'.file f).commits = (w.file f).commits) :
    w'.HasWay f u v ↔ w.HasWay f u v := by
  rw [HasWay, HasWay, File.latest, File.latest, File.logsBetween_congr hcommits, hcommits]

theorem hasWay_self (hlatest : v ≤ (w.file f).latest) : w.HasWay f v v := by
  refine ⟨hlatest, ?_⟩
  rw [File.logsBetween_self]
  rfl

end

end World

/-! ## Looking after a handle -/

/-- Nothing happened that these events do not tell of, but for what became of one handle. -/
structure Serves (h : HandleId) (events : List Event) (w w' : World) : Prop where
  others : ∀ i ≠ h, w'.handle i = w.handle i
  coordinator : (w'.handle h).coordinator = (w.handle h).coordinator
  context : (w'.handle h).context = (w.handle h).context
  commits : ∀ f, (w'.file f).commits = (w.file f).commits
  background : ∀ c, (w'.coordinator c).background = (w.coordinator c).background
  versions : ∀ q, (w'.query q).version = (w.query q).version
  trace : w'.trace = w.trace ++ events

namespace Serves

variable {h : HandleId} {events more : List Event} {w w' w'' : World}

theorem trans (hw : Serves h events w w') (hw' : Serves h more w' w'') :
    Serves h (events ++ more) w w'' where
  others i hi := (hw'.others i hi).trans (hw.others i hi)
  coordinator := hw'.coordinator.trans hw.coordinator
  context := hw'.context.trans hw.context
  commits f := (hw'.commits f).trans (hw.commits f)
  background c := (hw'.background c).trans (hw.background c)
  versions q := (hw'.versions q).trans (hw.versions q)
  trace := by rw [hw'.trace, hw.trace, List.append_assoc]

theorem of_recounted (hw : Recounted w w') : Serves h [] w w' where
  others i _ := hw.handle i
  coordinator := by rw [hw.handle]
  context := by rw [hw.handle]
  commits := hw.commits
  background := hw.background
  versions q := by rw [hw.query]
  trace := hw.trace.trans (List.append_nil _).symm

theorem refl (w : World) : Serves h [] w w := of_recounted (.refl w)

theorem note (w : World) (e : Event) : Serves h [e] w (w.note e) :=
  ⟨fun _ _ => rfl, rfl, rfl, fun _ => rfl, fun _ => rfl, fun _ => rfl, rfl⟩

theorem onHandle (w : World) {f : Handle → Handle}
    (hcoordinator : (f (w.handle h)).coordinator = (w.handle h).coordinator)
    (hcontext : (f (w.handle h)).context = (w.handle h).context) :
    Serves h [] w (w.onHandle h f) where
  others i hi := w.handle_onHandle_of_ne hi f
  coordinator := by rw [World.handle_onHandle_self]; exact hcoordinator
  context := by rw [World.handle_onHandle_self]; exact hcontext
  commits _ := rfl
  background _ := rfl
  versions _ := rfl
  trace := (List.append_nil _).symm

theorem setFile (w : World) {f : FileId} {x : File} (hcommits : x.commits = (w.file f).commits) :
    Serves h [] w (w.setFile f x) where
  others _ _ := rfl
  coordinator := rfl
  context := rfl
  commits g := by
    rw [World.file_setFile]
    split
    · next hg => rw [hg, hcommits]
    · rfl
  background _ := rfl
  versions _ := rfl
  trace := (List.append_nil _).symm

theorem onQuery (w : World) (q : QueryId) {x : Query} (hversion : x.version = (w.query q).version) :
    Serves h [] w (w.onQuery q fun _ => x) where
  others _ _ := rfl
  coordinator := rfl
  context := rfl
  commits _ := rfl
  background _ := rfl
  versions p := by
    rw [World.query_onQuery]
    split
    · next hp => rw [hp, hversion]
    · rfl
  trace := (List.append_nil _).symm

theorem main (hw : Serves h events w w') (c : CoordinatorId) :
    (w'.coordinator c).queries = (w.coordinator c).queries :=
  congrArg Background.queries (hw.background c)

theorem asyncError (hw : Serves h events w w') (c : CoordinatorId) :
    (w'.coordinator c).asyncError = (w.coordinator c).asyncError :=
  congrArg Background.asyncError (hw.background c)

theorem ready? (hw : Serves h events w w') (c : CoordinatorId) : w'.ready? c = w.ready? c :=
  World.ready?_congr (hw.main c) fun q _ => hw.versions q

theorem landing (hw : Serves h events w w') (c : CoordinatorId) (f : FileId) (v : Version) :
    w'.landing c f v = w.landing c f v := World.landing_congr (hw.ready? c) (hw.commits f)

theorem addressees (hw : Serves h events w w') (c : CoordinatorId) (v : Version) :
    w'.addressees c v = w.addressees c v := by
  rw [World.addressees, World.addressees, hw.ready?, hw.asyncError, hw.main]

end Serves

/-! ## Landing -/

/-- What came of an operation that takes a handle to where its queries are ready. The handle landed
and queries were asked for a delivery, whose answers say whose callbacks are due; or there is no way,
and the handle stayed where it was. What the operation gives and what happened meanwhile depends on
the answers. -/
inductive Landed {α : Type} (c : CoordinatorId) (h : HandleId) (f : FileId) (v : Version)
    (value : List (QueryId × Bool) → α) (events : List (QueryId × Bool) → List Event) (w : World) :
    World × Except Failure α → Prop where
  | landed (w' : World) (answers : List (QueryId × Bool))
      (hway : w.HasWay f v (w.landing c f v))
      (hcursor : (w'.handle h).cursor = some ⟨f, some (w.landing c f v)⟩)
      (hqueries : answers.map Prod.fst = w.addressees c (w.landing c f v))
      (hserves : Serves h (events answers) w w') :
      Landed c h f v value events w (w', .ok (value answers))
  | stayed (w' : World) (failure : Failure) (hway : ¬ w.HasWay f v (w.landing c f v))
      (hcursor : (w'.handle h).cursor = some ⟨f, some v⟩) (hserves : Serves h [] w w') :
      Landed c h f v value events w (w', .error failure)

namespace Landed

variable {α β : Type} {c : CoordinatorId} {h : HandleId} {f : FileId} {v : Version}
  {value : List (QueryId × Bool) → α} {value' : List (QueryId × Bool) → β}
  {events more : List (QueryId × Bool) → List Event} {w w₀ : World}

/-- What was done to the handle before changes nothing about where it lands. -/
theorem before {result : World × Except Failure α} (hw : Serves h [] w₀ w)
    (hlanded : Landed c h f v value events w result) :
    Landed c h f v value events w₀ result := by
  cases hlanded with
  | landed w' answers hway hcursor hqueries hserves =>
    rw [hw.landing] at hway hcursor hqueries
    rw [hw.addressees] at hqueries
    exact .landed w' answers ((World.hasWay_congr (hw.commits f)).mp hway) hcursor hqueries
      (hw.trans hserves)
  | stayed w' failure hway hcursor hserves =>
    rw [hw.landing] at hway
    exact .stayed w' failure (fun h => hway ((World.hasWay_congr (hw.commits f)).mpr h)) hcursor
      (hw.trans hserves)

theorem recounted {result : World × Except Failure α} {w' : World} (hw : Recounted result.1 w')
    (hlanded : Landed c h f v value events w result) :
    Landed c h f v value events w (w', result.2) := by
  have hafter : Serves h [] result.1 w' := .of_recounted hw
  cases hlanded with
  | landed w₁ answers hway hcursor hqueries hserves =>
    refine .landed w' answers hway (by rw [hw.handle]; exact hcursor) hqueries ?_
    rw [← List.append_nil (events answers)]
    exact hserves.trans hafter
  | stayed w₁ failure hway hcursor hserves =>
    exact .stayed w' failure hway (by rw [hw.handle]; exact hcursor) (hserves.trans hafter)

/-- What is done next where the handle landed, if it touches no handle and never fails. -/
theorem andThen {a : Action α} {g : α → Action β}
    (ha : Landed c h f v value events w (a.quietly w))
    (hg : ∀ answers w₁, Serves h (events answers) w w₁ →
      ∃ w', (g (value answers)).quietly w₁ = (w', .ok (value' answers)) ∧
        Serves h (more answers) w₁ w' ∧ w'.handles = w₁.handles) :
    Landed c h f v value' (fun answers => events answers ++ more answers) w
      ((a >>= g).quietly w) := by
  generalize hrun : a.quietly w = result at ha
  cases ha with
  | landed w₁ answers hway hcursor hqueries hserves =>
    obtain ⟨w', hnext, hserves', hhandles⟩ := hg answers w₁ hserves
    have hresult : (a >>= g).quietly w = (w', .ok (value' answers)) :=
      (Action.finish_bind_ok _ hrun).trans hnext
    rw [hresult]
    exact .landed w' answers hway (by rw [World.handle_congr hhandles]; exact hcursor) hqueries
      (hserves.trans hserves')
  | stayed w₁ failure hway hcursor hserves =>
    have hresult : (a >>= g).quietly w = (w₁, .error failure) := Action.finish_bind_error _ hrun
    rw [hresult]
    exact .stayed w₁ failure hway hcursor hserves

end Landed

end SnapshotCoordination
