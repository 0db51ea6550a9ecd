import SnapshotCoordination.Proofs.Coordination.Operations

/-!
# Reads that are left over

A cursor that reads keeps a version from being given up, so it is to stop once its list is empty.
A sweep sees to that when it takes the last query off a list, and so does an import that leaves
nobody waiting. But the lists are emptied in other ways too, and what stopped then is not asked.

* **`Idles`** — a cursor reads though nobody is on its list;
* **`idle_read_of_cycle`** — it is always a cycle that leaves a read over: one that ends with a
  captured failure leaves the advancer reading, and one that finds nobody in main rotation and
  brings nobody there the query cursor. The read goes on until someone joins the list;
* **`exists_idle_read`** — there are such cycles.
-/

namespace SnapshotCoordination

/-- A cursor reads though nobody is on its list. -/
def Idles (cursor : Option Cursor) (queries : List QueryId) : Prop :=
  cursor.any (·.isReading) ∧ queries = []

instance (cursor : Option Cursor) (queries : List QueryId) : Decidable (Idles cursor queries) := by
  unfold Idles
  infer_instance

namespace Idles

variable {cursor : Option Cursor} {queries : List QueryId} {dead : QueryId → Bool}

theorem any_endRead (cursor : Option Cursor) :
    (cursor.map (·.endRead)).any (·.isReading) = false := by
  cases cursor <;> rfl

/-- If a cursor idles after a sweep of its list, it did before. -/
theorem of_sweep (h : Idles
    (if !(sweep dead queries).2.isEmpty && (sweep dead queries).1.isEmpty then
      cursor.map (·.endRead) else cursor) (sweep dead queries).1) : Idles cursor queries := by
  obtain ⟨hreads, hkept⟩ := h
  by_cases hgone : (sweep dead queries).2 = []
  · rw [if_neg (by simp [hgone])] at hreads
    refine ⟨hreads, List.eq_nil_iff_forall_not_mem.mpr fun q hq => ?_⟩
    -- whatever was on the list was kept or is gone
    cases hdead : dead q with
    | true =>
      have hmem := (sweep_removed_perm dead queries).mem_iff.mpr (List.mem_filter.mpr ⟨hq, hdead⟩)
      rw [hgone] at hmem
      cases hmem
    | false =>
      have hmem := mem_sweep_kept.mpr ⟨hq, hdead⟩
      rw [hkept] at hmem
      cases hmem
  · rw [if_pos (by simp [hkept, hgone]), any_endRead] at hreads
    cases hreads

theorem advancer_of_swept {s : Coordinator}
    (h : Idles (s.swept dead).advancer (s.swept dead).newQueries) :
    Idles s.advancer s.newQueries := of_sweep h

theorem queryCursor_of_swept {s : Coordinator}
    (h : Idles (s.swept dead).queryCursor (s.swept dead).queries) :
    Idles s.queryCursor s.queries := of_sweep h

/-- An import that succeeds stops the advancer once nobody waits any more. -/
theorem advancer_of_import {c : CoordinatorId} {config : Config} {recorder : ChangeRecorder}
    {w w' : World} {changes : Changes}
    (himport : (Step.importAndReplay c config recorder).run w = (w', .ok changes))
    (h : Idles (w'.coordinator c).advancer (w'.coordinator c).newQueries) :
    Idles (w.coordinator c).advancer (w.coordinator c).newQueries := by
  cases hcursor : (w.coordinator c).queryCursor with
  | none =>
    rw [Step.run_import_of_closed hcursor] at himport
    cases himport
  | some cursor =>
    have hopen : (w.coordinator c).queryCursor.isSome := by rw [hcursor]; rfl
    by_cases hwaiting : (w.coordinator c).newQueries = []
    · rw [Step.run_import_of_nil hopen hwaiting] at himport
      obtain ⟨-, -, -, -, -, -, rfl⟩ := Step.replayQueryCursor_eq_ok himport hcursor
      rwa [World.coordinator_onCoordinator_self] at h
    · rw [Step.run_import_of_waiting hopen hwaiting] at himport
      obtain ⟨w₁, latest, -, himport⟩ := Step.run_bind_eq_ok himport
      rw [Step.run_bind_ok (Step.run_onCoordinator c _ w₁)] at himport
      obtain ⟨w₂, -, hsteers, rfl⟩ := Step.finishImport_eq_ok himport
      rw [World.coordinator_onCoordinator_self] at h
      obtain ⟨hreads, hdeferred⟩ := h
      dsimp only [Coordinator.joined] at hreads hdeferred
      rw [hsteers.waiting, World.coordinator_onCoordinator_self] at hdeferred
      dsimp only at hdeferred
      rw [hdeferred, if_pos (by rfl), any_endRead] at hreads
      cases hreads

end Idles

/-! ## One section -/

namespace Moment

variable {m : Moment} {s : Section} {c : CoordinatorId}

/-- Nothing but a cycle that ends with a captured failure leaves the advancer idling. -/
theorem advancer_idles_of_perform
    (h : Idles ((m.perform s).world.coordinator c).advancer
      ((m.perform s).world.coordinator c).newQueries) :
    Idles (m.world.coordinator c).advancer (m.world.coordinator c).newQueries ∨
      s = .beginCycle c ∧ ((m.perform s).world.coordinator c).asyncError.isSome := by
  have htouched := m.touched_perform s c
  generalize (m.perform s).world = w' at h htouched ⊢
  cases htouched with
  | spared s hsame =>
    have hadvancer : (w'.coordinator c).advancer = (m.world.coordinator c).advancer :=
      congrArg Background.advancer hsame
    have hwaiting : (w'.coordinator c).newQueries = (m.world.coordinator c).newQueries :=
      congrArg Background.newQueries hsame
    rw [hadvancer, hwaiting] at h
    exact .inl h
  | registered q config s hpin hself =>
    -- now at least this query waits
    rw [hself] at h
    exact absurd h.2 (by simp)
  | cycled outcome hrun houtcome =>
    cases houtcome with
    | unconfigured hconfig hsame => exact .inl (hsame ▸ h)
    | idle _ hself hmain hwaiting => exact .inl (Idles.advancer_of_swept (hself ▸ h))
    | abandoned _ hleft hmain hwaiting hquery hadvancer hfailed => exact .inr ⟨rfl, hfailed⟩
    | refused config w₁ w₂ failure captured hopened himport hcaptured hbecomes =>
      exact .inr ⟨rfl, by rw [hbecomes.self]; rfl⟩
    | begun config w₁ changes hopened himport =>
      have hopen := Idles.advancer_of_import himport h
      rw [hopened.advancer, hopened.waiting] at hopen
      exact .inl (Idles.advancer_of_swept hopen)
  | concluded queries hself => exact .inl (Idles.advancer_of_swept (hself ▸ h))

/-- Nothing but a cycle leaves the query cursor idling: one that finds a live query, though none in
main rotation, and brings none there. -/
theorem queryCursor_idles_of_perform
    (h : Idles ((m.perform s).world.coordinator c).queryCursor
      ((m.perform s).world.coordinator c).queries) :
    Idles (m.world.coordinator c).queryCursor (m.world.coordinator c).queries ∨
      s = .beginCycle c ∧ (m.world.sweptCoordinator c).queries = [] ∧
        (m.world.sweptCoordinator c).newQueries ≠ [] ∧
        (((m.perform s).world.coordinator c).asyncError.isSome ∨
          ∀ q ∈ (m.world.sweptCoordinator c).newQueries,
            q ∈ ((m.perform s).world.coordinator c).newQueries) := by
  have htouched := m.touched_perform s c
  generalize (m.perform s).world = w' at h htouched ⊢
  cases htouched with
  | spared s hsame =>
    have hcursor : (w'.coordinator c).queryCursor = (m.world.coordinator c).queryCursor :=
      congrArg Background.queryCursor hsame
    have hmain : (w'.coordinator c).queries = (m.world.coordinator c).queries :=
      congrArg Background.queries hsame
    rw [hcursor, hmain] at h
    exact .inl h
  | registered q config s hpin hself =>
    rw [hself] at h
    replace h : Idles s.queryCursor s.queries := h
    rw [hpin.queryCursor, hpin.main] at h
    exact .inl (Idles.queryCursor_of_swept h)
  | cycled outcome hrun houtcome =>
    cases houtcome with
    | unconfigured hconfig hsame => exact .inl (hsame ▸ h)
    | idle _ hself hmain hwaiting => exact .inl (Idles.queryCursor_of_swept (hself ▸ h))
    | abandoned _ hleft hmain hwaiting hquery hadvancer hfailed =>
      -- all queries have joined main rotation, and there was one
      obtain ⟨hnobody, hnone⟩ := List.append_eq_nil_iff.mp (hmain.symm.trans h.2)
      exact absurd hleft (by simp [hnobody, hnone])
    | refused config w₁ w₂ failure captured hopened himport hcaptured hbecomes =>
      have hfailed := Step.importAndReplay_eq_error hopened.isOpen himport
      have hempty := h.2
      rw [hbecomes.self, hfailed.main, hopened.main] at hempty
      have hnobody := (List.append_eq_nil_iff.mp hempty).1
      refine .inr ⟨rfl, hnobody, hopened.left.resolve_left (absurd hnobody), .inl ?_⟩
      rw [hbecomes.self]
      rfl
    | begun config w₁ changes hopened himport =>
      obtain ⟨latest, -, hmain, hwaiting⟩ := (Step.importAndReplay_eq_ok himport).lists
      have hempty := h.2
      rw [hmain, hopened.main] at hempty
      obtain ⟨hnobody, hready⟩ := List.append_eq_nil_iff.mp hempty
      refine .inr ⟨rfl, hnobody, hopened.left.resolve_left (absurd hnobody), .inr fun q hq => ?_⟩
      -- none was ready, so all are deferred
      have hperm := w₁.ready_append_deferred_perm c latest
      rw [hready, List.nil_append, hopened.waiting] at hperm
      rw [hwaiting]
      exact hperm.mem_iff.mpr hq
  | concluded queries hself => exact .inl (Idles.queryCursor_of_swept (hself ▸ h))

/-! ## Between any two sections -/

end Moment

/-- **A read that is left over was left by a cycle.** If between two sections the advancer of a
coordinator reads though no query waits, it has done so since a cycle that ended with a captured
failure. If the query cursor reads though no query is in main rotation, it has done so since a cycle
that found a live query, though none in main rotation, and brought none there: because a failure
was captured, or because all of them go on waiting. -/
theorem idle_read_of_cycle (c : CoordinatorId) (sections : List Section) :
    let s := (Moment.start.after sections).world.coordinator c
    (Idles s.advancer s.newQueries →
      ∃ before after, sections = before ++ .beginCycle c :: after ∧
        ((Moment.start.after (before ++ [.beginCycle c])).world.coordinator c).asyncError.isSome ∧
        ∀ more, more <+: after →
          let s' := (Moment.start.after (before ++ .beginCycle c :: more)).world.coordinator c
          Idles s'.advancer s'.newQueries) ∧
    (Idles s.queryCursor s.queries →
      ∃ before after, sections = before ++ .beginCycle c :: after ∧
        let swept := (Moment.start.after before).world.sweptCoordinator c
        let s' := (Moment.start.after (before ++ [.beginCycle c])).world.coordinator c
        swept.queries = [] ∧ swept.newQueries ≠ [] ∧
          (s'.asyncError.isSome ∨ ∀ q ∈ swept.newQueries, q ∈ s'.newQueries) ∧
        ∀ more, more <+: after →
          let s' := (Moment.start.after (before ++ .beginCycle c :: more)).world.coordinator c
          Idles s'.queryCursor s'.queries) := by
  have hlast : ∀ before s, Moment.start.after (before ++ [s]) =
      (Moment.start.after before).perform s :=
    fun before s => Moment.start.after_append before [s]
  refine ⟨fun hidles => ?_, fun hidles => ?_⟩
  · obtain ⟨before, s, after, hsplit, ⟨rfl, hfailed⟩, hsince⟩ := Moment.exists_onset
      (P := fun m => Idles (m.world.coordinator c).advancer (m.world.coordinator c).newQueries)
      (fun h => nomatch h.1) (fun m s => Moment.advancer_idles_of_perform) hidles
    refine ⟨before, after, hsplit, ?_, hsince⟩
    rw [hlast]
    exact hfailed
  · obtain ⟨before, s, after, hsplit, ⟨rfl, hnobody, hwaiting, hleft⟩, hsince⟩ :=
      Moment.exists_onset
        (P := fun m => Idles (m.world.coordinator c).queryCursor (m.world.coordinator c).queries)
        (fun h => nomatch h.1) (fun m s => Moment.queryCursor_idles_of_perform) hidles
    refine ⟨before, after, hsplit, hnobody, hwaiting, ?_, hsince⟩
    rw [hlast]
    exact hleft

/-- A file was opened and two queries were made, one of them ahead of the latest version. -/
def twoQueriesMade : List Section :=
  [.chore .makeEngine, .chore .makeRegistry, .chore (.getCoordinator 0 "/a"),
    .chore (.getHandle 0 none (.forFile "/a" 0)), .chore (.makeQuery none [] ⟨1, 0⟩),
    .chore (.makeQuery none [] ⟨9, 0⟩)]

/-- Then the first one is registered, and no cursor can be opened any more. -/
def withoutCursors : List Section :=
  twoQueriesMade ++ [.register 0 0, .chore (.setFaults 0 true false)]

/-- Or both are registered, and the first one dies. -/
def aheadOnly : List Section := twoQueriesMade ++ [.register 0 0, .register 0 1, .kill 0]

/-- A cycle then leaves the advancer reading in the one case, for its failure is captured, and the
query cursor in the other, for there is nobody to import. -/
theorem idle_read_of_cycle_twoQueriesMade :
    let s := (Moment.start.after (withoutCursors ++ [.beginCycle 0])).world.coordinator 0
    let s' := (Moment.start.after (aheadOnly ++ [.beginCycle 0])).world.coordinator 0
    (Idles s.advancer s.newQueries ∧ ∃ before after,
      withoutCursors ++ [.beginCycle 0] = before ++ .beginCycle 0 :: after ∧
      ((Moment.start.after (before ++ [.beginCycle 0])).world.coordinator 0).asyncError.isSome) ∧
    Idles s'.queryCursor s'.queries ∧ ∃ before after,
      aheadOnly ++ [.beginCycle 0] = before ++ .beginCycle 0 :: after ∧
      ((Moment.start.after before).world.sweptCoordinator 0).newQueries ≠ [] := by
  intro s s'
  have hadvancer : Idles s.advancer s.newQueries := by decide +kernel
  have hquery : Idles s'.queryCursor s'.queries := by decide +kernel
  obtain ⟨hleft, -⟩ := idle_read_of_cycle 0 (withoutCursors ++ [.beginCycle 0])
  obtain ⟨-, hleft'⟩ := idle_read_of_cycle 0 (aheadOnly ++ [.beginCycle 0])
  obtain ⟨before, after, hsplit, hfailed, -⟩ := hleft hadvancer
  obtain ⟨before', after', hsplit', -, hwaiting, -⟩ := hleft' hquery
  exact ⟨⟨hadvancer, before, after, hsplit, hfailed⟩, hquery, before', after', hsplit', hwaiting⟩

/-- Neither cursor reads only while someone is on its list, not even when a cycle is over. -/
theorem exists_idle_read :
    (¬ ∀ c sections, Moment.start.Follows Moment.Allows sections →
      let s := ((Moment.start.after sections).operate (.cycle c)).world.coordinator c
      s.advancer.any (·.isReading) → s.newQueries ≠ []) ∧
    ¬ ∀ c sections, Moment.start.Follows Moment.Allows sections →
      let s := ((Moment.start.after sections).operate (.cycle c)).world.coordinator c
      s.queryCursor.any (·.isReading) → s.queries ≠ [] := by
  constructor
  · intro hall
    exact hall 0 withoutCursors (by decide +kernel) (by decide +kernel) (by decide +kernel)
  · intro hall
    exact hall 0 aheadOnly (by decide +kernel) (by decide +kernel) (by decide +kernel)

end SnapshotCoordination
