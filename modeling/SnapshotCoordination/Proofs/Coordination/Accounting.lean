import Mathlib.Data.List.Nodup
import SnapshotCoordination.Proofs.Coordination.Sections

/-!
# Every registered query is accounted for

A query whose registration returned without failure is on one of the two lists of its coordinator,
once, as long as it lives, with a single exception: an import that is refused drops the queries it
had found ready.

* **`Accounted`** — the invariant: who is registered, who is listed, how often, and who is being
  run.
* **`Relisted`** — what a section may do to the lists without touching the invariant; every section
  but a registration and a refused import is of this kind (`accounted_perform`).
* **`count_lists_after`** — between any two sections, a live registered query is listed once if no
  refused import found it ready, and not at all if one did.
-/

namespace SnapshotCoordination

namespace Coordinator

/-- The two lists together. -/
def lists (s : Coordinator) : List QueryId := s.queries ++ s.newQueries

theorem mem_lists {s : Coordinator} {q : QueryId} :
    q ∈ s.lists ↔ q ∈ s.queries ∨ q ∈ s.newQueries := List.mem_append

theorem count_lists (s : Coordinator) (q : QueryId) :
    s.lists.count q = s.queries.count q + s.newQueries.count q := List.count_append

variable {s : Coordinator} {dead : QueryId → Bool} {q : QueryId}

theorem mem_queries_swept : q ∈ (s.swept dead).queries ↔ q ∈ s.queries ∧ dead q = false :=
  mem_sweep_kept

theorem mem_newQueries_swept : q ∈ (s.swept dead).newQueries ↔ q ∈ s.newQueries ∧ dead q = false :=
  mem_sweep_kept

theorem mem_lists_swept : q ∈ (s.swept dead).lists ↔ q ∈ s.lists ∧ dead q = false := by
  rw [mem_lists, mem_lists, mem_queries_swept, mem_newQueries_swept, or_and_right]

/-- A sweep leaves a query that is not dead as often as it was there. -/
theorem count_queries_swept (h : dead q = false) :
    (s.swept dead).queries.count q = s.queries.count q := by
  refine (count_sweep_kept s.queries q).trans (if_neg ?_)
  rw [h]
  exact Bool.false_ne_true

theorem count_newQueries_swept (h : dead q = false) :
    (s.swept dead).newQueries.count q = s.newQueries.count q := by
  refine (count_sweep_kept s.newQueries q).trans (if_neg ?_)
  rw [h]
  exact Bool.false_ne_true

theorem count_lists_swept (h : dead q = false) :
    (s.swept dead).lists.count q = s.lists.count q := by
  rw [count_lists, count_lists, count_queries_swept h, count_newQueries_swept h]

end Coordinator

/-! ## The invariant -/

/-- Who is registered, who is listed, how often, and who is being run. -/
structure Accounted (m : Moment) : Prop where
  made : ∀ q c, (q, c) ∈ m.registered → q < m.world.queries.size
  once : ∀ q c d, (q, c) ∈ m.registered → (q, d) ∈ m.registered → c = d
  known : ∀ q c, (q, c) ∈ m.lost → (q, c) ∈ m.registered
  listed : ∀ q c, q ∈ (m.world.coordinator c).lists → (q, c) ∈ m.registered
  count : ∀ q c, (q, c) ∈ m.registered → (m.world.query q).alive →
    (m.world.coordinator c).lists.count q = if (q, c) ∈ m.lost then 0 else 1
  /-- A query of a cycle with runs is registered, and does not wait for its import. -/
  running : ∀ p ∈ m.begun, ∀ q ∈ p.2.queries,
    (q, p.1) ∈ m.registered ∧ q ∉ (m.world.coordinator p.1).newQueries

/-- From one world to the other no coordinator was given a query, none was set to wait again, and
every live query is listed as often as before. -/
structure Relisted (w w' : World) : Prop where
  made : w.queries.size ≤ w'.queries.size
  alive : ∀ q < w.queries.size, (w'.query q).alive → (w.query q).alive
  listed : ∀ c q, q ∈ (w'.coordinator c).lists → q ∈ (w.coordinator c).lists
  waiting : ∀ c q, q ∈ (w'.coordinator c).newQueries → q ∈ (w.coordinator c).newQueries
  count : ∀ c, ∀ q < w.queries.size, (w'.query q).alive →
    (w'.coordinator c).lists.count q = (w.coordinator c).lists.count q

namespace Relisted

variable {w w' w'' : World} {c : CoordinatorId}

theorem trans (h : Relisted w w') (h' : Relisted w' w'') : Relisted w w'' where
  made := Nat.le_trans h.made h'.made
  alive q hq halive := h.alive q hq (h'.alive q (Nat.lt_of_lt_of_le hq h.made) halive)
  listed c q hq := h.listed c q (h'.listed c q hq)
  waiting c q hq := h.waiting c q (h'.waiting c q hq)
  count c q hq halive := by
    have hq' := Nat.lt_of_lt_of_le hq h.made
    rw [h'.count c q hq' halive, h.count c q hq (h'.alive q hq' halive)]

/-- The lists are as they were. -/
theorem of_same (hmade : w.queries.size ≤ w'.queries.size)
    (halive : ∀ q < w.queries.size, (w'.query q).alive → (w.query q).alive)
    (hmain : ∀ c, (w'.coordinator c).queries = (w.coordinator c).queries)
    (hwaiting : ∀ c, (w'.coordinator c).newQueries = (w.coordinator c).newQueries) :
    Relisted w w' := by
  have hlists : ∀ c, (w'.coordinator c).lists = (w.coordinator c).lists := by
    intro c
    unfold Coordinator.lists
    rw [hmain, hwaiting]
  exact ⟨hmade, halive, fun c q h => hlists c ▸ h, fun c q h => hwaiting c ▸ h,
    fun c q _ _ => by rw [hlists]⟩

theorem of_undisturbed (h : Undisturbed w w') : Relisted w w' := by
  refine of_same h.made (fun q hq => ?_) h.main h.waiting
  rw [h.alive hq]
  exact id

/-- Within one coordinator, the live queries are rearranged. -/
theorem of_within (h : Within c w w')
    (hlisted : ∀ q, q ∈ (w'.coordinator c).lists → q ∈ (w.coordinator c).lists)
    (hwaiting : ∀ q, q ∈ (w'.coordinator c).newQueries → q ∈ (w.coordinator c).newQueries)
    (hcount : ∀ q, (w.query q).alive →
      (w'.coordinator c).lists.count q = (w.coordinator c).lists.count q) : Relisted w w' where
  made := Nat.le_of_eq (by rw [h.queries])
  alive q _ := by rw [h.query]; exact id
  listed d q := by
    by_cases hd : d = c
    · subst hd
      exact hlisted q
    · rw [h.others d hd]
      exact id
  waiting d q := by
    by_cases hd : d = c
    · subst hd
      exact hwaiting q
    · rw [h.others d hd]
      exact id
  count d q _ halive := by
    rw [h.query] at halive
    by_cases hd : d = c
    · subst hd
      exact hcount q halive
    · rw [h.others d hd]

end Relisted

namespace World

variable {w : World} {c : CoordinatorId} {q : QueryId}

theorem mem_lists_sweptCoordinator :
    q ∈ (w.sweptCoordinator c).lists ↔ q ∈ (w.coordinator c).lists ∧ (w.query q).alive := by
  refine Coordinator.mem_lists_swept.trans (and_congr_right fun _ => ?_)
  rw [isDead, Bool.not_eq_false']

theorem mem_newQueries_sweptCoordinator : q ∈ (w.sweptCoordinator c).newQueries ↔
    q ∈ (w.coordinator c).newQueries ∧ (w.query q).alive := by
  refine Coordinator.mem_newQueries_swept.trans (and_congr_right fun _ => ?_)
  rw [isDead, Bool.not_eq_false']

theorem isDead_of_alive (h : (w.query q).alive) : w.isDead q = false := by
  rw [isDead, h]
  rfl

end World

namespace World

/-- A query that is importable waits. -/
theorem mem_newQueries_of_importable {w : World} {c : CoordinatorId} {q : QueryId}
    (h : q ∈ w.importable c) : q ∈ (w.coordinator c).newQueries := by
  unfold importable at h
  split at h
  · cases h
  · exact (List.mem_filter.mp h).1

end World

/-- What a refused import leaves listed: every live query but the importable ones, and none of them
waits. -/
theorem lists_of_refused {c : CoordinatorId} {w w' : World} {captured : Failure}
    (houtcome : CycleOutcome c w w' (.error captured)) :
    Within c w w' ∧ (∀ q, q ∈ (w'.coordinator c).lists → q ∈ (w.coordinator c).lists) ∧
      (w'.coordinator c).newQueries = [] ∧
      ∀ q, (w.query q).alive → (w'.coordinator c).lists.count q =
        (w.coordinator c).queries.count q +
          if q ∈ w.importable c then 0 else (w.coordinator c).newQueries.count q := by
  cases houtcome with
  | refused config w₁ w₂ failure _ hopened himport hcaptured hbecomes =>
    have hfailed := Step.importAndReplay_eq_error hopened.isOpen himport
    have hwaiting := hfailed.waiting
    have hmain := hfailed.main
    rw [hopened.main] at hmain
    have hlists : (w'.coordinator c).lists =
        (w.sweptCoordinator c).queries ++ (w₂.coordinator c).newQueries := by
      rw [hbecomes.self, Coordinator.lists, hmain, List.append_nil]
    have hmem : ∀ q, q ∈ (w₂.coordinator c).newQueries →
        q ∈ (w.sweptCoordinator c).newQueries := by
      intro q hq
      rw [hwaiting] at hq
      rw [← hopened.waiting]
      cases hf : config.file? with
      | none => rwa [hf] at hq
      | some f =>
        rw [hf, Option.elim_some, World.mem_deferred] at hq
        exact hq.1
    refine ⟨hopened.within.trans (hfailed.within.trans hbecomes.within), fun q hq => ?_, ?_,
      fun q halive => ?_⟩
    · rw [hlists, List.mem_append] at hq
      exact (World.mem_lists_sweptCoordinator.mp
        (Coordinator.mem_lists.mpr (hq.imp_right (hmem q)))).1
    · rw [hbecomes.self]
    · have hdead := World.isDead_of_alive halive
      have hcount : (w₁.coordinator c).newQueries.count q =
          (w.coordinator c).newQueries.count q := by
        rw [hopened.waiting]
        exact Coordinator.count_newQueries_swept hdead
      have hmaincount : (w.sweptCoordinator c).queries.count q =
          (w.coordinator c).queries.count q := Coordinator.count_queries_swept hdead
      rw [hlists, List.count_append, hmaincount, hwaiting]
      congr 1
      -- a waiting query is either deferred, and listed still, or importable
      cases hf : config.file? with
      | none =>
        rw [Option.elim_none, hcount, World.importable, Coordinator.file?, hopened.configured,
          Option.bind_some, hf, if_neg List.not_mem_nil]
      | some f =>
        rw [Option.elim_some, (World.deferred_perm _ _ _).count_eq,
          World.importable, Coordinator.file?, hopened.configured, Option.bind_some, hf]
        simp only [hopened.within.query, hopened.file]
        by_cases hle : (w.query q).version ≤ (w.file f).latest
        · rw [List.count_eq_zero.mpr (by simp [hle])]
          split
          · rfl
          · next hnot =>
            refine (List.count_eq_zero.mpr fun hin => hnot ?_).symm
            exact List.mem_filter.mpr ⟨hin, by simp [halive, hle]⟩
        · rw [List.count_filter (by simpa using hle), hcount, if_neg (by simp [hle])]

/-- What a cycle with runs makes of the swept lists: the ready queries go from one to the other, and
the queries in main rotation are run. -/
theorem lists_of_begun {c : CoordinatorId} {w w' : World} {cycle : Step.Cycle}
    (houtcome : CycleOutcome c w w' (.ok (some cycle))) :
    Within c w w' ∧ (w'.coordinator c).lists.Perm (w.sweptCoordinator c).lists ∧
      (∀ q, q ∈ (w'.coordinator c).newQueries → q ∈ (w.sweptCoordinator c).newQueries) ∧
      cycle.queries = (w'.coordinator c).queries := by
  cases houtcome with
  | begun config w₁ changes hopened himport =>
    have himported := Step.importAndReplay_eq_ok himport
    obtain ⟨latest, -, hmain, hwaiting⟩ := himported.lists
    refine ⟨hopened.within.trans himported.within, ?_, fun q hq => ?_, rfl⟩
    · rw [Coordinator.lists, Coordinator.lists, hmain, hwaiting, ← hopened.main, ← hopened.waiting,
        List.append_assoc]
      exact (w₁.ready_append_deferred_perm c latest).append_left _
    · rw [hwaiting, World.mem_deferred] at hq
      rw [← hopened.waiting]
      exact hq.1

namespace Relisted

variable {w w' : World} {c : CoordinatorId}

/-- Within one coordinator, the swept lists are joined or kept apart. -/
theorem of_swept (h : Within c w w')
    (hperm : (w'.coordinator c).lists.Perm (w.sweptCoordinator c).lists)
    (hwaiting : ∀ q, q ∈ (w'.coordinator c).newQueries → q ∈ (w.sweptCoordinator c).newQueries) :
    Relisted w w' := by
  refine of_within h (fun q hq => ?_) (fun q hq => ?_) fun q halive => ?_
  · exact (World.mem_lists_sweptCoordinator.mp (hperm.mem_iff.mp hq)).1
  · exact (World.mem_newQueries_sweptCoordinator.mp (hwaiting q hq)).1
  · rw [hperm.count_eq]
    exact Coordinator.count_lists_swept (World.isDead_of_alive halive)

end Relisted

namespace Accounted

variable {m : Moment}

theorem start : Accounted .start where
  made _ _ h := nomatch h
  once _ _ _ h := nomatch h
  known _ _ h := nomatch h
  listed _ _ h := nomatch h
  count _ _ h := nomatch h
  running _ h := nomatch h

theorem relist (h : Accounted m) {w : World} (hw : Relisted m.world w) :
    Accounted { m with world := w } where
  made q c hq := Nat.lt_of_lt_of_le (h.made q c hq) hw.made
  once := h.once
  known := h.known
  listed q c hq := h.listed q c (hw.listed c q hq)
  count q c hq halive := by
    rw [hw.count c q (h.made q c hq) halive]
    exact h.count q c hq (hw.alive q (h.made q c hq) halive)
  running p hp q hq :=
    ⟨(h.running p hp q hq).1, fun hwait => (h.running p hp q hq).2 (hw.waiting p.1 q hwait)⟩

/-- No live query is listed twice. -/
theorem nodup_lists (h : Accounted m) (c : CoordinatorId) :
    (m.world.sweptCoordinator c).lists.Nodup := by
  refine List.nodup_iff_count_le_one.mpr fun q => ?_
  by_cases hq : q ∈ (m.world.sweptCoordinator c).lists
  · obtain ⟨hlisted, halive⟩ := World.mem_lists_sweptCoordinator.mp hq
    have hcount := h.count q c (h.listed q c hlisted) halive
    have hswept : (m.world.sweptCoordinator c).lists.count q =
        (m.world.coordinator c).lists.count q :=
      Coordinator.count_lists_swept (World.isDead_of_alive halive)
    rw [hswept, hcount]
    split <;> omega
  · rw [List.count_eq_zero.mpr hq]
    exact Nat.zero_le 1

/-! ## One section -/

theorem relisted_kill (w : World) (q : QueryId) :
    Relisted w (w.onQuery q ({ · with alive := false })) := by
  refine .of_same (Table.size_le_modify w.queries q _) (fun p _ => ?_) (fun _ => rfl) fun _ => rfl
  rw [World.query_onQuery]
  split
  · exact fun h => nomatch h
  · exact id

theorem relisted_setVersion (w : World) (q : QueryId) (version : Version) :
    Relisted w (w.onQuery q ({ · with version := version })) := by
  refine .of_same (Table.size_le_modify w.queries q _) (fun p _ => ?_) (fun _ => rfl) fun _ => rfl
  rw [World.query_onQuery]
  split
  · next hp => exact fun h => hp ▸ h
  · exact id

theorem relisted_concludeCycle (w : World) (c : CoordinatorId) (queries : List QueryId) :
    Relisted w ((Step.concludeCycle c queries).run w).1 := by
  obtain ⟨w₁, w', hrun, hover, hwithin, hself, -⟩ := Step.run_concludeCycle c queries w
  rw [hrun]
  have hsweep : Relisted w₁ w' := by
    refine .of_swept hwithin ?_ fun q hq => ?_
    · rw [hself, hover.sweptCoordinator]
    · rwa [hself, ← hover.sweptCoordinator] at hq
  have hhanded : Relisted w w₁ := by
    refine .of_same hover.made (fun q _ => ?_) (fun d => ?_) fun d => ?_
    · rw [hover.alive]
      exact id
    · rw [hover.coordinator]
    · rw [hover.coordinator]
  exact hhanded.trans hsweep

/-- A registration adds one query, once. -/
theorem register (h : Accounted m) {c : CoordinatorId} {q : QueryId}
    (hmade : q < m.world.queries.size) (hnew : ∀ p ∈ m.registered, p.1 ≠ q) :
    Accounted (m.perform (.register c q)) := by
  cases hconfig : (m.world.coordinator c).config with
  | none =>
    rw [Moment.perform_register_of_none hconfig]
    exact h
  | some config =>
    obtain ⟨w', s, hrun, hwithin, hself, hpin⟩ := Step.run_registerQuery hconfig q
    -- nobody knows the query yet, so no list has it
    have hstrange : ∀ d, (q, d) ∉ m.registered := fun d hd => hnew (q, d) hd rfl
    have hlists : (w'.coordinator c).lists = (m.world.sweptCoordinator c).lists ++ [q] := by
      rw [hself, Coordinator.lists, hpin.main, hpin.waiting, ← List.append_assoc]
      rfl
    have hwaiting : ∀ r, r ∈ (w'.coordinator c).newQueries →
        r ∈ (m.world.coordinator c).newQueries ∨ r = q := by
      intro r hr
      rw [hself, List.mem_append, List.mem_singleton, hpin.waiting,
        World.mem_newQueries_sweptCoordinator] at hr
      exact hr.imp_left And.left
    have hmem : ∀ r d, (r, d) ∈ m.registered ++ [(q, c)] →
        (r, d) ∈ m.registered ∨ r = q ∧ d = c := by
      intro r d hr
      rwa [List.mem_append, List.mem_singleton, Prod.mk.injEq] at hr
    dsimp only [Moment.perform]
    rw [hrun]
    constructor
    case made =>
      intro r d hr
      show r < w'.queries.size
      rw [hwithin.queries]
      rcases hmem r d hr with hold | ⟨rfl, -⟩
      · exact h.made r d hold
      · exact hmade
    case once =>
      intro r d e hd he
      rcases hmem r d hd with hd | ⟨rfl, rfl⟩ <;> rcases hmem r e he with he | ⟨hr, he⟩
      · exact h.once r d e hd he
      · exact absurd (hr ▸ hd) (hstrange d)
      · exact absurd he (hstrange e)
      · exact he.symm
    case known => exact fun r d hr => List.mem_append_left _ (h.known r d hr)
    case listed =>
      intro r d hr
      by_cases hd : d = c
      · subst hd
        rw [hlists, List.mem_append, List.mem_singleton, World.mem_lists_sweptCoordinator] at hr
        rcases hr with hr | rfl
        · exact List.mem_append_left _ (h.listed r d hr.1)
        · exact List.mem_append_right _ List.mem_cons_self
      · rw [hwithin.others d hd] at hr
        exact List.mem_append_left _ (h.listed r d hr)
    case count =>
      intro r d hr halive
      replace halive : (m.world.query r).alive := hwithin.query r ▸ halive
      rcases hmem r d hr with hold | ⟨rfl, rfl⟩
      · have hne : r ≠ q := fun heq => hstrange d (heq ▸ hold)
        rw [← h.count r d hold halive]
        by_cases hd : d = c
        · subst hd
          rw [hlists, List.count_append, List.count_singleton, if_neg (by simpa using hne.symm),
            Nat.add_zero]
          exact Coordinator.count_lists_swept (World.isDead_of_alive halive)
        · rw [hwithin.others d hd]
      · have hnot : r ∉ (m.world.sweptCoordinator d).lists := fun hin =>
          hstrange d (h.listed r d (World.mem_lists_sweptCoordinator.mp hin).1)
        rw [if_neg fun hlost => hstrange d (h.known r d hlost), hlists, List.count_append,
          List.count_eq_zero.mpr hnot, List.count_singleton_self]
    case running =>
      intro p hp r hr
      obtain ⟨hreg, hnot⟩ := h.running p hp r hr
      refine ⟨List.mem_append_left _ hreg, fun hwait => ?_⟩
      by_cases hpc : p.1 = c
      · rw [hpc] at hwait hnot
        rcases hwaiting r hwait with hwait | rfl
        · exact hnot hwait
        · exact hstrange p.1 hreg
      · rw [hwithin.others _ hpc] at hwait
        exact hnot hwait

/-- After a cycle that is refused, the queries that were importable are on no list any more. -/
theorem refused (h : Accounted m) {c : CoordinatorId} {w' : World} {captured : Failure}
    (houtcome : CycleOutcome c m.world w' (.error captured)) :
    Accounted { m with world := w', lost := m.lost ++ (m.world.importable c).map (·, c) } := by
  obtain ⟨hwithin, hlisted, hwaiting, hcount⟩ := lists_of_refused houtcome
  have hlost : ∀ q d, (q, d) ∈ m.lost ++ (m.world.importable c).map (·, c) ↔
      (q, d) ∈ m.lost ∨ q ∈ m.world.importable c ∧ d = c := by
    intro q d
    rw [List.mem_append, List.mem_map]
    refine or_congr_right ⟨?_, fun ⟨hq, hd⟩ => ⟨q, hq, by rw [hd]⟩⟩
    rintro ⟨p, hp, heq⟩
    rw [Prod.mk.injEq] at heq
    exact ⟨heq.1 ▸ hp, heq.2.symm⟩
  have hlists : ∀ q d, q ∈ (w'.coordinator d).lists → q ∈ (m.world.coordinator d).lists := by
    intro q d
    by_cases hd : d = c
    · subst hd
      exact hlisted q
    · rw [hwithin.others d hd]
      exact id
  constructor
  case made =>
    intro q d hq
    show q < w'.queries.size
    rw [hwithin.queries]
    exact h.made q d hq
  case once => exact h.once
  case known =>
    intro q d hq
    rcases (hlost q d).mp hq with hold | ⟨himportable, rfl⟩
    · exact h.known q d hold
    · refine h.listed q d (Coordinator.mem_lists.mpr (.inr ?_))
      exact World.mem_newQueries_of_importable himportable
  case listed => exact fun q d hq => h.listed q d (hlists q d hq)
  case count =>
    intro q d hq halive
    replace halive : (m.world.query q).alive := hwithin.query q ▸ halive
    have hold := h.count q d hq halive
    by_cases hd : d = c
    · subst hd
      rw [hcount q halive]
      by_cases himportable : q ∈ m.world.importable d
      · -- it waited, so it was on no other list and was not lost before
        have hone := List.count_pos_iff.mpr (World.mem_newQueries_of_importable himportable)
        rw [Coordinator.count_lists] at hold
        rw [if_pos himportable, if_pos ((hlost q d).mpr (.inr ⟨himportable, rfl⟩))]
        split at hold <;> omega
      · rw [if_neg himportable, ← Coordinator.count_lists, hold]
        refine if_congr ⟨fun hin => (hlost q d).mpr (.inl hin), fun hin => ?_⟩ rfl rfl
        exact ((hlost q d).mp hin).resolve_right fun hnow => himportable hnow.1
    · rw [hwithin.others d hd, hold]
      refine if_congr ⟨fun hin => (hlost q d).mpr (.inl hin), fun hin => ?_⟩ rfl rfl
      exact ((hlost q d).mp hin).resolve_right fun hnow => hd hnow.2
  case running =>
    intro p hp q hq
    obtain ⟨hreg, hnot⟩ := h.running p hp q hq
    refine ⟨hreg, fun hwait => ?_⟩
    by_cases hpc : p.1 = c
    · rw [hpc, hwaiting] at hwait
      cases hwait
    · rw [hwithin.others _ hpc] at hwait
      exact hnot hwait

/-- A cycle with runs rearranges the lists of its coordinator. None of the queries it runs waits
for its import. -/
theorem begun (h : Accounted m) {c : CoordinatorId} {w' : World} {cycle : Step.Cycle}
    (houtcome : CycleOutcome c m.world w' (.ok (some cycle))) :
    Accounted { m with world := w', begun := m.begun ++ [(c, cycle)] } := by
  obtain ⟨hwithin, hperm, hwaiting, hcycle⟩ := lists_of_begun houtcome
  have hrelisted := Relisted.of_swept hwithin hperm hwaiting
  have hkept := h.relist hrelisted
  refine { hkept with running := fun p hp q hq => ?_ }
  rcases List.mem_append.mp hp with hold | hnew
  · exact hkept.running p hold q hq
  · obtain rfl := List.mem_singleton.mp hnew
    rw [hcycle] at hq
    have hlisted : q ∈ (w'.coordinator c).lists := Coordinator.mem_lists.mpr (.inl hq)
    have hreg := hkept.listed q c hlisted
    refine ⟨hreg, fun hwait => ?_⟩
    -- it lives, so it is listed no more than once
    have halive : (w'.query q).alive := by
      rw [hwithin.query]
      exact (World.mem_lists_sweptCoordinator.mp (hperm.mem_iff.mp hlisted)).2
    have hone : (w'.coordinator c).lists.count q = if (q, c) ∈ m.lost then 0 else 1 :=
      hkept.count q c hreg halive
    have hmain : 0 < (w'.coordinator c).queries.count q := List.count_pos_iff.mpr hq
    have hwait : 0 < (w'.coordinator c).newQueries.count q := List.count_pos_iff.mpr hwait
    rw [Coordinator.count_lists] at hone
    split at hone <;> omega

/-- The start of a cycle rearranges the lists of its coordinator, unless its import is refused. -/
theorem beginCycle (h : Accounted m) (c : CoordinatorId) :
    Accounted (m.perform (.beginCycle c)) := by
  obtain ⟨w', outcome, hrun, houtcome⟩ := Step.run_beginCycle c m.world
  dsimp only [Moment.perform]
  rw [hrun]
  cases outcome with
  | error captured => exact h.refused houtcome
  | ok cycle =>
    cases cycle with
    | none =>
      refine h.relist ?_
      cases houtcome with
      | unconfigured hconfig hsame => exact hsame ▸ .of_undisturbed (.refl _)
      | idle hwithin hself hmain hwaiting =>
        exact .of_swept hwithin (by rw [hself]) fun q hq => hself ▸ hq
      | abandoned hwithin hleft hmain hwaiting hfailed =>
        refine .of_swept hwithin ?_ fun q hq => ?_
        · rw [Coordinator.lists, hmain, hwaiting, List.append_nil]
          exact .refl _
        · rw [hwaiting] at hq
          cases hq
    | some cycle => exact h.begun houtcome

/-- The step lemma. -/
theorem perform (s : Section) (hallowed : m.Allows s) (h : Accounted m) :
    Accounted (m.perform s) := by
  cases s with
  | chore x => exact h.relist (.of_undisturbed (x.undisturbed_perform m.world))
  | kill q => exact h.relist (relisted_kill m.world q)
  | setVersion q version => exact h.relist (relisted_setVersion m.world q version)
  | register c q => exact h.register hallowed.1 hallowed.2
  | beginCycle c => exact h.beginCycle c
  | startRun changes q =>
    exact h.relist (.of_same (Nat.le_refl _) (fun _ _ => id) (fun _ => rfl) fun _ => rfl)
  | concludeCycle c queries => exact h.relist (relisted_concludeCycle m.world c queries)

/-- The run lemma. -/
theorem after {sections : List Section} (hallowed : m.Follows Moment.Allows sections)
    (h : Accounted m) : Accounted (m.after sections) :=
  hallowed.preserves (fun _ s => perform s) h

end Accounted

/-! ## Between any two sections -/

/-- **Every registered query is accounted for.** Let every query be registered once. Between any
two sections, a live query that was registered without failure is listed exactly once, unless a
refused import found it ready: then it is not listed at all. -/
theorem count_lists_after {sections : List Section}
    (hallowed : Moment.start.Follows Moment.Allows sections) {q : QueryId} {c : CoordinatorId}
    (hregistered : (q, c) ∈ (Moment.start.after sections).registered)
    (halive : ((Moment.start.after sections).world.query q).alive) :
    (((Moment.start.after sections).world.coordinator c).queries ++
        ((Moment.start.after sections).world.coordinator c).newQueries).count q =
      if (q, c) ∈ (Moment.start.after sections).lost then 0 else 1 :=
  (Accounted.start.after hallowed).count q c hregistered halive

/-- A query is registered, imported and run; then another one is registered, another process
changes the schema of the file, and a cycle begins. -/
def schemaChange : List Section :=
  [.chore .makeEngine, .chore .makeRegistry, .chore (.getCoordinator 0 "/a"),
    .chore (.getHandle 0 none (.forFile "/a" 0)), .chore (.makeQuery none [] ⟨1, 0⟩),
    .register 0 0, .beginCycle 0, .startRun .empty 0, .chore (.concludeRun 0),
    .concludeCycle 0 [0], .chore (.makeQuery none [] ⟨1, 0⟩), .register 0 1,
    .chore (.commit (.forFile "/a" 0) [.removePrimaryKey]), .beginCycle 0]

/-- The import is refused: the query in main rotation is still listed, and the one that was ready
is not. -/
theorem count_lists_after_schemaChange :
    let s := (Moment.start.after schemaChange).world.coordinator 0
    Moment.start.Follows Moment.Allows schemaChange ∧
      (s.queries ++ s.newQueries).count 0 = 1 ∧ (s.queries ++ s.newQueries).count 1 = 0 := by
  have hallowed : Moment.start.Follows Moment.Allows schemaChange := by decide +kernel
  refine ⟨hallowed, ?_, ?_⟩
  · rw [count_lists_after hallowed (by decide +kernel) (by decide +kernel)]
    decide +kernel
  · rw [count_lists_after hallowed (by decide +kernel) (by decide +kernel)]
    decide +kernel

/-- Not every live registered query is listed. -/
theorem exists_unlisted_query :
    ¬ ∀ sections, Moment.start.Follows Moment.Allows sections → ∀ q c,
      (q, c) ∈ (Moment.start.after sections).registered →
      ((Moment.start.after sections).world.query q).alive →
      (((Moment.start.after sections).world.coordinator c).queries ++
        ((Moment.start.after sections).world.coordinator c).newQueries).count q = 1 := by
  intro h
  have hlisted := h schemaChange (by decide +kernel) 1 0 (by decide +kernel) (by decide +kernel)
  revert hlisted
  decide +kernel

end SnapshotCoordination
