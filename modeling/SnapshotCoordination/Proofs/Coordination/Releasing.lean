import Mathlib.Data.List.Perm.Subperm
import SnapshotCoordination.Proofs.Coordination.Reentrancy

/-!
# Released queries

A dead query is taken off the lists of its coordinator by the next sweep, and released: nothing will
list it again. What goes on at that time knows it still. A cycle that began before goes on to run it
and has it hand over, and a delivery that was made before goes on to call its callbacks; nothing else
is asked of it any more.

* **`Tidied`** — what a section does to the lists, and what it asks of the queries on them;
* **`Farewell`** — the invariant: who was released, and what was asked of whom after that;
* **`released_for_good`** — a query is released once, when it leaves the lists because it is dead;
  from then on it is asked for nothing but what was under way;
* **`exists_run_after_release`** — a run that makes another cycle begin has a released query run.
-/

namespace SnapshotCoordination

namespace Event

/-- Whether this is asked by a cycle that has begun, or by a delivery that was made. -/
def isLate : Event → Bool
  | run .. | handOver .. | callbacks _ => true
  | _ => false

/-- After the first request the second one is in order: whoever is released is asked for late things
only. -/
def Allows (e e' : Event) : Prop := ∀ q, e = .release q → e'.query? = some q → e'.isLate

theorem allows_of_ne {e : Event} (h : ∀ q, e ≠ .release q) (e' : Event) : e.Allows e' :=
  fun q hq => absurd hq (h q)

theorem Imports.ne_release {queries : List QueryId} {e : Event} (h : e.Imports queries)
    (q : QueryId) : e ≠ .release q := by
  obtain ⟨p, -, rfl | ⟨v, rfl⟩⟩ := h <;> exact nofun

theorem Imports.mem {queries : List QueryId} {e : Event} (h : e.Imports queries) {q : QueryId}
    (hq : e.query? = some q) : q ∈ queries := by
  obtain ⟨p, hp, rfl | ⟨v, rfl⟩⟩ := h <;> exact Option.some_inj.mp hq ▸ hp

theorem Delivers.mem {queries : List QueryId} {e : Event} (h : e.Delivers queries) {q : QueryId}
    (hq : e.query? = some q) : q ∈ queries := by
  obtain ⟨p, hp, _, _, _, _, rfl⟩ := h
  exact Option.some_inj.mp hq ▸ hp

end Event

/-- The section goes on with what was under way, and asks this for it. -/
inductive Section.Continues : Section → Event → Prop where
  | callbacks (q : QueryId) : Continues (.chore (.tellCallbacks q)) (.callbacks q)
  | run (changes : Changes) (q : QueryId) : Continues (.startRun changes q) (.run q changes)
  | handOver (c : CoordinatorId) (version : Option Version) {queries : List QueryId} {q : QueryId}
      (hq : q ∈ queries) : Continues (.concludeCycle c queries) (.handOver q version)

theorem Section.Continues.isLate {s : Section} {e : Event} (h : s.Continues e) : e.isLate := by
  cases h <;> rfl

/-! ## Sweeps -/

namespace World

variable {w : World} {c : CoordinatorId} {q : QueryId}

theorem releases_perm (w : World) (c : CoordinatorId) :
    (w.releases c).Perm (((w.coordinator c).lists.filter w.isDead).map .release) := by
  refine List.Perm.map _ ?_
  rw [Coordinator.lists, List.filter_append]
  exact (sweep_removed_perm _ _).append (sweep_removed_perm _ _)

theorem release_mem_releases :
    .release q ∈ w.releases c ↔ q ∈ (w.coordinator c).lists ∧ ¬ (w.query q).alive := by
  rw [(w.releases_perm c).mem_iff, List.mem_map_of_injective fun _ _ => Event.release.inj,
    List.mem_filter, isDead, Bool.not_eq_true', Bool.not_eq_true]

theorem eq_release_of_mem_releases {e : Event} (he : e ∈ w.releases c) : ∃ p, e = .release p := by
  obtain ⟨p, -, rfl⟩ := List.mem_map.mp he
  exact ⟨p, rfl⟩

theorem nodup_releases (h : (w.coordinator c).lists.Nodup) : (w.releases c).Nodup :=
  (w.releases_perm c).nodup_iff.mpr ((h.filter _).map fun _ _ => Event.release.inj)

theorem nodup_lists_sweptCoordinator (h : (w.coordinator c).lists.Nodup) :
    (w.sweptCoordinator c).lists.Nodup := by
  have hperm : (w.sweptCoordinator c).lists.Perm ((w.coordinator c).lists.filter (!w.isDead ·)) := by
    rw [Coordinator.lists, Coordinator.lists, List.filter_append]
    exact (sweep_kept_perm _ _).append (sweep_kept_perm _ _)
  exact hperm.nodup_iff.mpr (h.filter _)

end World

/-- The start of a cycle lists nobody but those whom the sweep has left, and nobody more often. -/
theorem CycleOutcome.lists_subperm {c : CoordinatorId} {w w' : World} {config : Config}
    {outcome : Except Failure (Option Step.Cycle)} (h : CycleOutcome c w w' outcome)
    (hconfig : (w.coordinator c).config = some config) :
    (w'.coordinator c).lists.Subperm (w.sweptCoordinator c).lists := by
  cases h with
  | unconfigured hnone hsame =>
    rw [hnone] at hconfig
    cases hconfig
  | idle hwithin hself hmain hwaiting => rw [hself]
  | abandoned hwithin hleft hmain hwaiting hquery hadvancer hfailed =>
    rw [Coordinator.lists, hmain, hwaiting, List.append_nil]
    exact .refl _
  | refused config w₁ w₂ failure captured hopened himport hcaptured hbecomes =>
    have hfailed := Step.importAndReplay_eq_error hopened.isOpen himport
    have hdeferred : (w₂.coordinator c).newQueries.Subperm (w₁.coordinator c).newQueries := by
      rw [hfailed.waiting]
      cases config.file? with
      | none => exact .refl _
      | some f => exact (w₁.deferred_perm _ _).subperm.trans List.filter_sublist.subperm
    rw [hbecomes.self, Coordinator.lists, List.append_nil, hfailed.main, hopened.main,
      Coordinator.lists, ← hopened.waiting]
    exact (List.subperm_append_left _).mpr hdeferred
  | begun config w₁ changes hopened himport =>
    exact (lists_of_begun (.begun config w₁ changes hopened himport)).2.1.subperm

/-! ## One section -/

/-- What a section does to the lists, and what it asks of the queries on them. -/
inductive Tidied (m : Moment) (s : Section) : Prop where
  /-- The lists are as they were. -/
  | spared
      (hlists : ∀ c, ((m.perform s).world.coordinator c).lists = (m.world.coordinator c).lists)
      (hkept : ∀ e ∈ m.told s, ∀ q, e ≠ .release q)
      (hlisted : ∀ e ∈ m.told s, e.isLate = false → ∀ q, e.query? = some q →
        ∃ c, q ∈ (m.world.coordinator c).lists)
      (hcontinues : ∀ e ∈ m.told s, e.isLate → s.Continues e)
  /-- A coordinator was swept. -/
  | swept (c : CoordinatorId) (handed imports : List Event) (joined : Option QueryId)
      (htold : m.told s = handed ++ (m.world.releases c ++ imports))
      (hhanded : ∀ e ∈ handed, s.Continues e)
      (himports : ∀ e ∈ imports, e.Imports (m.world.sweptCoordinator c).lists)
      (hothers : ∀ d, d ≠ c → ((m.perform s).world.coordinator d).lists =
        (m.world.coordinator d).lists)
      (hlists : ((m.perform s).world.coordinator c).lists.Subperm
        ((m.world.sweptCoordinator c).lists ++ joined.toList))
      (hjoined : ∀ q ∈ joined, s = .register c q)

namespace Tidied

variable {m : Moment} {s : Section}

/-- Nobody was told anything, and the lists are as they were. -/
theorem of_silent
    (hlists : ∀ c, ((m.perform s).world.coordinator c).lists = (m.world.coordinator c).lists)
    (htold : m.told s = []) : Tidied m s :=
  .spared hlists (by rw [htold]; exact nofun) (by rw [htold]; exact nofun)
    (by rw [htold]; exact nofun)

theorem chore (m : Moment) (x : Chore) : Tidied m (.chore x) := by
  have hlists : ∀ c, ((m.perform (.chore x)).world.coordinator c).lists =
      (m.world.coordinator c).lists := by
    intro c
    have hundisturbed := x.undisturbed_perform m.world
    show (x.perform m.world |>.coordinator c).lists = _
    rw [Coordinator.lists, hundisturbed.main, hundisturbed.waiting, Coordinator.lists]
  have hdelivers : ∀ c, (∀ e ∈ m.told (.chore x), e.Delivers (m.world.coordinator c).queries) →
      Tidied m (.chore x) := by
    refine fun c htold => .spared hlists (fun e he q heq => ?_) (fun e he _ q hq => ?_)
      fun e he hlate => ?_
    · obtain ⟨p, -, _, _, _, _, rfl⟩ := htold e he
      cases heq
    · exact ⟨c, List.mem_append_left _ ((htold e he).mem hq)⟩
    · obtain ⟨p, -, _, _, _, _, rfl⟩ := htold e he
      cases hlate
  have hnotes : ∀ e, m.told (.chore x) = [e] → (∀ q, e ≠ .release q) →
      (∀ q, e.query? = some q → e.isLate) → (e.isLate → Section.Continues (.chore x) e) →
      Tidied m (.chore x) := by
    intro e htold hkept hlate hcontinues
    refine .spared hlists ?_ ?_ ?_ <;> rw [htold]
    · exact fun e he => List.mem_singleton.mp he ▸ hkept
    · intro e' he hearly q hq
      rw [List.mem_singleton.mp he] at hearly hq
      rw [hlate q hq] at hearly
      cases hearly
    · exact fun e' he => List.mem_singleton.mp he ▸ hcontinues
  cases x with
  | settle c h => exact hdelivers c (m.told_settle c h)
  | deliverHere c h => exact hdelivers c (m.told_deliverHere c h)
  | tellCallbacks p =>
    refine hnotes (.callbacks p) (Moment.told_of_trace rfl) ?_ (fun _ _ => rfl)
      fun _ => .callbacks p
    rintro q ⟨⟩
  | tellAvailable context =>
    refine hnotes (.available context) (Moment.told_of_trace rfl) ?_ ?_ ?_
    · rintro q ⟨⟩
    · rintro q ⟨⟩
    · rintro ⟨⟩
  | tellDidChange context =>
    refine hnotes (.didChange context) (Moment.told_of_trace rfl) ?_ ?_ ?_
    · rintro q ⟨⟩
    · rintro q ⟨⟩
    · rintro ⟨⟩
  | _ => exact of_silent hlists (m.told_silent rfl)

theorem register (m : Moment) (c : CoordinatorId) (q : QueryId) : Tidied m (.register c q) := by
  cases hconfig : (m.world.coordinator c).config with
  | none =>
    have hsame := Moment.perform_register_of_none hconfig q
    exact of_silent (fun d => by rw [hsame])
      (Moment.told_of_trace (by rw [hsame, List.append_nil]))
  | some config =>
    obtain ⟨w', s, hrun, hwithin, hself, hpin⟩ := Step.run_registerQuery hconfig q
    have hworld : (m.perform (.register c q)).world = w' := by rw [Moment.perform_register hrun]
    refine .swept c [] [] (some q) ?_ nofun nofun (fun d hd => ?_) ?_ ?_
    · rw [Moment.told_register hconfig, List.nil_append, List.append_nil]
    · rw [hworld, hwithin.others d hd]
    · rw [hworld, hself, Coordinator.lists, hpin.main, hpin.waiting, ← List.append_assoc]
      exact .refl _
    · exact fun p hp => by rw [Option.some_inj.mp hp]

theorem beginCycle (m : Moment) (c : CoordinatorId) : Tidied m (.beginCycle c) := by
  obtain ⟨w', outcome, hrun, houtcome⟩ := Step.run_beginCycle c m.world
  have hworld : (m.perform (.beginCycle c)).world = w' := Moment.world_beginCycle hrun
  cases hconfig : (m.world.coordinator c).config with
  | none =>
    rw [Step.run_beginCycle_of_none hconfig] at hrun
    obtain ⟨rfl, -⟩ := Prod.mk.inj hrun
    exact of_silent (fun d => by rw [hworld])
      (Moment.told_of_trace (by rw [hworld, List.append_nil]))
  | some config =>
    obtain ⟨imports, htold, himports⟩ := Moment.told_beginCycle hconfig
    refine .swept c [] imports none htold nofun (fun e he => ?_) (fun d hd => ?_) ?_ nofun
    · obtain ⟨p, hp, hasks⟩ := himports e he
      exact ⟨p, List.mem_append_right _ hp, hasks⟩
    · rw [hworld, houtcome.within.others d hd]
    · rw [hworld, Option.toList_none, List.append_nil]
      exact houtcome.lists_subperm hconfig

theorem concludeCycle (m : Moment) (c : CoordinatorId) (queries : List QueryId) :
    Tidied m (.concludeCycle c queries) := by
  obtain ⟨w₁, w', hrun, hover, hwithin, hself, -⟩ := Step.run_concludeCycle c queries m.world
  have hworld : (m.perform (.concludeCycle c queries)).world = w' := by
    dsimp only [Moment.perform]
    rw [hrun]
  obtain ⟨handed, htold, hhanded⟩ := m.told_concludeCycle c queries
  refine .swept c handed [] none ?_ (fun e he => ?_) nofun (fun d hd => ?_) ?_ nofun
  · rw [htold, List.append_nil]
  · obtain ⟨q, hq, v, rfl⟩ := hhanded e he
    exact .handOver c v hq
  · rw [hworld, hwithin.others d hd, hover.coordinator]
  · rw [hworld, hself, Option.toList_none, List.append_nil]

end Tidied

/-- **Every section** leaves the lists alone or sweeps a coordinator. -/
theorem tidied (m : Moment) (s : Section) : Tidied m s := by
  cases s with
  | chore x => exact .chore m x
  | kill q => exact .of_silent (fun _ => rfl) (Moment.told_of_trace (List.append_nil _).symm)
  | setVersion q version =>
    exact .of_silent (fun _ => rfl) (Moment.told_of_trace (List.append_nil _).symm)
  | register c q => exact .register m c q
  | beginCycle c => exact .beginCycle m c
  | startRun changes q =>
    have htold : m.told (.startRun changes q) = [.run q changes] := Moment.told_of_trace rfl
    refine .spared (fun _ => rfl) ?_ ?_ ?_ <;> rw [htold]
    · exact fun e he => List.mem_singleton.mp he ▸ nofun
    · exact fun e he hearly => by rw [List.mem_singleton.mp he] at hearly; cases hearly
    · exact fun e he _ => List.mem_singleton.mp he ▸ .run changes q
  | concludeCycle c queries => exact .concludeCycle m c queries

namespace Tidied

variable {m : Moment} {s : Section} {q : QueryId}

/-- Only what is late is asked of a query that is not listed. -/
theorem isLate_of_not_listed (h : Tidied m s) {e : Event} (he : e ∈ m.told s)
    (hq : e.query? = some q) (hgone : ∀ c, q ∉ (m.world.coordinator c).lists) : e.isLate := by
  cases hearly : e.isLate with
  | true => rfl
  | false =>
    exfalso
    cases h with
    | spared hlists hkept hlisted hcontinues =>
      obtain ⟨c, hc⟩ := hlisted e he hearly q hq
      exact hgone c hc
    | swept c handed imports joined htold hhanded himports hothers hlists hjoined =>
      rw [htold, List.mem_append, List.mem_append] at he
      rcases he with he | he | he
      · rw [(hhanded e he).isLate] at hearly
        cases hearly
      · obtain ⟨p, rfl⟩ := World.eq_release_of_mem_releases he
        obtain rfl := Option.some_inj.mp hq
        exact hgone c (World.release_mem_releases.mp he).1
      · exact hgone c (World.mem_lists_sweptCoordinator.mp ((himports e he).mem hq)).1

/-- **A query is released** where it is swept: it was on a list, dead, and is on none of them now
unless it has just been registered. -/
theorem of_released (h : Tidied m s) (hq : .release q ∈ m.told s) :
    ∃ c, q ∈ (m.world.coordinator c).lists ∧ ¬ (m.world.query q).alive ∧
      ∀ d, q ∈ ((m.perform s).world.coordinator d).lists →
        s = .register c q ∨ d ≠ c ∧ q ∈ (m.world.coordinator d).lists := by
  cases h with
  | spared hlists hkept hlisted hcontinues => exact absurd rfl (hkept _ hq q)
  | swept c handed imports joined htold hhanded himports hothers hlists hjoined =>
    have hreleased : .release q ∈ m.world.releases c := by
      rw [htold, List.mem_append, List.mem_append] at hq
      rcases hq with hq | hq | hq
      · cases (hhanded _ hq).isLate
      · exact hq
      · exact absurd rfl ((himports _ hq).ne_release q)
    obtain ⟨hlisted, hdead⟩ := World.release_mem_releases.mp hreleased
    refine ⟨c, hlisted, hdead, fun d hd => ?_⟩
    by_cases hdc : d = c
    · subst hdc
      rcases List.mem_append.mp (hlists.subset hd) with hleft | hnew
      · exact absurd (World.mem_lists_sweptCoordinator.mp hleft).2 hdead
      · exact .inl (hjoined q (Option.mem_toList.mp hnew))
    · exact .inr ⟨hdc, hothers d hdc ▸ hd⟩

/-- A dead query that leaves a list is released. -/
theorem released (h : Tidied m s) {c : CoordinatorId} (hlisted : q ∈ (m.world.coordinator c).lists)
    (hdead : ¬ (m.world.query q).alive) (hleft : q ∉ ((m.perform s).world.coordinator c).lists) :
    .release q ∈ m.told s := by
  cases h with
  | spared hlists hkept hlisted' hcontinues => exact absurd (hlists c ▸ hlisted) hleft
  | swept d handed imports joined htold hhanded himports hothers hlists hjoined =>
    by_cases hc : c = d
    · subst hc
      rw [htold]
      exact List.mem_append_right _ (List.mem_append_left _
        (World.release_mem_releases.mpr ⟨hlisted, hdead⟩))
    · exact absurd (hothers c hc ▸ hlisted) hleft

/-- Whoever is listed was listed before, or has just been registered. -/
theorem listed_before (h : Tidied m s) {c : CoordinatorId}
    (hq : q ∈ ((m.perform s).world.coordinator c).lists) :
    q ∈ (m.world.coordinator c).lists ∨ s = .register c q := by
  cases h with
  | spared hlists hkept hlisted hcontinues => exact .inl (hlists c ▸ hq)
  | swept d handed imports joined htold hhanded himports hothers hlists hjoined =>
    by_cases hc : c = d
    · subst hc
      refine (List.mem_append.mp (hlists.subset hq)).imp (fun hleft => ?_) fun hnew => ?_
      · exact (World.mem_lists_sweptCoordinator.mp hleft).1
      · exact hjoined q (Option.mem_toList.mp hnew)
    · exact .inl (hothers c hc ▸ hq)

/-- What a section tells is in order, if nobody is listed twice. -/
theorem pairwise_told (h : Tidied m s) (hnodup : ∀ c, (m.world.coordinator c).lists.Nodup) :
    (m.told s).Pairwise Event.Allows := by
  have hkeep : ∀ events : List Event, (∀ e ∈ events, ∀ q, e ≠ .release q) →
      events.Pairwise Event.Allows := fun events hne =>
    List.pairwise_of_forall_mem_list fun e he e' _ => Event.allows_of_ne (hne e he) e'
  cases h with
  | spared hlists hkept hlisted hcontinues => exact hkeep _ hkept
  | swept c handed imports joined htold hhanded himports hothers hlists hjoined =>
    have hhands : ∀ e ∈ handed, ∀ q, e ≠ .release q := by
      rintro e he q rfl
      cases (hhanded _ he).isLate
    have hreleases : (m.world.releases c).Pairwise Event.Allows := by
      refine (World.nodup_releases (hnodup c)).imp_of_mem fun {e e'} _ he' hne q hq hq' => ?_
      -- two of them are releases of different queries
      obtain ⟨p, rfl⟩ := World.eq_release_of_mem_releases he'
      obtain rfl := Option.some_inj.mp hq'
      exact absurd hq hne
    rw [htold, List.pairwise_append, List.pairwise_append]
    refine ⟨hkeep _ hhands, ⟨hreleases, hkeep _ fun e he => (himports e he).ne_release, ?_⟩,
      fun e he e' _ => Event.allows_of_ne (hhands e he) e'⟩
    rintro e he e' he' q rfl hq
    -- whoever is released is dead, and whoever is imported is not
    have hdead := (World.release_mem_releases.mp he).2
    exact absurd (World.mem_lists_sweptCoordinator.mp ((himports e' he').mem hq)).2 hdead

/-- What is asked late is asked by a section that goes on with something. -/
theorem continues (h : Tidied m s) {e : Event} (he : e ∈ m.told s) (hlate : e.isLate) :
    s.Continues e := by
  cases h with
  | spared hlists hkept hlisted hcontinues => exact hcontinues e he hlate
  | swept c handed imports joined htold hhanded himports hothers hlists hjoined =>
    rw [htold, List.mem_append, List.mem_append] at he
    rcases he with he | he | he
    · exact hhanded e he
    · obtain ⟨p, rfl⟩ := World.eq_release_of_mem_releases he
      cases hlate
    · obtain ⟨p, -, rfl | ⟨v, rfl⟩⟩ := himports e he <;> cases hlate

theorem due_of_called (h : Tidied m s) (hallowed : m.AllowsDue s) (hq : .callbacks q ∈ m.told s) :
    ∃ e ∈ m.world.trace, e.due? = some q := by
  cases h.continues hq rfl
  exact hallowed

/-- Nobody is listed twice, if a query is registered only once. -/
theorem nodup_lists (h : Tidied m s) (hnodup : ∀ c, (m.world.coordinator c).lists.Nodup)
    (hnew : ∀ c q, s = .register c q → q ∉ (m.world.coordinator c).lists) (c : CoordinatorId) :
    ((m.perform s).world.coordinator c).lists.Nodup := by
  cases h with
  | spared hlists hkept hlisted hcontinues => exact hlists c ▸ hnodup c
  | swept d handed imports joined htold hhanded himports hothers hlists hjoined =>
    by_cases hc : c = d
    · subst hc
      have hjoin : ((m.world.sweptCoordinator c).lists ++ joined.toList).Nodup := by
        refine (World.nodup_lists_sweptCoordinator (hnodup c)).append (by cases joined <;> simp) ?_
        intro q hq hjoins
        exact hnew c q (hjoined q (Option.mem_toList.mp hjoins))
          (World.mem_lists_sweptCoordinator.mp hq).1
      rw [List.nodup_iff_count_le_one] at hjoin ⊢
      exact fun q => Nat.le_trans (hlists.count_le q) (hjoin q)
    · exact hothers c hc ▸ hnodup c

end Tidied

/-! ## The invariant -/

/-- Nobody is listed twice; whoever was released is not listed and will not be; and the requests are
in order. -/
structure Farewell (m : Moment) : Prop where
  nodup : ∀ c, (m.world.coordinator c).lists.Nodup
  known : ∀ q, .release q ∈ m.world.trace → ∃ c, (q, c) ∈ m.registered
  gone : ∀ q, .release q ∈ m.world.trace → ∀ c, q ∉ (m.world.coordinator c).lists
  order : m.world.trace.Pairwise Event.Allows
  due : ∀ before q after, m.world.trace = before ++ .callbacks q :: after →
    ∃ e ∈ before, e.due? = some q

namespace Farewell

variable {m : Moment} {s : Section}

theorem start : Farewell .start where
  nodup _ := .nil
  known _ := nofun
  gone _ := nofun
  order := .nil
  due before q after h := by
    have hmem : .callbacks q ∈ before ++ .callbacks q :: after :=
      List.mem_append_right _ List.mem_cons_self
    rw [← h] at hmem
    cases hmem

/-- The step lemma. -/
theorem perform (h : Farewell m) (haccounted : Accounted m) (hallowed : m.AllowsDue s) :
    Farewell (m.perform s) := by
  have htidied := tidied m s
  have hfresh : ∀ c q, s = .register c q → ∀ d, (q, d) ∉ m.registered := by
    rintro c q rfl d hd
    exact hallowed.2 _ hd rfl
  have hreleased : ∀ q, .release q ∈ (m.perform s).world.trace →
      .release q ∈ m.world.trace ∨ .release q ∈ m.told s := by
    intro q hq
    rwa [m.trace_perform, List.mem_append] at hq
  constructor
  case nodup =>
    exact htidied.nodup_lists h.nodup fun c q hs hq => hfresh c q hs c (haccounted.listed q c hq)
  case known =>
    intro q hq
    rcases hreleased q hq with hold | hnew
    · obtain ⟨c, hc⟩ := h.known q hold
      exact ⟨c, (m.registered_perform s).subset hc⟩
    · obtain ⟨c, hlisted, -, -⟩ := htidied.of_released hnew
      exact ⟨c, (m.registered_perform s).subset (haccounted.listed q c hlisted)⟩
  case gone =>
    intro q hq d hd
    rcases hreleased q hq with hold | hnew
    · obtain ⟨c, hc⟩ := h.known q hold
      rcases htidied.listed_before hd with hlisted | hs
      · exact h.gone q hold d hlisted
      · exact hfresh d q hs c hc
    · obtain ⟨c, hlisted, -, hleft⟩ := htidied.of_released hnew
      have hc := haccounted.listed q c hlisted
      rcases hleft d hd with hs | ⟨hne, hother⟩
      · exact hfresh c q hs c hc
      · exact hne (haccounted.once q d c (haccounted.listed q d hother) hc)
  case order =>
    rw [m.trace_perform, List.pairwise_append]
    refine ⟨h.order, htidied.pairwise_told h.nodup, ?_⟩
    rintro e he e' he' q rfl hq
    exact htidied.isLate_of_not_listed he' hq (h.gone q he)
  case due =>
    intro before q after htrace
    rw [m.trace_perform] at htrace
    rcases List.append_eq_append_iff.mp htrace with ⟨rest, hbefore, htold⟩ | ⟨rest, hold, hafter⟩
    · -- the callbacks are called now
      obtain ⟨e, he, hdue⟩ := htidied.due_of_called hallowed
        (htold ▸ List.mem_append_right _ List.mem_cons_self)
      exact ⟨e, hbefore ▸ List.mem_append_left _ he, hdue⟩
    · cases rest with
      | nil =>
        rw [List.append_nil] at hold
        rw [List.nil_append] at hafter
        exact hold ▸ htidied.due_of_called hallowed (hafter ▸ List.mem_cons_self)
      | cons e rest =>
        obtain ⟨rfl, -⟩ := List.cons.inj hafter
        exact h.due before q rest hold

/-- A cycle runs none of the queries that are released by the time it has begun. -/
theorem not_mem_begun (h : Farewell (m.perform s)) {q : QueryId}
    (hq : .release q ∈ (m.perform s).world.trace) :
    ∃ new, (m.perform s).begun = m.begun ++ new ∧ ∀ p ∈ new, q ∉ p.2.queries := by
  have hidle : (m.perform s).begun = m.begun →
      ∃ new, (m.perform s).begun = m.begun ++ new ∧ ∀ p ∈ new, q ∉ p.2.queries :=
    fun hsame => ⟨[], hsame.trans (List.append_nil _).symm, nofun⟩
  cases s with
  | register c p =>
    refine hidle ?_
    dsimp only [Moment.perform]
    split <;> rfl
  | beginCycle c =>
    obtain ⟨w', outcome, hrun, houtcome⟩ := Step.run_beginCycle c m.world
    have hworld : (m.perform (.beginCycle c)).world = w' := Moment.world_beginCycle hrun
    rcases outcome with failure | _ | cycle
    · exact hidle (by dsimp only [Moment.perform]; rw [hrun])
    · exact hidle (by dsimp only [Moment.perform]; rw [hrun])
    · refine ⟨[(c, cycle)], by dsimp only [Moment.perform]; rw [hrun], fun p hp hmem => ?_⟩
      obtain rfl := List.mem_singleton.mp hp
      rw [(lists_of_begun houtcome).2.2.2, ← hworld] at hmem
      exact h.gone q hq c (List.mem_append_left _ hmem)
  | _ => exact hidle rfl

/-- The run lemma. -/
theorem after {sections : List Section} (hallowed : m.Follows Moment.AllowsDue sections)
    (haccounted : Accounted m) (h : Farewell m) :
    Accounted (m.after sections) ∧ Farewell (m.after sections) :=
  hallowed.preserves (I := fun m => Accounted m ∧ Farewell m)
    (fun _ s hs ⟨haccounted, h⟩ => ⟨haccounted.perform s hs.allows, h.perform haccounted hs⟩)
    ⟨haccounted, h⟩

/-- No cycle that begins after a release runs the query that was released. -/
theorem begun_after {sections : List Section} (hallowed : m.Follows Moment.AllowsDue sections)
    (haccounted : Accounted m) (h : Farewell m) {q : QueryId} (hq : .release q ∈ m.world.trace) :
    ∃ new, (m.after sections).begun = m.begun ++ new ∧ ∀ p ∈ new, q ∉ p.2.queries := by
  let I : Moment → Prop := fun m' => Accounted m' ∧ Farewell m' ∧ .release q ∈ m'.world.trace ∧
    ∃ new, m'.begun = m.begun ++ new ∧ ∀ p ∈ new, q ∉ p.2.queries
  have hstep : ∀ m' s, m'.AllowsDue s → I m' → I (m'.perform s) := by
    rintro m' s hs ⟨haccounted', h', hq', new, hbegun, hnew⟩
    have hkept : .release q ∈ (m'.perform s).world.trace := by
      rw [m'.trace_perform]
      exact List.mem_append_left _ hq'
    have hnext := h'.perform haccounted' hs
    obtain ⟨more, hmore, hnot⟩ := hnext.not_mem_begun hkept
    refine ⟨haccounted'.perform s hs.allows, hnext, hkept, new ++ more, ?_, fun p hp => ?_⟩
    · rw [hmore, hbegun, List.append_assoc]
    · exact (List.mem_append.mp hp).elim (hnew p) (hnot p)
  have hm : I m := ⟨haccounted, h, hq, [], (List.append_nil _).symm, nofun⟩
  exact (hallowed.preserves hstep hm).2.2.2

/-- What a released query is asked for, except its callbacks, is asked by a cycle it is in. -/
theorem begun_of_told (h : Farewell m) (hallowed : m.AllowsDue s) {q : QueryId}
    (hq : .release q ∈ m.world.trace) {e : Event} (he : e ∈ m.told s) (hasked : e.query? = some q) :
    e = .callbacks q ∨ ∃ p ∈ m.begun, q ∈ p.2.queries ∧
      (e = .run q p.2.changes ∨ ∃ version, e = .handOver q version) := by
  have htidied := tidied m s
  have hlate := htidied.isLate_of_not_listed he hasked (h.gone q hq)
  cases htidied.continues he hlate with
  | callbacks p =>
    obtain rfl := Option.some_inj.mp hasked
    exact .inl rfl
  | run changes p =>
    obtain rfl := Option.some_inj.mp hasked
    obtain ⟨cycle, hcycle, rfl, hrun⟩ := hallowed
    exact .inr ⟨cycle, hcycle, hrun, .inl rfl⟩
  | handOver c version hrun =>
    obtain rfl := Option.some_inj.mp hasked
    obtain ⟨cycle, hcycle, -, rfl⟩ := hallowed
    exact .inr ⟨cycle, hcycle, hrun, .inr ⟨version, rfl⟩⟩

theorem released_once (h : Farewell m) (q : QueryId) :
    m.world.trace.count (.release q) ≤ 1 := by
  refine Nat.le_of_not_lt fun htwo => ?_
  have htwice := h.order.sublist (List.replicate_sublist_iff.mpr htwo)
  -- the second release would have to be late
  have hlate := (List.pairwise_cons.mp htwice).1 (.release q) List.mem_cons_self q rfl rfl
  cases hlate

/-- What is asked of a query after it was released. -/
theorem late (h : Farewell m) {q : QueryId} {before after : List Event}
    (htrace : m.world.trace = before ++ .release q :: after) {e : Event} (he : e ∈ after)
    (hq : e.query? = some q) :
    (∃ changes, e = .run q changes) ∨ (∃ version, e = .handOver q version) ∨
      e = .callbacks q ∧ ∃ e' ∈ before, e'.due? = some q := by
  have horder := h.order
  rw [htrace, List.pairwise_append, List.pairwise_cons] at horder
  have hlate : ∀ e' ∈ after, e'.query? = some q → e'.isLate := fun e' he' =>
    horder.2.1.1 e' he' q rfl
  have hlate' := hlate e he hq
  cases e with
  | run p changes =>
    obtain rfl := Option.some_inj.mp hq
    exact .inl ⟨changes, rfl⟩
  | handOver p version =>
    obtain rfl := Option.some_inj.mp hq
    exact .inr (.inl ⟨version, rfl⟩)
  | callbacks p =>
    obtain rfl := Option.some_inj.mp hq
    refine .inr (.inr ⟨rfl, ?_⟩)
    obtain ⟨between, rest, rfl⟩ := List.append_of_mem he
    obtain ⟨e', he', hdue⟩ := h.due (before ++ .release p :: between) p rest
      (by rw [htrace, List.append_assoc]; rfl)
    have hasked : e'.query? = some p ∧ e'.isLate = false := by
      cases e' with
      | deliver r i v failure isDue =>
        cases isDue with
        | false => cases hdue
        | true => exact ⟨hdue, rfl⟩
      | _ => cases hdue
    -- a delivery is not late, so this one was made before the release
    rcases List.mem_append.mp he' with hbefore | hsince
    · exact ⟨e', hbefore, hdue⟩
    · rcases List.mem_cons.mp hsince with rfl | hsince
      · cases hdue
      · have hcontra := hlate e' (List.mem_append_left _ hsince) hasked.1
        rw [hasked.2] at hcontra
        cases hcontra
  | _ => cases hlate'

end Farewell

/-! ## Whatever overlaps -/

/-- **A released query is let go for good.** Let every query be registered once, and callbacks be
called where a delivery has said that they are due; cycles, registrations and deaths may overlap in
any way. Then a query is released at most once, by the section in which it leaves a list because it
is dead. What it is asked for after that is to run or to hand over, by a cycle that had begun before,
or to call its callbacks, for a delivery that was made before. -/
theorem released_for_good {sections : List Section}
    (hallowed : Moment.start.Follows Moment.AllowsDue sections) (q : QueryId) :
    let last := Moment.start.after sections
    last.world.trace.count (.release q) ≤ 1 ∧
    (∀ before after, last.world.trace = before ++ .release q :: after →
      ∀ e ∈ after, e.query? = some q →
        (∃ changes, e = .run q changes) ∨ (∃ version, e = .handOver q version) ∨
          e = .callbacks q ∧ ∃ e' ∈ before, e'.due? = some q) ∧
    ∀ done s rest, sections = done ++ s :: rest →
      let m := Moment.start.after done
      (.release q ∈ m.told s ↔ ∃ c, q ∈ (m.world.coordinator c).lists ∧
        ¬ (m.world.query q).alive ∧ q ∉ ((m.perform s).world.coordinator c).lists) ∧
      (.release q ∈ m.told s → (∀ p ∈ last.begun.drop m.begun.length, q ∉ p.2.queries) ∧
        ∀ since s' rest', rest = since ++ s' :: rest' →
          ∀ e ∈ ((m.perform s).after since).told s', e.query? = some q →
            e = .callbacks q ∨ ∃ p ∈ m.begun, q ∈ p.2.queries ∧
              (e = .run q p.2.changes ∨ ∃ version, e = .handOver q version)) := by
  intro last
  obtain ⟨-, hlast⟩ := Farewell.start.after hallowed .start
  refine ⟨hlast.released_once q, fun before after htrace e he hq => hlast.late htrace he hq, ?_⟩
  rintro done s rest rfl m
  obtain ⟨hdone, hs, hrest⟩ := hallowed.of_append
  obtain ⟨haccounted, hm⟩ := Farewell.start.after hdone .start
  have haccounted' := haccounted.perform s hs.allows
  have hm' := hm.perform haccounted hs
  have hgone : .release q ∈ m.told s → .release q ∈ (m.perform s).world.trace := by
    intro hq
    rw [m.trace_perform]
    exact List.mem_append_right _ hq
  -- the cycles that have begun since then, up to any moment after the release
  have hsince : .release q ∈ m.told s → ∀ since, (m.perform s).Follows Moment.AllowsDue since →
      ∃ new, ((m.perform s).after since).begun = m.begun ++ new ∧ ∀ p ∈ new, q ∉ p.2.queries := by
    intro hq since hfollows
    obtain ⟨new, hnew, hnot⟩ := hm'.not_mem_begun (hgone hq)
    obtain ⟨more, hmore, hnot'⟩ := hm'.begun_after hfollows haccounted' (hgone hq)
    refine ⟨new ++ more, by rw [hmore, hnew, List.append_assoc], fun p hp => ?_⟩
    exact (List.mem_append.mp hp).elim (hnot p) (hnot' p)
  -- when it is released; which cycles have it after that; and what they still ask of it
  refine ⟨⟨fun hq => ?_, fun ⟨c, hlisted, hdead, hleft⟩ => ?_⟩, fun hq => ⟨?_, ?_⟩⟩
  · obtain ⟨c, hlisted, hdead, -⟩ := (tidied m s).of_released hq
    exact ⟨c, hlisted, hdead, hm'.gone q (hgone hq) c⟩
  · exact (tidied m s).released hlisted hdead hleft
  · obtain ⟨new, hnew, hnot⟩ := hsince hq rest hrest
    have hbegun : last.begun = m.begun ++ new := by
      show (Moment.start.after (done ++ s :: rest)).begun = _
      rw [Moment.after_append]
      exact hnew
    rw [hbegun, List.drop_left]
    exact hnot
  · rintro since s' rest' rfl e he hasked
    obtain ⟨hfollows, hs', -⟩ := hrest.of_append
    obtain ⟨-, hm''⟩ := hm'.after hfollows haccounted'
    have hkept : .release q ∈ ((m.perform s).after since).world.trace :=
      Moment.Precedes.trace ⟨since, hfollows.mono fun _ _ => Moment.AllowsDue.allows, rfl⟩ (hgone hq)
    refine (hm''.begun_of_told hs' hkept he hasked).imp_right fun ⟨p, hp, hrun, hevent⟩ => ?_
    obtain ⟨new, hnew, hnot⟩ := hsince hq since hfollows
    rw [hnew, List.mem_append] at hp
    exact ⟨p, hp.resolve_right fun hlater => hnot p hlater hrun, hrun, hevent⟩

/-- Two queries are registered. -/
def twoWaiting : List Section :=
  [.chore .makeEngine, .chore .makeRegistry, .chore (.getCoordinator 0 "/a"),
    .chore (.getHandle 0 none (.forFile "/a" 0)),
    .chore (.makeQuery (some (.forFile "/a" 0)) [] ⟨1, 0⟩), .register 0 0,
    .chore (.makeQuery (some (.forFile "/a" 0)) [] ⟨1, 0⟩), .register 0 1]

/-- Both are run and deliver; the callbacks of the first one kill the second and make another cycle
begin, before the callbacks of the second are called. -/
def killedByCallbacks : List Section :=
  twoWaiting ++ [.beginCycle 0, .startRun .empty 0, .chore (.concludeRun 0), .startRun .empty 1,
    .chore (.concludeRun 1), .concludeCycle 0 [0, 1], .chore (.settle 0 0),
    .chore (.tellCallbacks 0), .kill 1, .beginCycle 0, .startRun .empty 0, .chore (.concludeRun 0),
    .concludeCycle 0 [0], .chore (.tellCallbacks 1)]

/-- The second query is released once, by the second cycle, which does not run it; its callbacks are
called after that, and they were due before. -/
theorem released_for_good_killedByCallbacks :
    let last := Moment.start.after killedByCallbacks
    Moment.start.Follows Moment.AllowsDue killedByCallbacks ∧
      last.world.trace.count (.release 1) = 1 ∧
      (∃ before after, last.world.trace = before ++ .release 1 :: after ∧ .callbacks 1 ∈ after ∧
        ∃ e ∈ before, e.due? = some 1) ∧
      last.begun.length = 2 ∧ ∀ p ∈ last.begun.drop 1, 1 ∉ p.2.queries := by
  intro last
  have hallowed : Moment.start.Follows Moment.AllowsDue killedByCallbacks := by decide +kernel
  obtain ⟨honce, hlate, hsections⟩ := released_for_good hallowed 1
  obtain ⟨-, hsince⟩ := hsections (killedByCallbacks.take 17) (.beginCycle 0)
    (killedByCallbacks.drop 18) (by decide +kernel)
  have hlater := (hsince (by decide +kernel)).1
  rw [show (Moment.start.after (killedByCallbacks.take 17)).begun.length = 1 by decide +kernel]
    at hlater
  have htrace : last.world.trace = last.world.trace.take 13 ++ .release 1 ::
      last.world.trace.drop 14 := by decide +kernel
  have hcalled : .callbacks 1 ∈ last.world.trace.drop 14 := by decide +kernel
  refine ⟨hallowed, Nat.le_antisymm honce (by decide +kernel), ⟨_, _, htrace, hcalled, ?_⟩,
    by decide +kernel, hlater⟩
  rcases hlate _ _ htrace _ hcalled rfl with ⟨changes, heq⟩ | ⟨version, heq⟩ | ⟨-, hdue⟩
  · cases heq
  · cases heq
  · exact hdue

/-- The first query kills the second one when it is run, and makes another cycle begin. -/
def cyclingOnce (callback : Callback) (w : World) : World :=
  if callback = .run 0 ∧ (w.query 1).alive then
    ((Action.onChange 0).quietly (w.onQuery 1 ({ · with alive := false }))).1
  else w

/-- Not everything is over for a query when it is released: the cycle that was running goes on to run
it and has it hand over. -/
theorem exists_run_after_release :
    ¬ ∀ (client : Callback → World → World) (sections : List Section) (c : CoordinatorId)
      (q : QueryId),
      (∀ callback (m : Moment), ∃ m', m.Makes m' ∧ m'.world = client callback m.world) →
      Moment.start.Follows Moment.AllowsDue sections →
      let w := (((Action.onChange c).begin (Moment.start.after sections).world).finish client).1
      ∀ before after, w.trace = before ++ .release q :: after →
        ∀ e ∈ after, e.query? ≠ some q := by
  intro hall
  have hclient : ∀ callback (m : Moment), ∃ m', m.Makes m' ∧
      m'.world = cyclingOnce callback m.world := by
    intro callback m
    unfold cyclingOnce
    split
    · have hkill : m.AllowsDue (.kill 1) := trivial
      let silent : Callback → World → World := fun _ w => w
      have hsilent : ∀ callback (m : Moment), ∃ m', m.Makes m' ∧
          m'.world = silent callback m.world := fun _ m => ⟨m, .refl m, rfl⟩
      obtain ⟨m', hmakes, hworld⟩ :=
        (Action.sectioned_onChange 0 (m.perform (.kill 1))).finish_due hsilent
      exact ⟨m', (Moment.Makes.perform hkill).trans hmakes, hworld⟩
    · exact ⟨m, .refl m, rfl⟩
  let w := (((Action.onChange 0).begin (Moment.start.after twoWaiting).world).finish cyclingOnce).1
  have htrace : w.trace = w.trace.take 7 ++ .release 1 :: w.trace.drop 8 := by decide +kernel
  have hrun : .run 1 .empty ∈ w.trace.drop 8 := by decide +kernel
  exact hall cyclingOnce twoWaiting 0 1 hclient (by decide +kernel) _ _ htrace _ hrun rfl

end SnapshotCoordination
