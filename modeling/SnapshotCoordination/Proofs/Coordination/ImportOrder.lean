import Mathlib.Data.List.Perm.Basic
import SnapshotCoordination.Coordination.Pipeline

/-!
# The order of an import

The waiting queries of a coordinator by ascending version, cut at the latest version of the file:
`World.ready` are the ones that a cycle imports, `World.deferred` the ones that are ahead and go on
waiting. Sorting loses none, and the cut is where the versions say it is (`mem_ready`,
`mem_deferred`, `ready_append_deferred_perm`).
-/

namespace SnapshotCoordination

/-- In a list in which the predicate, once it fails, goes on failing, the first entries that
satisfy it are all that do. -/
theorem takeWhile_eq_filter {α : Type} {p : α → Bool} {xs : List α}
    (h : xs.Pairwise fun a b => p b → p a) : xs.takeWhile p = xs.filter p := by
  induction xs with
  | nil => rfl
  | cons x xs ih =>
    obtain ⟨hx, hxs⟩ := List.pairwise_cons.mp h
    cases hp : p x with
    | true => rw [List.takeWhile_cons_of_pos hp, List.filter_cons_of_pos hp, ih hxs]
    | false =>
      rw [List.takeWhile_cons_of_neg (by simp [hp]), List.filter_cons_of_neg (by simp [hp])]
      refine (List.filter_eq_nil_iff.mpr fun y hy hpy => ?_).symm
      simp [hx y hy hpy] at hp

theorem dropWhile_eq_filter {α : Type} {p : α → Bool} {xs : List α}
    (h : xs.Pairwise fun a b => p b → p a) : xs.dropWhile p = xs.filter (!p ·) := by
  induction xs with
  | nil => rfl
  | cons x xs ih =>
    obtain ⟨hx, hxs⟩ := List.pairwise_cons.mp h
    cases hp : p x with
    | true =>
      rw [List.dropWhile_cons_of_pos hp, List.filter_cons_of_neg (by simp [hp]), ih hxs]
    | false =>
      rw [List.dropWhile_cons_of_neg (by simp [hp]), List.filter_eq_self.mpr]
      intro y hy
      rcases List.mem_cons.mp hy with rfl | hy
      · simp [hp]
      · cases hpy : p y with
        | true => simp [hx y hy hpy] at hp
        | false => rfl

namespace World

variable (w : World)

/-! ## Sorting -/

theorem placeByVersion_perm (q : QueryId) (sorted : List QueryId) :
    (w.placeByVersion q sorted).Perm (q :: sorted) := by
  induction sorted with
  | nil => exact .refl _
  | cons p rest ih =>
    unfold placeByVersion
    split
    · exact (ih.cons p).trans (.swap q p rest)
    · exact .refl _

/-- The versions of a list of queries ascend. -/
def Ascends (queries : List QueryId) : Prop :=
  queries.Pairwise fun p q => (w.query p).version ≤ (w.query q).version

theorem ascends_placeByVersion {q : QueryId} {sorted : List QueryId} (h : w.Ascends sorted) :
    w.Ascends (w.placeByVersion q sorted) := by
  induction sorted with
  | nil => exact List.pairwise_singleton _ q
  | cons p rest ih =>
    obtain ⟨hp, hrest⟩ := List.pairwise_cons.mp h
    unfold placeByVersion
    split
    · next hle =>
      refine List.pairwise_cons.mpr ⟨fun r hr => ?_, ih hrest⟩
      rcases List.mem_cons.mp ((w.placeByVersion_perm q rest).mem_iff.mp hr) with rfl | hr
      · exact hle
      · exact hp r hr
    · next hlt =>
      have hle : (w.query q).version ≤ (w.query p).version :=
        Version.le_of_lt (Version.not_le.mp hlt)
      refine List.pairwise_cons.mpr ⟨fun r hr => ?_, h⟩
      rcases List.mem_cons.mp hr with rfl | hr
      · exact hle
      · exact Version.le_trans hle (hp r hr)

theorem foldl_placeByVersion (queries sorted : List QueryId) (h : w.Ascends sorted) :
    (queries.foldl (fun sorted q => w.placeByVersion q sorted) sorted).Perm (sorted ++ queries) ∧
      w.Ascends (queries.foldl (fun sorted q => w.placeByVersion q sorted) sorted) := by
  induction queries generalizing sorted with
  | nil => exact ⟨by rw [List.append_nil]; exact .refl _, h⟩
  | cons q queries ih =>
    obtain ⟨hperm, hascends⟩ := ih (w.placeByVersion q sorted) (w.ascends_placeByVersion h)
    refine ⟨hperm.trans ?_, hascends⟩
    calc w.placeByVersion q sorted ++ queries
      List.Perm _ (q :: sorted ++ queries) := (w.placeByVersion_perm q sorted).append_right queries
      List.Perm _ (sorted ++ q :: queries) := List.perm_middle.symm

theorem sortByVersion_perm (queries : List QueryId) :
    (w.sortByVersion queries).Perm queries := (w.foldl_placeByVersion queries [] .nil).1

theorem ascends_sortByVersion (queries : List QueryId) : w.Ascends (w.sortByVersion queries) :=
  (w.foldl_placeByVersion queries [] .nil).2

/-- The order depends on nothing but the queries. -/
theorem sortByVersion_congr {w w' : World} (h : w'.queries = w.queries) (queries : List QueryId) :
    w'.sortByVersion queries = w.sortByVersion queries := by
  have hplace : ∀ q sorted, w'.placeByVersion q sorted = w.placeByVersion q sorted := by
    intro q sorted
    induction sorted with
    | nil => rfl
    | cons p rest ih =>
      unfold placeByVersion query
      rw [h, ih]
  unfold sortByVersion
  simp only [hplace]

/-! ## The cut -/

variable (c : CoordinatorId) (latest : Version)

/-- The waiting queries that are not ahead of a version, in the order of their import. -/
def ready : List QueryId :=
  (w.sortByVersion (w.coordinator c).newQueries).takeWhile fun q => (w.query q).version ≤ latest

/-- The waiting queries that are ahead of a version. -/
def deferred : List QueryId :=
  (w.sortByVersion (w.coordinator c).newQueries).dropWhile fun q => (w.query q).version ≤ latest

theorem ready_append_deferred_perm :
    (w.ready c latest ++ w.deferred c latest).Perm (w.coordinator c).newQueries := by
  unfold ready deferred
  rw [List.takeWhile_append_dropWhile]
  exact w.sortByVersion_perm _

theorem ascends_ready : w.Ascends (w.ready c latest) :=
  (w.ascends_sortByVersion _).sublist (List.takeWhile_sublist _)

theorem once_ahead (queries : List QueryId) : (w.sortByVersion queries).Pairwise fun p q =>
    decide ((w.query q).version ≤ latest) → decide ((w.query p).version ≤ latest) := by
  refine (w.ascends_sortByVersion queries).imp fun hle hq => ?_
  rw [decide_eq_true_eq] at hq ⊢
  exact Version.le_trans hle hq

theorem ready_perm : (w.ready c latest).Perm
    ((w.coordinator c).newQueries.filter fun q => (w.query q).version ≤ latest) := by
  unfold ready
  rw [takeWhile_eq_filter (w.once_ahead latest _)]
  exact (w.sortByVersion_perm _).filter _

theorem deferred_perm : (w.deferred c latest).Perm
    ((w.coordinator c).newQueries.filter fun q => !decide ((w.query q).version ≤ latest)) := by
  unfold deferred
  rw [dropWhile_eq_filter (w.once_ahead latest _)]
  exact (w.sortByVersion_perm _).filter _

theorem mem_ready {q : QueryId} : q ∈ w.ready c latest ↔
    q ∈ (w.coordinator c).newQueries ∧ (w.query q).version ≤ latest := by
  rw [(w.ready_perm c latest).mem_iff, List.mem_filter, decide_eq_true_eq]

theorem mem_deferred {q : QueryId} : q ∈ w.deferred c latest ↔
    q ∈ (w.coordinator c).newQueries ∧ latest < (w.query q).version := by
  rw [(w.deferred_perm c latest).mem_iff, List.mem_filter, Bool.not_eq_true',
    decide_eq_false_iff_not, Version.not_le]

theorem ready_of_nil (h : (w.coordinator c).newQueries = []) : w.ready c latest = [] := by
  unfold ready
  rw [h]
  rfl

theorem deferred_of_nil (h : (w.coordinator c).newQueries = []) : w.deferred c latest = [] := by
  unfold deferred
  rw [h]
  rfl

end World

end SnapshotCoordination
