import Mathlib.Data.List.Perm.Basic
import SnapshotCoordination.Coordination.Sweep

/-!
# What a sweep keeps

A sweep moves entries around, but it neither loses nor doubles one: what is left are the entries
that are not dead, and what was taken out are the dead ones, each as often as it was there
(`sweep_kept_perm`, `sweep_removed_perm`).
-/

namespace SnapshotCoordination

variable {α : Type} {dead : α → Bool}

namespace Sweep

theorem lastFirst_perm (xs : List α) : (lastFirst xs).Perm xs := by
  unfold lastFirst
  split
  · next last hlast =>
    have hsplit := List.dropLast_append_getLast? last (Option.mem_def.mpr hlast)
    calc last :: xs.dropLast
      List.Perm _ (xs.dropLast ++ [last]) := @List.perm_append_comm _ [last] _
      List.Perm _ xs := by rw [hsplit]
  · next hnone =>
    rw [List.getLast?_eq_none_iff] at hnone
    rw [hnone]

/-- Looking at as many entries as there are, a sweep sorts the dead ones out. -/
theorem upTo_perm (n : Nat) (xs : List α) (h : xs.length ≤ n) :
    (upTo dead n xs).1.Perm (xs.filter (!dead ·)) ∧ (upTo dead n xs).2.Perm (xs.filter dead) := by
  induction n generalizing xs with
  | zero =>
    rw [List.length_eq_zero_iff.mp (Nat.le_zero.mp h)]
    exact ⟨.nil, .nil⟩
  | succ n ih =>
    cases xs with
    | nil => exact ⟨.nil, .nil⟩
    | cons x xs =>
      have hlen : xs.length ≤ n := Nat.le_of_succ_le_succ h
      unfold upTo
      cases hdead : dead x with
      | true =>
        have hmoved := lastFirst_perm xs
        obtain ⟨hkept, hremoved⟩ := ih (lastFirst xs) (hmoved.length_eq ▸ hlen)
        rw [if_pos rfl, List.filter_cons_of_neg (by simp [hdead]), List.filter_cons_of_pos hdead]
        exact ⟨hkept.trans (hmoved.filter _), (hremoved.trans (hmoved.filter _)).cons x⟩
      | false =>
        obtain ⟨hkept, hremoved⟩ := ih xs hlen
        rw [if_neg Bool.false_ne_true, List.filter_cons_of_pos (by simp [hdead]),
          List.filter_cons_of_neg (by simp [hdead])]
        exact ⟨hkept.cons x, hremoved⟩

end Sweep

/-- What a sweep leaves are the entries that are not dead. -/
theorem sweep_kept_perm (dead : α → Bool) (xs : List α) :
    (sweep dead xs).1.Perm (xs.filter (!dead ·)) := (Sweep.upTo_perm _ xs (Nat.le_refl _)).1

/-- What a sweep takes out are the entries that are dead. -/
theorem sweep_removed_perm (dead : α → Bool) (xs : List α) :
    (sweep dead xs).2.Perm (xs.filter dead) := (Sweep.upTo_perm _ xs (Nat.le_refl _)).2

theorem mem_sweep_kept {xs : List α} {x : α} :
    x ∈ (sweep dead xs).1 ↔ x ∈ xs ∧ dead x = false := by
  rw [(sweep_kept_perm dead xs).mem_iff, List.mem_filter, Bool.not_eq_true']

/-- A sweep leaves an entry as often as it was there, unless it is dead. -/
theorem count_sweep_kept [BEq α] [LawfulBEq α] (xs : List α) (x : α) :
    (sweep dead xs).1.count x = if dead x then 0 else xs.count x := by
  rw [(sweep_kept_perm dead xs).count_eq]
  cases hdead : dead x with
  | true =>
    rw [if_pos rfl]
    exact List.count_eq_zero.mpr fun h => by simp [hdead] at h
  | false =>
    rw [if_neg Bool.false_ne_true]
    exact List.count_filter (by rw [hdead]; rfl)

end SnapshotCoordination
