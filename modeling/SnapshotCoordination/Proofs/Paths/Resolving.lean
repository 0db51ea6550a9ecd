import Mathlib.Data.List.Basic
import Mathlib.Logic.Relation
import SnapshotCoordination.FilePath

/-!
# Resolving a path

Reading the components of a path one after the other is one way to cancel them. This module says
what cancelling is without an order, and that every order ends at the same components:

* **one cancellation** — `Cancels`: an ordinary component goes with the `..` behind it, and at
  the root a `..` in front goes alone;
* **nothing left to cancel** — `Settled`: a `..` stands only behind others, and none stands at
  the root. What is pushed on settled components is settled again (`Settled.push`), and settled
  components are read back unchanged (`Settled.foldl_push`);
* **one outcome** — `remains_iff`: from any components, cancelling for as long as something can
  be cancelled ends at the components that `push` leaves.
-/

namespace SnapshotCoordination

namespace FilePath

variable {absolute : Bool} {w : Component} {trail ws zs rs : List Component}

/-! ## One cancellation -/

/-- One cancellation in the components of a path. -/
inductive Cancels (absolute : Bool) : List Component → List Component → Prop
  | pair {xs ys : List Component} {w : Component} (hw : w ≠ up) :
      Cancels absolute (xs ++ w :: up :: ys) (xs ++ ys)
  | atRoot {ys : List Component} (h : absolute = true) : Cancels absolute (up :: ys) ys

/-- `rs` is left of `ws` when nothing can be cancelled any more. -/
def Remains (absolute : Bool) (ws rs : List Component) : Prop :=
  Relation.ReflTransGen (Cancels absolute) ws rs ∧ ∀ zs, ¬ Cancels absolute rs zs

theorem push_ordinary (hw : w ≠ up) : push absolute trail w = w :: trail := if_neg hw

theorem push_up (hw : w ≠ up) : push absolute (w :: trail) up = trail := by
  simp only [push, if_true, if_neg hw]

theorem push_up_up : push absolute (up :: trail) up = up :: up :: trail := by
  simp only [push, if_true]

/-- Nothing but the component itself is added to the components so far. -/
theorem mem_push {x : Component} (h : x ∈ push absolute trail w) : x = w ∨ x ∈ trail := by
  by_cases hw : w = up
  · subst hw
    cases trail with
    | nil => cases absolute <;> simp_all [push]
    | cons last rest =>
      by_cases hlast : last = up
      · subst hlast
        rw [push_up_up] at h
        exact List.mem_cons.mp h
      · rw [push_up hlast] at h
        exact .inr (List.mem_cons_of_mem last h)
  · rw [push_ordinary hw] at h
    exact List.mem_cons.mp h

theorem mem_foldl_push {x : Component} (h : x ∈ ws.foldl (push absolute) trail) :
    x ∈ ws ∨ x ∈ trail := by
  induction ws generalizing trail with
  | nil => exact .inr h
  | cons w ws ih =>
    rcases ih h with hws | hpush
    · exact .inl (List.mem_cons_of_mem w hws)
    · rcases mem_push hpush with rfl | htrail
      · exact .inl List.mem_cons_self
      · exact .inr htrail

/-- What is cancelled makes no difference to the components that are left, -/
theorem Cancels.foldl_push (h : Cancels absolute ws zs) :
    ws.foldl (push absolute) [] = zs.foldl (push absolute) [] := by
  cases h with
  | pair hw =>
    rw [List.foldl_append, List.foldl_cons, List.foldl_cons, push_ordinary hw, push_up hw,
      ← List.foldl_append]
  | atRoot habs => subst habs; rfl

/-- and reading component by component only cancels. -/
theorem cancels_foldl_push : Relation.ReflTransGen (Cancels absolute) (trail.reverse ++ ws)
    (ws.foldl (push absolute) trail).reverse := by
  induction ws generalizing trail with
  | nil => rw [List.append_nil]; exact .refl
  | cons w ws ih =>
    have hkept : push absolute trail w = w :: trail →
        Relation.ReflTransGen (Cancels absolute) (trail.reverse ++ w :: ws)
          ((w :: ws).foldl (push absolute) trail).reverse := fun heq => by
      rw [List.foldl_cons, heq, List.append_cons, ← List.reverse_cons]
      exact ih
    by_cases hw : w = up
    · subst hw
      cases trail with
      | nil =>
        cases absolute with
        | false => exact hkept rfl
        | true => exact .head (.atRoot rfl) (@ih [])
      | cons last rest =>
        by_cases hlast : last = up
        · subst hlast
          exact hkept push_up_up
        · rw [List.foldl_cons, push_up hlast, List.reverse_cons, ← List.append_cons]
          exact .head (.pair hlast) ih
    · exact hkept (push_ordinary hw)

/-! ## Nothing left to cancel -/

/-- The components so far, last one first, in which nothing can be cancelled. -/
structure Settled (absolute : Bool) (trail : List Component) : Prop where
  leading : trail.Pairwise fun later earlier => later = up → earlier = up
  grounded : absolute = true → up ∉ trail

theorem settled_nil : Settled absolute [] := ⟨.nil, fun _ => List.not_mem_nil⟩

namespace Settled

theorem tail {last : Component} (h : Settled absolute (last :: trail)) : Settled absolute trail :=
  ⟨h.leading.of_cons, fun habs hmem => h.grounded habs (List.mem_cons_of_mem _ hmem)⟩

theorem drop (h : Settled absolute (ws ++ trail)) : Settled absolute trail :=
  ⟨(List.pairwise_append.mp h.leading).2.1,
    fun habs hmem => h.grounded habs (List.mem_append_right _ hmem)⟩

theorem ordinary (h : Settled absolute trail) (hw : w ≠ up) : Settled absolute (w :: trail) where
  leading := List.pairwise_cons.mpr ⟨fun _ _ heq => absurd heq hw, h.leading⟩
  grounded habs hmem := by
    rcases List.mem_cons.mp hmem with heq | hmem
    · exact hw heq.symm
    · exact h.grounded habs hmem

theorem climb (h : Settled absolute (up :: trail)) : Settled absolute (up :: up :: trail) where
  leading := by
    refine List.pairwise_cons.mpr ⟨fun earlier hmem _ => ?_, h.leading⟩
    rcases List.mem_cons.mp hmem with heq | hmem
    · exact heq
    · exact (List.pairwise_cons.mp h.leading).1 earlier hmem rfl
  grounded habs := absurd List.mem_cons_self (h.grounded habs)

theorem push (h : Settled absolute trail) (w : Component) :
    Settled absolute (push absolute trail w) := by
  by_cases hw : w = up
  · subst hw
    cases trail with
    | nil =>
      cases absolute with
      | false => exact ⟨List.pairwise_singleton _ _, Bool.noConfusion⟩
      | true => exact settled_nil
    | cons last rest =>
      by_cases hlast : last = up
      · subst hlast
        rw [push_up_up]
        exact h.climb
      · rw [push_up hlast]
        exact h.tail
  · rw [push_ordinary hw]
    exact h.ordinary hw

theorem foldl (h : Settled absolute trail) :
    Settled absolute (ws.foldl (FilePath.push absolute) trail) := by
  induction ws generalizing trail with
  | nil => exact h
  | cons w ws ih => exact ih (h.push w)

/-- The last of settled components was only pushed. -/
theorem push_eq_cons (h : Settled absolute (w :: trail)) :
    FilePath.push absolute trail w = w :: trail := by
  by_cases hw : w = up
  · subst hw
    cases trail with
    | nil =>
      cases absolute with
      | false => rfl
      | true => exact absurd List.mem_cons_self (h.grounded rfl)
    | cons last rest =>
      obtain rfl : last = up := (List.pairwise_cons.mp h.leading).1 last List.mem_cons_self rfl
      exact push_up_up
  · exact push_ordinary hw

/-- Settled components are read back as they are. -/
theorem foldl_push (h : Settled absolute (ws.reverse ++ trail)) :
    ws.foldl (FilePath.push absolute) trail = ws.reverse ++ trail := by
  induction ws generalizing trail with
  | nil => rfl
  | cons w ws ih =>
    rw [List.reverse_cons, ← List.append_cons] at h
    rw [List.foldl_cons, h.drop.push_eq_cons, ih h, List.reverse_cons, ← List.append_cons]

theorem not_cancels (h : Settled absolute ws.reverse) : ¬ Cancels absolute ws zs := by
  intro hstep
  cases hstep with
  | pair hw =>
    have hpairs := List.pairwise_reverse.mp h.leading
    have hlast := (List.pairwise_cons.mp (List.pairwise_append.mp hpairs).2.1).1 up
    exact hw (hlast List.mem_cons_self rfl)
  | atRoot habs => exact h.grounded habs (List.mem_reverse.mpr List.mem_cons_self)

/-- In order, settled components are some `..` and then ordinary ones only. -/
theorem exists_replicate (h : Settled absolute trail) :
    ∃ n rest, trail.reverse = List.replicate n up ++ rest ∧ up ∉ rest := by
  induction trail with
  | nil => exact ⟨0, [], rfl, List.not_mem_nil⟩
  | cons w trail ih =>
    by_cases hw : w = up
    · -- every earlier component is a `..` as well
      refine ⟨trail.length + 1, [], ?_, List.not_mem_nil⟩
      rw [List.append_nil, List.eq_replicate_iff, List.length_reverse]
      refine ⟨rfl, fun x hx => ?_⟩
      rcases List.mem_cons.mp (List.mem_reverse.mp hx) with heq | hmem
      · exact heq.trans hw
      · exact (List.pairwise_cons.mp h.leading).1 x hmem hw
    · obtain ⟨n, rest, heq, hrest⟩ := ih h.tail
      refine ⟨n, rest ++ [w], ?_, ?_⟩
      · rw [List.reverse_cons, heq, List.append_assoc]
      · rw [List.mem_append, List.mem_singleton, not_or]
        exact ⟨hrest, fun heq => hw heq.symm⟩

end Settled

/-! ## One outcome -/

/-- Whatever is cancelled first, the same components remain. -/
theorem remains_iff : Remains absolute ws rs ↔ rs = (ws.foldl (push absolute) []).reverse := by
  constructor
  · rintro ⟨hreach, hend⟩
    have hsame : ws.foldl (push absolute) [] = rs.foldl (push absolute) [] := by
      clear hend
      induction hreach with
      | refl => rfl
      | tail _ hstep ih => exact ih.trans hstep.foldl_push
    rw [hsame]
    rcases (@cancels_foldl_push absolute [] rs).cases_head with
      heq | ⟨zs, hstep, -⟩
    · exact heq
    · exact absurd hstep (hend zs)
  · rintro rfl
    refine ⟨@cancels_foldl_push absolute [] ws, fun zs => Settled.not_cancels ?_⟩
    rw [List.reverse_reverse]
    exact settled_nil.foldl

end FilePath

end SnapshotCoordination
