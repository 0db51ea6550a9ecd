import SnapshotCoordination.Proofs.Lists.Slots

/-!
# Rebuilding a list from its diff

Someone who kept the list as it was before a transaction can follow the transaction with the diff
and the elements of the final list alone: drop the deleted positions, put in the inserted ones,
overwrite the changed ones (`ListDiff.rebuild`).

The statement:

* **`rebuild_recordAll`** — for every list and every sequence of edits that stays inside the list
  and erases no element inserted by the same sequence, the diff of the sequence rebuilds the final
  list; its deletions are positions of the list the diff starts from, its insertions and changes
  are positions of the final list, and the three lengths add up.

The invariant is `Tracks`: what `Marks` and `Survivors` say of the slots, and that a slot which is
still there and was never overwritten holds the element it held before.
-/

namespace SnapshotCoordination

variable {α : Type}

/-! ## Following a diff -/

/-- A list without the elements at the given positions. -/
def dropAt (positions : List Nat) (xs : List α) : List α :=
  ((List.range xs.length).filter (· ∉ positions)).filterMap (xs[·]?)

/-- Put the final elements of the given positions in, one after the other. -/
def insertEach (final : List α) (positions : List Nat) (xs : List α) : List α :=
  positions.foldl (fun ys i => (final[i]?.map (ys.insertIdx i)).getD ys) xs

/-- Overwrite the given positions with their final elements. -/
def overwriteEach (final : List α) (positions : List Nat) (xs : List α) : List α :=
  positions.foldl (fun ys i => (final[i]?.map (ys.set i)).getD ys) xs

namespace ListDiff

/-- The list a diff starts from: what was there before, or nothing if the list was cleared. -/
def base (d : ListDiff) (before : List α) : List α := if d.cleared then [] else before

theorem length_base (d : ListDiff) (before : List α) :
    (d.base before).length = if d.cleared then 0 else before.length := by
  unfold base
  split <;> rfl

/-- Follow a diff from the list before to the final list, of which only the elements at the
inserted and the changed positions are used. -/
def rebuild (d : ListDiff) (before final : List α) : List α :=
  overwriteEach final d.changes.members
    (insertEach final d.inserts.members (dropAt d.deletes.members (d.base before)))

end ListDiff

namespace ListEdit

/-- Make one edit after the other. -/
def applyAll (edits : List (ListEdit α)) (xs : List α) : List α :=
  edits.foldl (fun ys e => e.apply ys) xs

/-- Record one edit after the other. -/
def recordAll (edits : List (ListEdit α)) (d : ListDiff) : ListDiff :=
  edits.foldl (fun d e => e.record d) d

/-- Whether every edit stays inside the list it finds and spares what the diff it is recorded in
has as inserted. -/
def Admissible : List (ListEdit α) → List α → ListDiff → Prop
  | [], _, _ => True
  | e :: edits, xs, d =>
    e.InRange xs.length ∧ e.Spares d ∧ Admissible edits (e.apply xs) (e.record d)

instance decideAdmissible : ∀ (edits : List (ListEdit α)) (xs : List α) (d : ListDiff),
    Decidable (Admissible edits xs d)
  | [], _, _ => .isTrue trivial
  | e :: edits, xs, d =>
    have := decideAdmissible edits (e.apply xs) (e.record d)
    inferInstanceAs (Decidable (_ ∧ _ ∧ _))

end ListEdit

/-! ## Taking elements out and putting them back -/

/-- Insert between two parts of a list. -/
theorem insertIdx_between {before : List α} {i : Nat} (h : before.length = i) (after : List α)
    (a : α) : (before ++ after).insertIdx i a = before ++ a :: after := by
  subst h
  induction before with
  | nil => rfl
  | cons b before ih =>
    rw [List.cons_append, List.length_cons, List.insertIdx_succ_cons, ih, List.cons_append]

/-- The elements at the first positions. -/
theorem filterMap_getElem?_range {xs : List α} {n : Nat} (h : n ≤ xs.length) :
    (List.range n).filterMap (xs[·]?) = xs.take n := by
  induction n with
  | zero => rfl
  | succ n ih =>
    rw [List.range_succ, List.filterMap_append, ih (by omega),
      List.take_succ_eq_append_getElem (by omega),
      List.filterMap_cons_some (List.getElem?_eq_getElem (by omega)), List.filterMap_nil]

theorem dropAt_nil (xs : List α) : dropAt [] xs = xs := by
  unfold dropAt
  rw [List.filter_eq_self.mpr fun _ _ => decide_eq_true List.not_mem_nil,
    filterMap_getElem?_range (Nat.le_refl _), List.take_length]

/-- Putting back the first of the elements that were taken out. -/
theorem insertIdx_dropAt {xs : List α} {i : Nat} {positions : List Nat} (hi : i < xs.length)
    (hfirst : ∀ j ∈ positions, i < j) :
    (dropAt (i :: positions) xs).insertIdx i xs[i] = dropAt positions xs := by
  -- in front of `i` nothing was taken out, and behind it the same either way
  have hbefore : ∀ ps : List Nat, (∀ j ∈ ps, i ≤ j) →
      (List.range i).filter (· ∉ ps) = List.range i := by
    intro ps hps
    refine List.filter_eq_self.mpr fun x hx => decide_eq_true fun hmem => ?_
    have := hps x hmem
    have := List.mem_range.mp hx
    omega
  have hafter : (List.range' (i + 1) (xs.length - i - 1)).filter (· ∉ i :: positions) =
      (List.range' (i + 1) (xs.length - i - 1)).filter (· ∉ positions) := by
    refine List.filter_congr fun x hx => ?_
    have := (List.mem_range'_1.mp hx).1
    have hne : x ≠ i := by omega
    simp [hne]
  have hout : i ∉ positions := fun h => Nat.lt_irrefl i (hfirst i h)
  have hlen : ((List.range i).filterMap (xs[·]?)).length = i := by
    rw [filterMap_getElem?_range (Nat.le_of_lt hi), List.length_take]
    omega
  unfold dropAt
  rw [range_eq_append_cons hi, List.filter_append, List.filter_append,
    hbefore _ (by simpa using fun j hj => Nat.le_of_lt (hfirst j hj)),
    hbefore _ fun j hj => Nat.le_of_lt (hfirst j hj),
    List.filter_cons_of_neg (by simp), List.filter_cons_of_pos (by simpa using hout), hafter,
    List.filterMap_append, List.filterMap_append,
    List.filterMap_cons_some (List.getElem?_eq_getElem hi)]
  exact insertIdx_between hlen _ _

/-- Elements taken out and put back at their places. -/
theorem insertEach_dropAt {final xs : List α} {positions : List Nat}
    (hascend : positions.Pairwise (· < ·)) (hlt : ∀ i ∈ positions, i < xs.length)
    (hsame : ∀ i ∈ positions, final[i]? = xs[i]?) :
    insertEach final positions (dropAt positions xs) = xs := by
  induction positions with
  | nil => exact dropAt_nil xs
  | cons i positions ih =>
    obtain ⟨hfirst, hrest⟩ := List.pairwise_cons.mp hascend
    have hi : i < xs.length := hlt i List.mem_cons_self
    have hstep : insertEach final (i :: positions) (dropAt (i :: positions) xs) =
        insertEach final positions ((dropAt (i :: positions) xs).insertIdx i xs[i]) := by
      unfold insertEach
      rw [List.foldl_cons, hsame i List.mem_cons_self, List.getElem?_eq_getElem hi]
      rfl
    rw [hstep, insertIdx_dropAt hi hfirst]
    exact ih hrest (fun j hj => hlt j (List.mem_cons_of_mem i hj))
      fun j hj => hsame j (List.mem_cons_of_mem i hj)

/-- Overwriting the places at which two lists of one length may differ. -/
theorem overwriteEach_eq {final xs : List α} {positions : List Nat}
    (hlen : xs.length = final.length)
    (hsame : ∀ i, i ∉ positions → xs[i]? = final[i]?) :
    overwriteEach final positions xs = final := by
  induction positions generalizing xs with
  | nil => exact List.ext_getElem? fun i => hsame i List.not_mem_nil
  | cons i positions ih =>
    show overwriteEach final positions ((final[i]?.map (xs.set i)).getD xs) = final
    -- from here on the lists agree at `i`, also if that is no position at all
    cases hget : final[i]? with
    | none =>
      refine ih hlen fun j hj => ?_
      by_cases hji : j = i
      · rw [hji, hget]
        rw [List.getElem?_eq_none_iff] at hget ⊢
        exact hlen.trans_le hget
      · exact hsame j (by simp [hji, hj])
    | some a =>
      have hlt : i < final.length := (List.getElem?_eq_some_iff.mp hget).1
      refine ih (by simpa using hlen) fun j hj => ?_
      rw [Option.map_some, Option.getD_some]
      by_cases hji : j = i
      · rw [hji, hget, List.getElem?_set_self (by omega)]
      · rw [List.getElem?_set_ne (Ne.symm hji)]
        exact hsame j (by simp [hji, hj])

/-! ## The invariant -/

/-- What ties a list, its slots and its diff to the list before the first edit. -/
structure Tracks (before xs : List α) (slots : List Slot) (d : ListDiff) : Prop where
  marks : Marks slots d
  survivors : Survivors (d.base before).length slots d
  length_eq : slots.length = xs.length
  /-- An element that survived and was never overwritten is the one that was there before. -/
  kept : ∀ i k : Nat, slots[i]? = some ⟨some k, false⟩ → xs[i]? = (d.base before)[k]?

namespace Tracks

variable {before xs : List α} {slots : List Slot} {d : ListDiff}

theorem fresh (key : ListKey) (before : List α) :
    Tracks before before (Slot.untouched before.length) (.fresh key) where
  marks := .fresh key before.length
  survivors := .fresh key before.length
  length_eq := by simp [Slot.untouched]
  kept i k h := by
    have hik : i = k := by
      rw [Slot.untouched, List.getElem?_map, Option.map_eq_some_iff] at h
      obtain ⟨j, hj, hjk⟩ := h
      rw [List.getElem?_range (by by_contra; simp_all)] at hj
      simp_all
    rw [hik]
    rfl

/-- A touched slot is not one that was never overwritten. -/
theorem ne_of_touch {i x k : Nat} (h : (Slot.touch i slots)[x]? = some ⟨some k, false⟩) :
    x ≠ i ∧ slots[x]? = some ⟨some k, false⟩ := by
  rw [Slot.touch, List.getElem?_modify] at h
  by_cases hx : i = x
  · cases hs : slots[x]? with
    | none => simp [hs] at h
    | some s => simp [hs, hx] at h
  · cases hs : slots[x]? with
    | none => simp [hs] at h
    | some s =>
      simp only [hs, hx, if_false] at h
      exact ⟨Ne.symm hx, h⟩

/-- The step lemma: an edit in range that spares what was inserted. -/
theorem record (h : Tracks before xs slots d) (e : ListEdit α) (he : e.InRange xs.length)
    (hspare : e.Spares d) : Tracks before (e.apply xs) (e.move slots) (e.record d) where
  marks := h.marks.record e (h.length_eq ▸ he)
  survivors := by
    have hsurvivors := h.survivors
    rw [ListDiff.length_base] at hsurvivors ⊢
    exact hsurvivors.record h.marks e (h.length_eq ▸ he) hspare
  length_eq := e.length_move h.length_eq
  kept x k hx := by
    -- an edit that leaves a slot alone leaves its element alone
    cases e with
    | set i a =>
      obtain ⟨hne, hold⟩ := ne_of_touch hx
      show (xs.set i a)[x]? = _
      rw [List.getElem?_set_ne (Ne.symm hne)]
      exact h.kept x k hold
    | insert i a =>
      replace hx : (slots.insertIdx i .made)[x]? = some ⟨some k, false⟩ := hx
      show (xs.insertIdx i a)[x]? = (d.base before)[k]?
      rw [List.getElem?_insertIdx] at hx ⊢
      rcases Nat.lt_trichotomy x i with hlt | rfl | hgt
      · rw [if_pos hlt] at hx ⊢
        exact h.kept x k hx
      · rw [if_neg (Nat.lt_irrefl x), if_pos rfl] at hx
        split at hx <;> simp [Slot.made] at hx
      · rw [if_neg (Nat.not_lt.mpr (Nat.le_of_lt hgt)), if_neg (Nat.ne_of_gt hgt)] at hx ⊢
        exact h.kept (x - 1) k hx
    | erase i =>
      replace hx : (slots.eraseIdx i)[x]? = some ⟨some k, false⟩ := hx
      show (xs.eraseIdx i)[x]? = (d.base before)[k]?
      rw [List.getElem?_eraseIdx] at hx ⊢
      by_cases hlt : x < i
      · rw [if_pos hlt] at hx ⊢
        exact h.kept x k hx
      · rw [if_neg hlt] at hx ⊢
        exact h.kept (x + 1) k hx
    | swap i j =>
      obtain ⟨hnej, hx⟩ := ne_of_touch hx
      obtain ⟨hnei, hold⟩ := ne_of_touch hx
      show (ListEdit.exchange i j xs)[x]? = (d.base before)[k]?
      rw [ListEdit.getElem?_exchange xs hnei hnej]
      exact h.kept x k hold
    | clear =>
      replace hx : ([] : List Slot)[x]? = some ⟨some k, false⟩ := hx
      simp at hx

/-- The run lemma. -/
theorem recordAll {edits : List (ListEdit α)} (h : Tracks before xs slots d)
    (hedits : ListEdit.Admissible edits xs d) :
    ∃ slots', Tracks before (ListEdit.applyAll edits xs) slots' (ListEdit.recordAll edits d) := by
  induction edits generalizing xs slots d with
  | nil => exact ⟨slots, h⟩
  | cons e edits ih => exact ih (h.record e hedits.1 hedits.2.1) hedits.2.2

/-! ## What the invariant gives -/

/-- The list between the two halves of a rebuild: the final elements where an insertion made the
slot, the elements there were before elsewhere. -/
def halfway (base final : List α) (slots : List Slot) : List α :=
  List.zipWith (fun a s => (s.origin.bind (base[·]?)).getD a) final slots

theorem length_halfway {base final : List α} {slots : List Slot}
    (h : slots.length = final.length) : (halfway base final slots).length = final.length := by
  rw [halfway, List.length_zipWith, h, Nat.min_self]

/-- An element that survived has a position in the list the diff starts from. -/
theorem origin_lt (h : Tracks before xs slots d) {i k : Nat} {s : Slot}
    (hs : slots[i]? = some s) (hk : s.origin = some k) : k < (d.base before).length := by
  have hmem : k ∈ slots.filterMap (·.origin) :=
    List.mem_filterMap.mpr ⟨s, List.mem_of_getElem? hs, hk⟩
  rw [h.survivors.origins, List.mem_filter, List.mem_range] at hmem
  exact hmem.1

theorem getElem?_halfway_of_made (h : Tracks before xs slots d) {i : Nat} {s : Slot}
    (hs : slots[i]? = some s) (hmade : s.origin = none) :
    (halfway (d.base before) xs slots)[i]? = xs[i]? := by
  have hi : i < xs.length := h.length_eq ▸ (List.getElem?_eq_some_iff.mp hs).1
  rw [halfway, List.getElem?_zipWith, hs, List.getElem?_eq_getElem hi]
  simp only [hmade, Option.bind_none, Option.getD_none]

theorem getElem?_halfway_of_origin (h : Tracks before xs slots d) {i k : Nat} {s : Slot}
    (hs : slots[i]? = some s) (hk : s.origin = some k) :
    (halfway (d.base before) xs slots)[i]? = (d.base before)[k]? := by
  have hi : i < xs.length := h.length_eq ▸ (List.getElem?_eq_some_iff.mp hs).1
  rw [halfway, List.getElem?_zipWith, hs, List.getElem?_eq_getElem hi]
  simp only [hk, Option.bind_some, List.getElem?_eq_getElem (h.origin_lt hs hk),
    Option.getD_some]

/-- Without what was inserted, the list halfway is what the deletions leave. -/
theorem dropAt_halfway (h : Tracks before xs slots d) :
    dropAt d.inserts.members (halfway (d.base before) xs slots) =
      dropAt d.deletes.members (d.base before) := by
  -- position by position: an inserted one is left out on both sides
  have hprefix : ∀ m, m ≤ slots.length →
      ((List.range m).filter (· ∉ d.inserts.members)).filterMap
        ((halfway (d.base before) xs slots)[·]?) =
        ((slots.take m).filterMap (·.origin)).filterMap ((d.base before)[·]?) := by
    intro m hm
    induction m with
    | zero => rfl
    | succ m ih =>
      have hlt : m < slots.length := by omega
      have hs := List.getElem?_eq_getElem hlt
      have hmem := h.marks.mem_inserts m
      rw [hs, Option.map_some, Option.some_inj] at hmem
      rw [List.range_succ, List.filter_append, List.filterMap_append, ih (by omega),
        List.take_succ_eq_append_getElem hlt, List.filterMap_append, List.filterMap_append]
      congr 1
      cases horigin : slots[m].origin with
      | none =>
        have hin : m ∈ d.inserts.members := hmem.mpr horigin
        rw [List.filter_cons_of_neg (by simpa using hin),
          List.filterMap_cons_none horigin]
        rfl
      | some k =>
        have hout : m ∉ d.inserts.members := fun hin => by
          simp [hmem.mp hin] at horigin
        rw [List.filter_cons_of_pos (by simpa using hout), List.filterMap_cons_some horigin,
          List.filter_nil, List.filterMap_nil, List.filterMap_cons, List.filterMap_cons,
          h.getElem?_halfway_of_origin hs horigin]
        rfl
  unfold dropAt
  rw [length_halfway h.length_eq, ← h.length_eq, hprefix _ (Nat.le_refl _), List.take_length,
    h.survivors.origins]
  rfl

/-- What is inserted is what the final list has there. -/
theorem insertEach_halfway (h : Tracks before xs slots d) :
    insertEach xs d.inserts.members (dropAt d.deletes.members (d.base before)) =
      halfway (d.base before) xs slots := by
  rw [← h.dropAt_halfway]
  refine insertEach_dropAt h.marks.insertsAscend ?_ ?_
  · intro i hi
    rw [length_halfway h.length_eq, ← h.length_eq]
    exact h.marks.lt_of_mem_inserts hi
  · intro i hi
    obtain ⟨s, hs, hmade⟩ := Option.map_eq_some_iff.mp ((h.marks.mem_inserts i).mp hi)
    exact (h.getElem?_halfway_of_made hs hmade).symm

/-- The final list differs from the list halfway at changed positions only. -/
theorem getElem?_halfway (h : Tracks before xs slots d) {i : Nat} (hi : i ∉ d.changes) :
    (halfway (d.base before) xs slots)[i]? = xs[i]? := by
  cases hs : slots[i]? with
  | none =>
    rw [List.getElem?_eq_none_iff, h.length_eq] at hs
    have hhalf : (halfway (d.base before) xs slots).length ≤ i := by
      rwa [length_halfway h.length_eq]
    rw [List.getElem?_eq_none_iff.mpr hs, List.getElem?_eq_none_iff.mpr hhalf]
  | some s =>
    -- what was never overwritten was inserted as it is or was there before
    have huntouched : s.touched = false := by
      cases htouched : s.touched with
      | false => rfl
      | true => exact absurd ((h.marks.mem_changes i).mpr (by rw [hs, ← htouched]; rfl)) hi
    cases horigin : s.origin with
    | none => exact h.getElem?_halfway_of_made hs horigin
    | some k =>
      rw [h.getElem?_halfway_of_origin hs horigin]
      refine (h.kept i k ?_).symm
      rw [hs, ← horigin, ← huntouched]

theorem rebuild_eq (h : Tracks before xs slots d) : d.rebuild before xs = xs := by
  rw [ListDiff.rebuild, h.insertEach_halfway]
  exact overwriteEach_eq (length_halfway h.length_eq) fun i hi => h.getElem?_halfway hi

/-- The positions of the list the diff starts from: deleted or surviving. -/
theorem size_deletes (h : Tracks before xs slots d) :
    d.deletes.size + (slots.filterMap (·.origin)).length = (d.base before).length := by
  rw [h.survivors.origins, ← PositionSet.unshift_eq_length h.survivors.deletesAscend,
    PositionSet.size_add_unshift h.survivors.deletesAscend h.survivors.lt_of_mem_deletes]

/-- The positions of the final list: inserted or surviving. -/
theorem size_inserts (h : Tracks before xs slots d) :
    d.inserts.size + (slots.filterMap (·.origin)).length = xs.length := by
  have hplaces := h.marks.length_origins_take (Nat.le_refl slots.length)
  rw [List.take_length] at hplaces
  rw [hplaces, ← h.length_eq,
    PositionSet.size_add_unshift h.marks.insertsAscend fun i => h.marks.lt_of_mem_inserts]

end Tracks

/-! ## The round trip -/

/-- **A diff rebuilds the list.** Start from a fresh record and make any edits that stay inside
the list and erase no element they inserted. Following the diff from the list before gives the
final list; every deletion is a position of the list the diff starts from, every insertion and
every change is a position of the final list, and the lengths add up. -/
theorem rebuild_recordAll (key : ListKey) (before : List α) (edits : List (ListEdit α))
    (hedits : ListEdit.Admissible edits before (.fresh key)) :
    let d := ListEdit.recordAll edits (.fresh key)
    let final := ListEdit.applyAll edits before
    d.rebuild before final = final ∧
      (∀ k ∈ d.deletes, k < (d.base before).length) ∧
      (∀ i ∈ d.inserts, i < final.length) ∧
      (∀ i ∈ d.changes, i < final.length) ∧
      d.deletes.size ≤ (d.base before).length ∧
      (d.base before).length - d.deletes.size + d.inserts.size = final.length := by
  intro d final
  obtain ⟨slots, h⟩ := (Tracks.fresh key before).recordAll hedits
  have hdeletes : d.deletes.size + (slots.filterMap (·.origin)).length = (d.base before).length :=
    h.size_deletes
  have hinserts : d.inserts.size + (slots.filterMap (·.origin)).length = final.length :=
    h.size_inserts
  refine ⟨h.rebuild_eq, h.survivors.lt_of_mem_deletes, ?_, ?_, ?_, ?_⟩
  · exact fun i hi => h.length_eq ▸ h.marks.lt_of_mem_inserts hi
  · exact fun i hi => h.length_eq ▸ h.marks.lt_of_mem_changes hi
  · exact Nat.le.intro hdeletes
  · omega

/-- Six edits of a list of three: one element is new, one of the three is gone. -/
theorem rebuild_recordAll_six_edits :
    let edits : List (ListEdit Nat) :=
      [.insert 1 5, .set 0 6, .erase 2, .swap 0 1, .insert 3 4, .set 3 9]
    let d := ListEdit.recordAll edits (.fresh ⟨0, 0, 0⟩)
    ListEdit.Admissible edits [1, 2, 3] (.fresh ⟨0, 0, 0⟩) ∧
      ListEdit.applyAll edits [1, 2, 3] = [5, 6, 3, 9] ∧
      d.deletes.members = [1] ∧ d.inserts.members = [1, 3] ∧ d.changes.members = [0, 1, 3] ∧
      d.rebuild [1, 2, 3] [5, 6, 3, 9] = [5, 6, 3, 9] :=
  ⟨by decide, by decide, by decide, by decide, by decide,
    (rebuild_recordAll ⟨0, 0, 0⟩ [1, 2, 3]
      [.insert 1 5, .set 0 6, .erase 2, .swap 0 1, .insert 3 4, .set 3 9] (by decide)).1⟩

end SnapshotCoordination
