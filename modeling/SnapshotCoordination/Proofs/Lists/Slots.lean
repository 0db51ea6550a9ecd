import Mathlib.Data.List.InsertIdx
import Mathlib.Data.List.Sort
import SnapshotCoordination.Diff.ListDiff
import SnapshotCoordination.Proofs.Lists.Positions

/-!
# The slots of an edited list

While a list is edited, its places come and go, and each has a history of its own: it was there
before the first edit or an insertion made it, and it was overwritten since or it was not. A
`Slot` is that history, and a list of slots is edited along with the list it describes.

This module says what a `ListDiff` knows of the slots, one step lemma per edit:

* **`Marks`** — the insertions and the changes of a diff are exactly the places of the slots made
  by an insertion and of the slots overwritten (`Marks.record`, for every edit in range);
* **`Survivors`** — the deletions are exactly the positions before the first edit whose slots are
  gone, and those that survive are in order (`Survivors.record`, for every edit in range that
  does not erase a slot made by an insertion).
-/

namespace SnapshotCoordination

/-- What happened to one place of a list. -/
structure Slot where
  /-- The position it had before the first edit, unless an insertion made it. -/
  origin : Option Nat
  /-- Whether it was overwritten. -/
  touched : Bool
  deriving DecidableEq

/-- One edit of a list. -/
inductive ListEdit (α : Type) where
  | set (i : Nat) (a : α)
  | insert (i : Nat) (a : α)
  | erase (i : Nat)
  | swap (i j : Nat)
  | clear
  deriving DecidableEq

namespace Slot

/-- The slots of a list before its first edit. -/
def untouched (n : Nat) : List Slot := (List.range n).map fun k => ⟨some k, false⟩

/-- The slot an insertion makes. -/
def made : Slot := ⟨none, false⟩

/-- Overwrite the slot at a place. -/
def touch (i : Nat) (slots : List Slot) : List Slot :=
  slots.modify i fun s => { s with touched := true }

end Slot

namespace ListEdit

variable {α : Type}

/-- Whether an edit of a list of `n` elements stays inside it. -/
def InRange (n : Nat) : ListEdit α → Prop
  | set i _ | erase i => i < n
  | insert i _ => i ≤ n
  | swap i j => i < n ∧ j < n
  | clear => True

instance (n : Nat) (e : ListEdit α) : Decidable (e.InRange n) := by
  cases e <;> unfold InRange <;> infer_instance

/-- Whether an edit leaves alone what a diff has recorded as inserted. -/
def Spares (d : ListDiff) : ListEdit α → Prop
  | erase i => i ∉ d.inserts
  | _ => True

instance (d : ListDiff) (e : ListEdit α) : Decidable (e.Spares d) := by
  cases e <;> unfold Spares <;> infer_instance

/-- A list with two of its elements in each other's place. -/
def exchange (i j : Nat) (xs : List α) : List α :=
  match xs[i]?, xs[j]? with
  | some a, some b => (xs.set i b).set j a
  | _, _ => xs

theorem length_exchange (i j : Nat) (xs : List α) : (exchange i j xs).length = xs.length := by
  unfold exchange
  split
  · rw [List.length_set, List.length_set]
  · rfl

/-- The other elements stay where they are. -/
theorem getElem?_exchange {i j x : Nat} (xs : List α) (hi : x ≠ i) (hj : x ≠ j) :
    (exchange i j xs)[x]? = xs[x]? := by
  unfold exchange
  split
  · rw [List.getElem?_set_ne (Ne.symm hj), List.getElem?_set_ne (Ne.symm hi)]
  · rfl

/-- What an edit does to a list. -/
def apply (e : ListEdit α) (xs : List α) : List α :=
  match e with
  | set i a => xs.set i a
  | insert i a => xs.insertIdx i a
  | erase i => xs.eraseIdx i
  | swap i j => exchange i j xs
  | clear => []

/-- What an edit does to the slots of a list. -/
def move (e : ListEdit α) (slots : List Slot) : List Slot :=
  match e with
  | set i _ => Slot.touch i slots
  | insert i _ => slots.insertIdx i .made
  | erase i => slots.eraseIdx i
  | swap i j => Slot.touch j (Slot.touch i slots)
  | clear => []

/-- How an edit is recorded. -/
def record (e : ListEdit α) (d : ListDiff) : ListDiff :=
  match e with
  | set i _ => d.set i
  | insert i _ => d.insert i
  | erase i => d.erase i
  | swap i j => d.swap i j
  | clear => d.clear

/-- A list is edited at as many places as its slots are. -/
theorem length_move (e : ListEdit α) {xs : List α} {slots : List Slot}
    (h : slots.length = xs.length) : (e.move slots).length = (e.apply xs).length := by
  cases e with
  | set i a => simp [move, apply, Slot.touch, h]
  | insert i a => simp [move, apply, List.length_insertIdx, h]
  | erase i => simp [move, apply, List.length_eraseIdx, h]
  | swap i j =>
    simp only [move, apply, Slot.touch, List.length_modify, length_exchange, h]
  | clear => rfl

end ListEdit

/-! ## Insertions and changes -/

/-- The insertions and the changes of a diff are the places of the slots that an insertion made
and of the slots that were overwritten. -/
structure Marks (slots : List Slot) (d : ListDiff) : Prop where
  insertsAscend : d.inserts.Ascending
  changesAscend : d.changes.Ascending
  mem_inserts : ∀ i, i ∈ d.inserts ↔ slots[i]?.map (·.origin) = some none
  mem_changes : ∀ i, i ∈ d.changes ↔ slots[i]?.map (·.touched) = some true

namespace Marks

variable {slots : List Slot} {d : ListDiff}

theorem lt_of_mem_inserts (h : Marks slots d) {i : Nat} (hi : i ∈ d.inserts) :
    i < slots.length := by
  have hsome := (h.mem_inserts i).mp hi
  by_contra hge
  rw [List.getElem?_eq_none (by omega)] at hsome
  simp at hsome

theorem lt_of_mem_changes (h : Marks slots d) {i : Nat} (hi : i ∈ d.changes) :
    i < slots.length := by
  have hsome := (h.mem_changes i).mp hi
  by_contra hge
  rw [List.getElem?_eq_none (by omega)] at hsome
  simp at hsome

theorem fresh (key : ListKey) (n : Nat) : Marks (Slot.untouched n) (.fresh key) where
  insertsAscend := PositionSet.ascending_empty
  changesAscend := PositionSet.ascending_empty
  mem_inserts i := by
    refine iff_of_false (PositionSet.notMem_empty i) ?_
    simp only [Slot.untouched, List.getElem?_map, Option.map_map]
    cases (List.range n)[i]? <;> simp
  mem_changes i := by
    refine iff_of_false (PositionSet.notMem_empty i) ?_
    simp only [Slot.untouched, List.getElem?_map, Option.map_map]
    cases (List.range n)[i]? <;> simp

theorem set (h : Marks slots d) {i : Nat} (hi : i < slots.length) :
    Marks (Slot.touch i slots) (d.set i) where
  insertsAscend := h.insertsAscend
  changesAscend := PositionSet.ascending_add h.changesAscend
  mem_inserts x := by
    rw [show (d.set i).inserts = d.inserts from rfl, h.mem_inserts, Slot.touch,
      List.getElem?_modify]
    cases slots[x]? with
    | none => rfl
    | some s => by_cases hx : i = x <;> simp [hx]
  mem_changes x := by
    rw [show (d.set i).changes = d.changes.add i from rfl, PositionSet.mem_add h.changesAscend,
      h.mem_changes, Slot.touch, List.getElem?_modify]
    by_cases hx : i = x
    · subst hx
      simp [List.getElem?_eq_getElem hi]
    · cases slots[x]? with
      | none => simp [Ne.symm hx]
      | some s => simp [hx, Ne.symm hx]

theorem insert (h : Marks slots d) {i : Nat} (hi : i ≤ slots.length) :
    Marks (slots.insertIdx i .made) (d.insert i) where
  insertsAscend := PositionSet.ascending_insertAt h.insertsAscend
  changesAscend := PositionSet.ascending_shiftForInsertAt h.changesAscend
  mem_inserts x := by
    rw [show (d.insert i).inserts = d.inserts.insertAt i from rfl,
      PositionSet.mem_insertAt h.insertsAscend, h.mem_inserts, h.mem_inserts,
      List.getElem?_insertIdx]
    rcases Nat.lt_trichotomy x i with hlt | rfl | hgt
    · simp [hlt, Nat.ne_of_lt hlt, Nat.not_lt.mpr (Nat.le_of_lt hlt)]
    · simp [hi, Slot.made]
    · simp [hgt, Nat.ne_of_gt hgt, Nat.not_lt.mpr (Nat.le_of_lt hgt)]
  mem_changes x := by
    rw [show (d.insert i).changes = d.changes.shiftForInsertAt i from rfl,
      PositionSet.mem_shiftForInsertAt h.changesAscend, h.mem_changes, h.mem_changes,
      List.getElem?_insertIdx]
    rcases Nat.lt_trichotomy x i with hlt | rfl | hgt
    · simp [hlt, Nat.not_lt.mpr (Nat.le_of_lt hlt)]
    · simp [hi, Slot.made]
    · simp [hgt, Nat.ne_of_gt hgt, Nat.not_lt.mpr (Nat.le_of_lt hgt)]

theorem erase (h : Marks slots d) (i : Nat) : Marks (slots.eraseIdx i) (d.erase i) where
  insertsAscend := PositionSet.ascending_eraseAt h.insertsAscend
  changesAscend := PositionSet.ascending_eraseAt h.changesAscend
  mem_inserts x := by
    rw [show (d.erase i).inserts = d.inserts.eraseAt i from rfl,
      PositionSet.mem_eraseAt h.insertsAscend, h.mem_inserts, h.mem_inserts,
      List.getElem?_eraseIdx]
    rcases Nat.lt_or_ge x i with hlt | hge
    · simp [hlt, Nat.not_le.mpr hlt]
    · simp [hge, Nat.not_lt.mpr hge]
  mem_changes x := by
    rw [show (d.erase i).changes = d.changes.eraseAt i from rfl,
      PositionSet.mem_eraseAt h.changesAscend, h.mem_changes, h.mem_changes,
      List.getElem?_eraseIdx]
    rcases Nat.lt_or_ge x i with hlt | hge
    · simp [hlt, Nat.not_le.mpr hlt]
    · simp [hge, Nat.not_lt.mpr hge]

theorem clear (d : ListDiff) : Marks [] d.clear where
  insertsAscend := PositionSet.ascending_empty
  changesAscend := PositionSet.ascending_empty
  mem_inserts i := iff_of_false (PositionSet.notMem_empty i) (by simp)
  mem_changes i := iff_of_false (PositionSet.notMem_empty i) (by simp)

/-- The step lemma: every edit in range is recorded where it happened. -/
theorem record {α : Type} (h : Marks slots d) (e : ListEdit α) (he : e.InRange slots.length) :
    Marks (e.move slots) (e.record d) := by
  cases e with
  | set i a => exact h.set he
  | insert i a => exact h.insert he
  | erase i => exact h.erase i
  | swap i j =>
    have hj : j < (Slot.touch i slots).length := by simpa [Slot.touch] using he.2
    exact (h.set he.1).set hj
  | clear => exact clear d

/-- Before place `i` there are as many surviving elements as `unshift` says. -/
theorem length_origins_take (h : Marks slots d) {i : Nat} (hi : i ≤ slots.length) :
    ((slots.take i).filterMap (·.origin)).length = d.inserts.unshift i := by
  rw [PositionSet.unshift_eq_length h.insertsAscend]
  induction i with
  | zero => simp
  | succ i ih =>
    have hlt : i < slots.length := by omega
    have hmem := h.mem_inserts i
    rw [List.getElem?_eq_getElem hlt, Option.map_some, Option.some_inj] at hmem
    rw [List.take_succ_eq_append_getElem hlt, List.filterMap_append, List.length_append,
      ih (by omega), List.range_succ, List.filter_append, List.length_append]
    -- one more element has survived, unless an insertion made the slot
    cases horigin : slots[i].origin with
    | none => simp [horigin, hmem.mpr horigin]
    | some k =>
      have hnot : i ∉ d.inserts := fun hin => by simp [hmem.mp hin] at horigin
      simp [horigin, hnot]

end Marks

/-! ## Deletions -/

/-- Of the `n` positions before the first edit, those not deleted are the ones whose slots are
still there, in the order in which they are there. -/
structure Survivors (n : Nat) (slots : List Slot) (d : ListDiff) : Prop where
  deletesAscend : d.deletes.Ascending
  lt_of_mem_deletes : ∀ k ∈ d.deletes, k < n
  origins : slots.filterMap (·.origin) = (List.range n).filter (· ∉ d.deletes)

namespace Survivors

variable {n : Nat} {slots : List Slot} {d : ListDiff}

/-- An edit that changes neither the deletions nor what the slots come from. -/
theorem congr (h : Survivors n slots d) {slots' : List Slot} {d' : ListDiff}
    (hslots : slots'.filterMap (·.origin) = slots.filterMap (·.origin))
    (hd : d'.deletes = d.deletes) : Survivors n slots' d' where
  deletesAscend := hd ▸ h.deletesAscend
  lt_of_mem_deletes := hd ▸ h.lt_of_mem_deletes
  origins := by rw [hslots, hd]; exact h.origins

theorem fresh (key : ListKey) (n : Nat) : Survivors n (Slot.untouched n) (.fresh key) where
  deletesAscend := PositionSet.ascending_empty
  lt_of_mem_deletes k hk := absurd hk (PositionSet.notMem_empty k)
  origins := by
    have hmap : (Slot.untouched n).filterMap (·.origin) = List.range n := by
      simp [Slot.untouched, List.filterMap_map]
    rw [hmap, List.filter_eq_self.mpr]
    exact fun k _ => decide_eq_true (PositionSet.notMem_empty k)

theorem filterMap_origin_touch (i : Nat) (slots : List Slot) :
    (Slot.touch i slots).filterMap (·.origin) = slots.filterMap (·.origin) := by
  rcases Nat.lt_or_ge i slots.length with hi | hi
  · conv_rhs => rw [← List.take_append_drop i slots, List.drop_eq_getElem_cons hi]
    rw [Slot.touch, List.modify_eq_take_cons_drop hi, List.filterMap_append,
      List.filterMap_append, List.filterMap_cons, List.filterMap_cons]
  · rw [Slot.touch, List.modify_eq_self hi]

theorem filterMap_origin_insert {i : Nat} (hi : i ≤ slots.length) :
    (slots.insertIdx i .made).filterMap (·.origin) = slots.filterMap (·.origin) := by
  induction slots generalizing i with
  | nil =>
    obtain rfl : i = 0 := Nat.le_zero.mp hi
    rfl
  | cons s slots ih =>
    cases i with
    | zero => rfl
    | succ i =>
      rw [List.insertIdx_succ_cons, List.filterMap_cons, List.filterMap_cons,
        ih (Nat.le_of_succ_le_succ hi)]

/-- An element that survives stands where its position before the first edit says. -/
theorem shift_length {A B : List Nat} {k : Nat} (h : Survivors n slots d)
    (hsplit : slots.filterMap (·.origin) = A ++ k :: B) :
    k < n ∧ k ∉ d.deletes ∧ d.deletes.shift A.length = k := by
  have hk : k ∈ (List.range n).filter (· ∉ d.deletes) := by
    rw [← h.origins, hsplit]; simp
  rw [List.mem_filter, List.mem_range, decide_eq_true_eq] at hk
  obtain ⟨hlt, hnot⟩ := hk
  refine ⟨hlt, hnot, ?_⟩
  -- cut the positions at `k` and compare with the given cut
  have hrange := range_eq_append_cons hlt
  have hA : A = (List.range k).filter (· ∉ d.deletes) := by
    have heq := h.origins
    rw [hsplit, hrange, List.filter_append, List.filter_cons_of_pos (by simpa using hnot)] at heq
    have hbefore : k ∉ (List.range k).filter (· ∉ d.deletes) := by simp
    have hafter : k ∉ (List.range' (k + 1) (n - k - 1)).filter (· ∉ d.deletes) := by
      simp [List.mem_range'_1]
    exact ((List.append_cons_inj_of_notMem hbefore hafter).mp heq.symm).1.symm
  rw [hA, ← PositionSet.unshift_eq_length h.deletesAscend]
  exact PositionSet.shift_unshift h.deletesAscend hnot

/-- Erasing an element that was there before the first edit deletes its position then. -/
theorem erase (h : Survivors n slots d) (hm : Marks slots d) {i : Nat} (hi : i < slots.length)
    (hold : i ∉ d.inserts) : Survivors n (slots.eraseIdx i) (d.erase i) := by
  -- no insertion made the slot, so it has a position from before the first edit
  obtain ⟨k, hk⟩ : ∃ k, slots[i].origin = some k := by
    cases horigin : slots[i].origin with
    | some k => exact ⟨k, rfl⟩
    | none =>
      refine absurd ((hm.mem_inserts i).mpr ?_) hold
      rw [List.getElem?_eq_getElem hi, Option.map_some, horigin]
  have hsplit : slots.filterMap (·.origin) = (slots.take i).filterMap (·.origin) ++
      k :: (slots.drop (i + 1)).filterMap (·.origin) := by
    conv_lhs => rw [← List.take_append_drop i slots, List.drop_eq_getElem_cons hi]
    rw [List.filterMap_append, List.filterMap_cons_some hk]
  obtain ⟨hlt, hnot, hshift⟩ := h.shift_length hsplit
  -- the diff finds the position by way of the insertions that are left
  have hplace : (d.erase i).deletes = d.deletes.add k := by
    have hlen : i ≤ (slots.eraseIdx i).length := by rw [List.length_eraseIdx_of_lt hi]; omega
    have htake := (hm.erase i).length_origins_take hlen
    rw [List.take_eraseIdx_eq_take_of_le _ _ _ (Nat.le_refl i)] at htake
    rw [← hshift, htake]
    rfl
  have hmem : ∀ x, x ∈ d.deletes.add k ↔ x = k ∨ x ∈ d.deletes :=
    fun x => PositionSet.mem_add h.deletesAscend
  refine ⟨?_, ?_, ?_⟩
  · rw [hplace]
    exact PositionSet.ascending_add h.deletesAscend
  · intro x hx
    rw [hplace, hmem] at hx
    rcases hx with rfl | hx
    · exact hlt
    · exact h.lt_of_mem_deletes x hx
  · have hfilter : (List.range n).filter (· ∉ d.deletes.add k) =
        ((List.range n).filter (· ∉ d.deletes)).filter (· ≠ k) := by
      rw [List.filter_filter]
      refine List.filter_congr fun x _ => ?_
      simp [hmem, not_or]
    -- no position survives twice, so taking `k` out takes out this one slot
    have hnodup : (slots.filterMap (·.origin)).Nodup := by
      rw [h.origins]
      exact List.nodup_range.filter _
    rw [hplace, hfilter, ← h.origins, hsplit, List.eraseIdx_eq_take_drop_succ,
      List.filterMap_append]
    rw [hsplit, List.nodup_append, List.nodup_cons] at hnodup
    obtain ⟨-, ⟨hafter, -⟩, hdisjoint⟩ := hnodup
    rw [List.filter_append, List.filter_cons_of_neg (by simp),
      List.filter_eq_self.mpr, List.filter_eq_self.mpr]
    · intro x hx
      exact decide_eq_true fun hxk => hafter (hxk ▸ hx)
    · intro x hx
      exact decide_eq_true (hdisjoint x hx k List.mem_cons_self)

/-- After a clear nothing is left of the list before the first edit. -/
theorem clear (d : ListDiff) : Survivors 0 [] d.clear where
  deletesAscend := PositionSet.ascending_empty
  lt_of_mem_deletes k hk := absurd hk (PositionSet.notMem_empty k)
  origins := rfl

/-- The step lemma: what survives an edit in range that erases no inserted element. From a clear
on, the list the diff starts from is the empty one. -/
theorem record {α : Type} (h : Survivors (if d.cleared then 0 else n) slots d)
    (hm : Marks slots d) (e : ListEdit α) (he : e.InRange slots.length) (hspare : e.Spares d) :
    Survivors (if (e.record d).cleared then 0 else n) (e.move slots) (e.record d) := by
  cases e with
  | set i a => exact h.congr (filterMap_origin_touch i slots) rfl
  | insert i a => exact h.congr (filterMap_origin_insert he) rfl
  | erase i => exact h.erase hm he hspare
  | swap i j =>
    refine h.congr ?_ rfl
    rw [ListEdit.move, filterMap_origin_touch, filterMap_origin_touch]
  | clear => exact clear d

end Survivors

end SnapshotCoordination
