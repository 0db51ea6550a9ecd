import Mathlib.Data.List.Induction
import SnapshotCoordination.Proofs.Lists.Erasing

/-!
# Moving elements

A move takes an element out and puts it back elsewhere. The diff records two positions, the one that
the element had before the first operation and the one it has got. For the first it leaves out of
the count the inserted elements in front of the element, and then also the deleted positions there,
which it ought to count in. It renumbers insertions and changes at that first position both for
taking the element out and for putting it back, and leaves the new positions of earlier moves as
they are.

* **`moves_recorded`** — a move is recorded under the right old position if whatever was erased and
  moved before it was behind the element, and with the right new one if no later move came across
  that; a change is about an element that was overwritten if no move came across a change;
* **`exists_misrecorded_move`** — otherwise all three can be wrong, even if no element is moved more
  than once and nothing is inserted or erased.

The invariants are `Intact` for the old position of one element and `Overwritten` for the changes;
`renumberAll` follows one recorded move to the end.
-/

namespace SnapshotCoordination

variable {α : Type}

/-! ## Moves inside a list -/

/-- Take the element at `i` out and put it back at `j`. -/
def carry (i j : Nat) (xs : List α) : List α :=
  (xs[i]?.map ((xs.eraseIdx i).insertIdx j)).getD xs

/-- Where the element at `x` was before one was taken from `i` to `j`. -/
def carrySource (i j x : Nat) : Nat :=
  if x = j then i
  else if x < j then if x < i then x else x + 1
  else if x ≤ i then x - 1 else x

variable {i j x : Nat}

theorem carrySource_of_outside (h : x < min i j ∨ max i j < x) : carrySource i j x = x := by
  unfold carrySource
  split_ifs <;> omega

/-- What was in front of both places is where it was. -/
theorem carrySource_of_lt (hi : carrySource i j x < i) (hj : carrySource i j x < j) :
    carrySource i j x = x := by
  unfold carrySource at *
  split_ifs at * <;> omega

theorem getElem?_carry {xs : List α} (hi : i < xs.length) (hj : j < xs.length) (x : Nat) :
    (carry i j xs)[x]? = xs[carrySource i j x]? := by
  have hroom : j ≤ (xs.eraseIdx i).length := by rw [List.length_eraseIdx_of_lt hi]; omega
  unfold carry carrySource
  rw [List.getElem?_eq_getElem hi, Option.map_some, Option.getD_some, List.getElem?_insertIdx]
  rcases Nat.lt_trichotomy x j with hlt | rfl | hgt
  · rw [if_pos hlt, if_neg (Nat.ne_of_lt hlt), if_pos hlt, List.getElem?_eraseIdx]
    split <;> rfl
  · rw [if_neg (Nat.lt_irrefl x), if_pos rfl, if_pos hroom, if_pos rfl, List.getElem?_eq_getElem hi]
  · rw [if_neg (Nat.lt_asymm hgt), if_neg (Nat.ne_of_gt hgt), if_neg (Nat.ne_of_gt hgt),
      if_neg (Nat.lt_asymm hgt), List.getElem?_eraseIdx]
    by_cases hx : x ≤ i
    · rw [if_pos (by omega), if_pos hx]
    · rw [if_neg (by omega), if_neg hx, Nat.sub_add_cancel (by omega)]

namespace Slot

/-- The position, before the first operation, of the element at `x`, if it was there then. -/
def originAt (slots : List Slot) (x : Nat) : Option Nat := slots[x]?.bind (·.origin)

theorem lt_of_originAt {slots : List Slot} {x p : Nat} (h : originAt slots x = some p) :
    x < slots.length := by
  obtain ⟨s, hs, -⟩ := Option.bind_eq_some_iff.mp h
  exact (List.getElem?_eq_some_iff.mp hs).1

theorem originAt_touch (i : Nat) (slots : List Slot) (x : Nat) :
    originAt (touch i slots) x = originAt slots x := by
  unfold originAt touch
  rw [List.getElem?_modify]
  cases slots[x]? with
  | none => rfl
  | some s => by_cases hx : i = x <;> simp [hx]

theorem originAt_insert (i : Nat) (slots : List Slot) (x : Nat) :
    originAt (slots.insertIdx i .made) x =
      if x < i then originAt slots x else if x = i then none else originAt slots (x - 1) := by
  unfold originAt
  rw [List.getElem?_insertIdx]
  split
  · rfl
  · split
    · split <;> rfl
    · rfl

theorem originAt_erase (i : Nat) (slots : List Slot) (x : Nat) :
    originAt (slots.eraseIdx i) x = if x < i then originAt slots x else originAt slots (x + 1) := by
  unfold originAt
  rw [List.getElem?_eraseIdx]
  split <;> rfl

theorem originAt_carry {i j : Nat} {slots : List Slot} (hi : i < slots.length)
    (hj : j < slots.length) (x : Nat) :
    originAt (carry i j slots) x = originAt slots (carrySource i j x) := by
  unfold originAt
  rw [getElem?_carry hi hj]

end Slot

/-- An operation on a list. -/
inductive Rearrangement (α : Type) where
  | edit (e : ListEdit α)
  | move (i j : Nat)
  deriving DecidableEq

/-- The slots of a list, and what is recorded of it. -/
structure Rearranged where
  slots : List Slot
  diff : ListDiff

namespace Rearranged

def fresh (key : ListKey) (n : Nat) : Rearranged := ⟨Slot.untouched n, .fresh key⟩

/-- Make an operation and record it. -/
def step (t : Rearranged) : Rearrangement α → Rearranged
  | .edit e => ⟨e.move t.slots, e.record t.diff⟩
  | .move i j => ⟨carry i j t.slots, t.diff.move i j⟩

def after (t : Rearranged) (ops : List (Rearrangement α)) : Rearranged := ops.foldl step t

/-- Whether an operation stays inside the list. -/
def InRange (t : Rearranged) : Rearrangement α → Prop
  | .edit e => e.InRange t.slots.length
  | .move i j => i < t.slots.length ∧ j < t.slots.length

instance (t : Rearranged) : (op : Rearrangement α) → Decidable (t.InRange op)
  | .edit e => inferInstanceAs (Decidable (e.InRange t.slots.length))
  | .move i j => inferInstanceAs (Decidable (i < t.slots.length ∧ j < t.slots.length))

/-- Whether what an operation takes out is behind the element that was at `p` before the first one
and is put back behind it, and the diff does not forget an insertion in front of it over that. -/
def Behind (p : Nat) (t : Rearranged) : Rearrangement α → Prop
  | .edit (.erase k) => ∀ x < t.slots.length, Slot.originAt t.slots x = some p → x < k
  | .edit _ => True
  | .move k j => ∀ x < t.slots.length, Slot.originAt t.slots x = some p →
      x < k ∧ x < j ∧ (k < j → t.diff.originOf k ∈ t.diff.inserts → x < t.diff.originOf k)

/-- Whether no move takes an element from or to the place of the one that was at `p` before the
first operation, or past it. -/
def Avoids (p : Nat) (t : Rearranged) : Rearrangement α → Prop
  | .edit _ => True
  | .move k j => ∀ x < t.slots.length, Slot.originAt t.slots x = some p → x < min k j ∨ max k j < x

/-- Whether a move leaves the changes alone: it takes no element from or to one of them, or past it,
unless the diff forgets the change with the move. -/
def SparesChanges (t : Rearranged) : Rearrangement α → Prop
  | .edit _ => True
  | .move k j => ∀ x ∈ t.diff.changes.members,
      x < min k j ∨ max k j < x ∨ k < j ∧ x = t.diff.originOf k

instance (p : Nat) (t : Rearranged) : (op : Rearrangement α) → Decidable (Behind p t op)
  | .edit (.erase k) =>
    inferInstanceAs (Decidable (∀ x < t.slots.length, Slot.originAt t.slots x = some p → x < k))
  | .edit (.set _ _) | .edit (.insert _ _) | .edit (.swap _ _) | .edit .clear => .isTrue trivial
  | .move k j => inferInstanceAs (Decidable (∀ x < t.slots.length,
      Slot.originAt t.slots x = some p → x < k ∧ x < j ∧
        (k < j → t.diff.originOf k ∈ t.diff.inserts → x < t.diff.originOf k)))

instance (p : Nat) (t : Rearranged) : (op : Rearrangement α) → Decidable (Avoids p t op)
  | .edit _ => .isTrue trivial
  | .move k j => inferInstanceAs (Decidable (∀ x < t.slots.length,
      Slot.originAt t.slots x = some p → x < min k j ∨ max k j < x))

instance (t : Rearranged) : (op : Rearrangement α) → Decidable (t.SparesChanges op)
  | .edit _ => .isTrue trivial
  | .move k j => inferInstanceAs (Decidable (∀ x ∈ t.diff.changes.members,
      x < min k j ∨ max k j < x ∨ k < j ∧ x = t.diff.originOf k))

end Rearranged

/-! ## What is recorded -/

namespace ListDiff

/-- The members of each set ascend, and what is moved is deleted too. -/
structure Ordered (d : ListDiff) : Prop where
  insertsAscend : d.inserts.Ascending
  deletesAscend : d.deletes.Ascending
  changesAscend : d.changes.Ascending
  moved : ∀ m ∈ d.moves, m.origin ∈ d.deletes

variable {d : ListDiff}

/-- Taken out and put back at one position, a member is forgotten if it was the one taken out, and
nothing else happens. -/
theorem moved_spec {s : PositionSet} (h : s.Ascending) (forward : Prop) [Decidable forward]
    (o : Nat) :
    let s' := if forward then (s.eraseAt o).shiftForInsertAt o else (s.shiftForInsertAt o).eraseAt o
    s'.Ascending ∧ ∀ x, x ∈ s' ↔ x ∈ s ∧ (forward → x ≠ o) := by
  intro s'
  by_cases hforward : forward
  · rw [show s' = (s.eraseAt o).shiftForInsertAt o from if_pos hforward]
    refine ⟨PositionSet.ascending_shiftForInsertAt (PositionSet.ascending_eraseAt h), fun x => ?_⟩
    rw [PositionSet.mem_shiftForInsertAt_eraseAt h, forall_prop_of_true hforward]
  · rw [show s' = (s.shiftForInsertAt o).eraseAt o from if_neg hforward]
    refine ⟨PositionSet.ascending_eraseAt (PositionSet.ascending_shiftForInsertAt h), fun x => ?_⟩
    rw [PositionSet.mem_eraseAt_shiftForInsertAt h]
    exact (and_iff_left fun hf => absurd hf hforward).symm

/-- What an edit makes of a move that is recorded already. -/
def renumber (e : ListEdit α) (m : ListMove) : Option ListMove :=
  match e with
  | .set _ _ | .swap _ _ => some m
  | .insert i _ => some (if i ≤ m.target then { m with target := m.target + 1 } else m)
  | .erase i =>
    if m.target = i then none
    else some (if i < m.target then { m with target := m.target - 1 } else m)
  | .clear => none

theorem moves_record (e : ListEdit α) (d : ListDiff) :
    (e.record d).moves = d.moves.filterMap (renumber e) := by
  cases e with
  | set i a => exact List.filterMap_some.symm
  | insert i a => exact (congrFun List.filterMap_eq_map _).symm
  | erase i =>
    rw [ListEdit.record, ListDiff.erase, ← List.filterMap_eq_filter, ← List.filterMap_eq_map,
      List.filterMap_filterMap]
    refine List.filterMap_congr fun m _ => ?_
    by_cases hm : m.target = i <;> simp [renumber, Option.guard, hm]
  | swap i j => exact List.filterMap_some.symm
  | clear => simp [renumber, ListEdit.record, ListDiff.clear]

/-- It takes the new position along with the element there. -/
theorem renumber_spec {e : ListEdit α} {m m' : ListMove} (h : renumber e m = some m')
    (slots : List Slot) : m'.origin = m.origin ∧
      Slot.originAt (e.move slots) m'.target = Slot.originAt slots m.target := by
  cases e with
  | set i a =>
    obtain rfl := Option.some_inj.mp h
    exact ⟨rfl, Slot.originAt_touch i slots _⟩
  | insert i a =>
    obtain rfl := Option.some_inj.mp h
    refine ⟨by split <;> rfl, ?_⟩
    rw [ListEdit.move, Slot.originAt_insert]
    by_cases hle : i ≤ m.target
    · rw [if_pos hle, if_neg (by simp; omega), if_neg (by simp; omega), Nat.add_sub_cancel]
    · rw [if_neg hle, if_pos (Nat.lt_of_not_le hle)]
  | erase i =>
    by_cases hm : m.target = i
    · rw [renumber, if_pos hm] at h
      cases h
    · rw [renumber, if_neg hm] at h
      obtain rfl := Option.some_inj.mp h
      refine ⟨by split <;> rfl, ?_⟩
      rw [ListEdit.move, Slot.originAt_erase]
      by_cases hlt : i < m.target
      · rw [if_pos hlt, if_neg (by simp; omega), Nat.sub_add_cancel (by omega)]
      · rw [if_neg hlt, if_pos (by omega)]
  | swap i j =>
    obtain rfl := Option.some_inj.mp h
    exact ⟨rfl, (Slot.originAt_touch j _ _).trans (Slot.originAt_touch i slots _)⟩
  | clear => cases h

namespace Ordered

theorem fresh (key : ListKey) : Ordered (.fresh key) where
  insertsAscend := PositionSet.ascending_empty
  deletesAscend := PositionSet.ascending_empty
  changesAscend := PositionSet.ascending_empty
  moved _ hm := absurd hm List.not_mem_nil

theorem record (h : Ordered d) (e : ListEdit α) : Ordered (e.record d) where
  insertsAscend := by
    cases e with
    | set i a => exact h.insertsAscend
    | insert i a => exact PositionSet.ascending_insertAt h.insertsAscend
    | erase i => exact PositionSet.ascending_eraseAt h.insertsAscend
    | swap i j => exact h.insertsAscend
    | clear => exact PositionSet.ascending_empty
  deletesAscend := by
    cases e with
    | set i a => exact h.deletesAscend
    | insert i a => exact h.deletesAscend
    | erase i => exact PositionSet.ascending_add h.deletesAscend
    | swap i j => exact h.deletesAscend
    | clear => exact PositionSet.ascending_empty
  changesAscend := by
    cases e with
    | set i a => exact PositionSet.ascending_add h.changesAscend
    | insert i a => exact PositionSet.ascending_shiftForInsertAt h.changesAscend
    | erase i => exact PositionSet.ascending_eraseAt h.changesAscend
    | swap i j => exact PositionSet.ascending_add (PositionSet.ascending_add h.changesAscend)
    | clear => exact PositionSet.ascending_empty
  moved m hm := by
    obtain ⟨m₀, hm₀, hrenumber⟩ := List.mem_filterMap.mp (moves_record e d ▸ hm)
    have hdeleted := h.moved m₀ hm₀
    rw [← (renumber_spec hrenumber []).1] at hdeleted
    cases e with
    | set i a => exact hdeleted
    | insert i a => exact hdeleted
    | erase i => exact (PositionSet.mem_add h.deletesAscend).mpr (.inr hdeleted)
    | swap i j => exact hdeleted
    | clear => exact absurd hm List.not_mem_nil

theorem move (h : Ordered d) (i j : Nat) : Ordered (d.move i j) where
  insertsAscend := (moved_spec h.insertsAscend (i < j) (d.originOf i)).1
  deletesAscend := PositionSet.ascending_add h.deletesAscend
  changesAscend := (moved_spec h.changesAscend (i < j) (d.originOf i)).1
  moved m hm := by
    refine (PositionSet.mem_add h.deletesAscend).mpr ?_
    rcases List.mem_append.mp hm with hold | hnew
    · exact .inr (h.moved m hold)
    · exact .inl (congrArg ListMove.origin (List.mem_singleton.mp hnew))

end Ordered

end ListDiff

namespace Rearranged

variable {t : Rearranged} {p : Nat}

theorem ordered_step (h : t.diff.Ordered) (op : Rearrangement α) : (t.step op).diff.Ordered := by
  cases op with
  | edit e => exact h.record e
  | move i j => exact h.move i j

theorem ordered_after (h : t.diff.Ordered) (ops : List (Rearrangement α)) :
    (t.after ops).diff.Ordered := by
  induction ops generalizing t with
  | nil => exact h
  | cons op ops ih => exact ih (ordered_step h op)

/-- What every operation preserves that stays inside the list and satisfies `P`, a run of such
operations preserves. -/
theorem preserved_after {I : Rearranged → Prop} {P : Rearranged → Rearrangement α → Prop}
    (hstep : ∀ {t}, I t → t.diff.Ordered → ∀ {op}, t.InRange op → P t op → I (t.step op)) (h : I t)
    (hd : t.diff.Ordered) {ops : List (Rearrangement α)} (hin : Throughout step InRange t ops)
    (hP : Throughout step P t ops) : I (t.after ops) := by
  induction ops generalizing t with
  | nil => exact h
  | cons op ops ih => exact ih (hstep h hd hin.1 hP.1) (ordered_step hd op) hin.2 hP.2

/-! ## Old positions -/

/-- The element that was at `p` before the first operation is still in front of everything that has
been taken out since. -/
def Intact (p : Nat) (t : Rearranged) : Prop :=
  ∀ x, Slot.originAt t.slots x = some p →
    x ∉ t.diff.inserts ∧ t.diff.inserts.unshift x = p ∧ ∀ k ∈ t.diff.deletes, p < k

namespace Intact

theorem fresh (key : ListKey) (n p : Nat) : Intact p (.fresh key n) := by
  intro x hx
  refine ⟨PositionSet.notMem_empty x, ?_, fun k hk => absurd hk (PositionSet.notMem_empty k)⟩
  have hlt : x < n := by simpa [Rearranged.fresh, Slot.untouched] using Slot.lt_of_originAt hx
  have hxp : x = p := by
    simpa [Rearranged.fresh, Slot.originAt, Slot.untouched, List.getElem?_range hlt] using hx
  rw [← hxp]
  exact PositionSet.unshift_of_le PositionSet.ascending_empty fun k hk =>
    absurd hk (PositionSet.notMem_empty k)

/-- Then its position is recorded right. -/
theorem originOf_eq (h : Intact p t) (hd : t.diff.Ordered) {x : Nat}
    (hx : Slot.originAt t.slots x = some p) : t.diff.originOf x = p := by
  obtain ⟨-, hplace, hfront⟩ := h x hx
  unfold ListDiff.originOf
  rw [hplace, PositionSet.unshift_of_le hd.deletesAscend fun k hk => Nat.le_of_lt (hfront k hk)]

theorem insert (h : Intact p t) (hd : t.diff.Ordered) (i : Nat) (a : α) :
    Intact p (t.step (.edit (.insert i a))) := by
  intro x hx
  replace hx : Slot.originAt (t.slots.insertIdx i .made) x = some p := hx
  show x ∉ t.diff.inserts.insertAt i ∧ (t.diff.inserts.insertAt i).unshift x = p ∧ _
  have hmem : ∀ y, y ∈ t.diff.inserts.insertAt i ↔ _ :=
    fun y => PositionSet.mem_insertAt hd.insertsAscend
  rw [Slot.originAt_insert] at hx
  rw [hmem]
  rcases Nat.lt_trichotomy x i with hlt | rfl | hgt
  · rw [if_pos hlt] at hx
    obtain ⟨hold, hplace, hfront⟩ := h x hx
    refine ⟨by simp [hold, Nat.ne_of_lt hlt, Nat.lt_asymm hlt], ?_, hfront⟩
    rw [← hplace]
    refine PositionSet.unshift_congr hd.insertsAscend
      (PositionSet.ascending_insertAt hd.insertsAscend) fun y hy => ?_
    rw [hmem]
    have hyi : y < i := Nat.lt_trans hy hlt
    simp [hyi, Nat.ne_of_lt hyi, Nat.lt_asymm hyi]
  · simp at hx
  · rw [if_neg (Nat.lt_asymm hgt), if_neg (Nat.ne_of_gt hgt)] at hx
    obtain ⟨hold, hplace, hfront⟩ := h (x - 1) hx
    refine ⟨by simp [hold, Nat.ne_of_gt hgt, Nat.lt_asymm hgt], ?_, hfront⟩
    rw [← hplace, ← PositionSet.unshift_insertAt hd.insertsAscend (show i ≤ x - 1 by omega),
      Nat.sub_add_cancel (by omega)]

/-- Whatever is behind the element has a later old position. -/
theorem lt_unshift (h : Intact p t) (hd : t.diff.Ordered) {x k : Nat}
    (hx : Slot.originAt t.slots x = some p) (hk : x < k) : p < t.diff.inserts.unshift k := by
  obtain ⟨hold, hplace, -⟩ := h x hx
  exact hplace ▸ PositionSet.unshift_lt_unshift hd.insertsAscend hold hk

theorem erase (h : Intact p t) (hd : t.diff.Ordered) {k : Nat}
    (hbehind : Behind p t (.edit (.erase k : ListEdit α))) :
    Intact p (t.step (.edit (.erase k : ListEdit α))) := by
  intro x hx
  replace hx : Slot.originAt (t.slots.eraseIdx k) x = some p := hx
  rw [Slot.originAt_erase] at hx
  by_cases hlt : x < k
  · rw [if_pos hlt] at hx
    obtain ⟨hold, hplace, hfront⟩ := h x hx
    have hsame : ∀ y < k, y ∈ t.diff.inserts.eraseAt k ↔ y ∈ t.diff.inserts := fun y hy => by
      simp [PositionSet.mem_eraseAt hd.insertsAscend, hy, Nat.not_le.mpr hy]
    have hascend := PositionSet.ascending_eraseAt (i := k) hd.insertsAscend
    refine ⟨fun hin => hold ((hsame x hlt).mp hin), ?_, fun y hy => ?_⟩
    · rw [← hplace]
      exact PositionSet.unshift_congr hd.insertsAscend hascend fun y hy =>
        hsame y (Nat.lt_trans hy hlt)
    · rcases (PositionSet.mem_add hd.deletesAscend).mp hy with rfl | hy
      · -- what is erased now is behind the element, and shifting takes it even farther
        refine Nat.lt_of_lt_of_le (h.lt_unshift hd hx hlt) (Nat.le_trans ?_
          (PositionSet.le_shift hd.deletesAscend _))
        exact Nat.le_of_eq (PositionSet.unshift_congr hd.insertsAscend hascend hsame).symm
      · exact hfront y hy
  · rw [if_neg hlt] at hx
    have := hbehind (x + 1) (Slot.lt_of_originAt hx) hx
    omega

theorem move (h : Intact p t) (hd : t.diff.Ordered) {i j : Nat}
    (hin : t.InRange (.move i j : Rearrangement α))
    (hbehind : Behind p t (.move i j : Rearrangement α)) :
    Intact p (t.step (.move i j : Rearrangement α)) := by
  intro x hx
  replace hx : Slot.originAt (carry i j t.slots) x = some p := hx
  rw [Slot.originAt_carry hin.1 hin.2] at hx
  obtain ⟨hi, hj, hspared⟩ := hbehind _ (Slot.lt_of_originAt hx) hx
  -- the element is in front of the move, so it stays where it is
  have hsource := carrySource_of_lt hi hj
  rw [hsource] at hx hi hj hspared
  obtain ⟨hold, hplace, hfront⟩ := h x hx
  have hmem : ∀ y, y ∈ (t.diff.move i j).inserts ↔ _ :=
    (ListDiff.moved_spec hd.insertsAscend (i < j) (t.diff.originOf i)).2
  refine ⟨fun hin => hold ((hmem x).mp hin).1, ?_, fun y hy => ?_⟩
  · rw [← hplace]
    refine PositionSet.unshift_congr hd.insertsAscend (hd.move i j).insertsAscend fun y hy =>
      (hmem y).trans (and_iff_left_of_imp fun hin hforward => ?_)
    rintro rfl
    exact Nat.lt_asymm hy (hspared hforward hin)
  · rcases (PositionSet.mem_add hd.deletesAscend).mp hy with rfl | hy
    · have hle := PositionSet.unshift_le_unshift hd.deletesAscend (h.lt_unshift hd hx hi)
      have hfirst := PositionSet.unshift_of_le hd.deletesAscend hfront
      exact Nat.lt_of_lt_of_le (Nat.lt_of_lt_of_eq (Nat.lt_succ_self p) hfirst.symm) hle
    · exact hfront y hy

/-- The step lemma. -/
theorem step (h : Intact p t) (hd : t.diff.Ordered) {op : Rearrangement α} (hin : t.InRange op)
    (hbehind : Behind p t op) : Intact p (t.step op) := by
  cases op with
  | edit e =>
    cases e with
    | set i a => exact fun x hx => h x (Slot.originAt_touch i t.slots x ▸ hx)
    | insert i a => exact h.insert hd i a
    | erase i => exact h.erase hd hbehind
    | swap i j =>
      refine fun x hx => h x ?_
      rw [← Slot.originAt_touch i, ← Slot.originAt_touch j]
      exact hx
    | clear => rintro x ⟨⟩
  | move i j => exact h.move hd hin hbehind

end Intact

/-! ## New positions -/

/-- What later operations make of a move that is recorded. -/
def renumberAll : List (Rearrangement α) → ListMove → Option ListMove
  | [], m => some m
  | .edit e :: ops, m => (ListDiff.renumber e m).bind (renumberAll ops)
  | .move _ _ :: ops, m => renumberAll ops m

/-- A move that is recorded in the end was recorded in the beginning, or one of the operations made
it. -/
theorem renumbered_of_mem {ops : List (Rearrangement α)} {m : ListMove}
    (hm : m ∈ (t.after ops).diff.moves) :
    (∃ m₀ ∈ t.diff.moves, renumberAll ops m₀ = some m) ∨
      ∃ (front : List (Rearrangement α)) (i j : Nat) (back : List (Rearrangement α)),
        ops = front ++ .move i j :: back ∧
        renumberAll back ⟨(t.after front).diff.originOf i, j⟩ = some m := by
  induction ops generalizing t with
  | nil => exact .inl ⟨m, hm, rfl⟩
  | cons op ops ih =>
    rcases ih hm with ⟨m₀, hm₀, hops⟩ | ⟨front, i, j, back, rfl, hback⟩
    · cases op with
      | edit e =>
        obtain ⟨m₁, hm₁, hstep⟩ := List.mem_filterMap.mp (ListDiff.moves_record e t.diff ▸ hm₀)
        refine .inl ⟨m₁, hm₁, ?_⟩
        rw [renumberAll, hstep, Option.bind_some, hops]
      | move i j =>
        rcases List.mem_append.mp hm₀ with hold | hnew
        · exact .inl ⟨m₀, hold, hops⟩
        · exact .inr ⟨[], i, j, ops, rfl, List.mem_singleton.mp hnew ▸ hops⟩
    · exact .inr ⟨op :: front, i, j, back, rfl, hback⟩

/-- A recorded move keeps its old position, and its new one goes along with its element as long as
no move comes across that. -/
theorem renumberAll_spec {ops : List (Rearrangement α)} {m m' : ListMove}
    (h : renumberAll ops m = some m') (hin : Throughout step InRange t ops) :
    m'.origin = m.origin ∧ (Slot.originAt t.slots m.target = some p →
      Throughout step (Avoids p) t ops → Slot.originAt (t.after ops).slots m'.target = some p) := by
  induction ops generalizing t m with
  | nil =>
    obtain rfl := Option.some_inj.mp h
    exact ⟨rfl, fun hat _ => hat⟩
  | cons op ops ih =>
    cases op with
    | edit e =>
      obtain ⟨m₁, hstep, hrest⟩ := Option.bind_eq_some_iff.mp h
      obtain ⟨horigin, htarget⟩ := ListDiff.renumber_spec hstep t.slots
      obtain ⟨horigin', hplace⟩ := ih hrest hin.2
      exact ⟨horigin'.trans horigin, fun hat havoid => hplace (htarget.trans hat) havoid.2⟩
    | move i j =>
      obtain ⟨horigin, hplace⟩ := ih h hin.2
      refine ⟨horigin, fun hat havoid => hplace ?_ havoid.2⟩
      have houtside := havoid.1 m.target (Slot.lt_of_originAt hat) hat
      refine (Slot.originAt_carry hin.1.1 hin.1.2 _).trans ?_
      rw [carrySource_of_outside houtside]
      exact hat

/-! ## Changes -/

/-- Every change is about a slot that was overwritten. -/
def Overwritten (slots : List Slot) (d : ListDiff) : Prop :=
  ∀ x ∈ d.changes, slots[x]?.map (·.touched) = some true

namespace Overwritten

variable {slots : List Slot} {d : ListDiff}

theorem set (h : Overwritten slots d) (hd : d.changes.Ascending) {i : Nat} (hi : i < slots.length) :
    Overwritten (Slot.touch i slots) (d.set i) := by
  intro x hx
  rw [Slot.touch, List.getElem?_modify]
  rcases (PositionSet.mem_add hd).mp hx with rfl | hx
  · simp [List.getElem?_eq_getElem hi]
  · obtain ⟨s, hs, htouched⟩ := Option.map_eq_some_iff.mp (h x hx)
    simp only [hs]
    split
    · rfl
    · exact congrArg some htouched

theorem record (h : Overwritten slots d) (hd : d.changes.Ascending) {e : ListEdit α}
    (he : e.InRange slots.length) : Overwritten (e.move slots) (e.record d) := by
  cases e with
  | set i a => exact h.set hd he
  | insert i a =>
    intro x hx
    rw [ListEdit.move, List.getElem?_insertIdx]
    rcases (PositionSet.mem_shiftForInsertAt hd).mp hx with ⟨hlt, hx⟩ | ⟨hgt, hx⟩
    · rw [if_pos hlt]
      exact h x hx
    · rw [if_neg (Nat.lt_asymm hgt), if_neg (Nat.ne_of_gt hgt)]
      exact h (x - 1) hx
  | erase i =>
    intro x hx
    rw [ListEdit.move, List.getElem?_eraseIdx]
    rcases (PositionSet.mem_eraseAt hd).mp hx with ⟨hlt, hx⟩ | ⟨hge, hx⟩
    · rw [if_pos hlt]
      exact h x hx
    · rw [if_neg (Nat.not_lt.mpr hge)]
      exact h (x + 1) hx
  | swap i j =>
    refine (h.set hd he.1).set (PositionSet.ascending_add hd) ?_
    rw [Slot.touch, List.length_modify]
    exact he.2
  | clear => exact fun x hx => absurd hx (PositionSet.notMem_empty x)

/-- The step lemma. -/
theorem step (h : Overwritten t.slots t.diff) (hd : t.diff.Ordered) {op : Rearrangement α}
    (hin : t.InRange op) (hspared : t.SparesChanges op) :
    Overwritten (t.step op).slots (t.step op).diff := by
  cases op with
  | edit e => exact h.record hd.changesAscend hin
  | move i j =>
    intro x hx
    have hmem := (ListDiff.moved_spec hd.changesAscend (i < j) (t.diff.originOf i)).2 x
    obtain ⟨hx, hkept⟩ := hmem.mp hx
    have houtside : x < min i j ∨ max i j < x :=
      (or_assoc.mpr (hspared x hx)).resolve_right fun hgone => hkept hgone.1 hgone.2
    refine (congrArg _ (getElem?_carry hin.1 hin.2 x)).trans ?_
    rw [carrySource_of_outside houtside]
    exact h x hx

end Overwritten

end Rearranged

open Rearranged in
/-- **Moves that are not all recorded where they were.** Start from a fresh record and set, insert,
erase, swap, clear and move inside the list in any way. Every recorded move was made, and its old
position is deleted. That is the position of its element before the first operation, if whatever was
erased and moved before was behind that element and stayed there; and its new position is the one of
the element in the end, if no later move took an element from or to its place or past it. Every
change is about an element that was overwritten, if no move came across a change. -/
theorem moves_recorded (key : ListKey) (n : Nat) (ops : List (Rearrangement α))
    (hin : Throughout step InRange (fresh key n) ops) :
    let final := (fresh key n).after ops
    (∀ m ∈ final.diff.moves, m.origin ∈ final.diff.deletes ∧
      ∃ (front : List (Rearrangement α)) (i j : Nat) (back : List (Rearrangement α)),
        ops = front ++ .move i j :: back ∧
        let found := (fresh key n).after front
        renumberAll back ⟨found.diff.originOf i, j⟩ = some m ∧
        ∀ p, Slot.originAt found.slots i = some p →
          (Throughout step (Behind p) (fresh key n) front → m.origin = p) ∧
          (Throughout step (Avoids p) (found.step (.move i j : Rearrangement α)) back →
            Slot.originAt final.slots m.target = some p)) ∧
      (Throughout step SparesChanges (fresh key n) ops →
        ∀ x ∈ final.diff.changes, final.slots[x]?.map (·.touched) = some true) := by
  intro final
  have hfresh : (fresh key n).diff.Ordered := .fresh key
  refine ⟨fun m hm => ⟨(ordered_after hfresh ops).moved m hm, ?_⟩, fun hspared => ?_⟩
  · rcases renumbered_of_mem hm with ⟨m₀, hnone, -⟩ | ⟨front, i, j, back, hops, hback⟩
    · exact absurd hnone List.not_mem_nil
    have hsplit : final = ((fresh key n).after front |>.step (.move i j)).after back :=
      (congrArg _ hops).trans List.foldl_append
    have hcut : Throughout step InRange (fresh key n) front ∧
        Throughout step InRange ((fresh key n).after front) (.move i j :: back) :=
      throughout_append.mp (hops ▸ hin)
    obtain ⟨hfront, hmove, hrest⟩ := hcut
    refine ⟨front, i, j, back, hops, hback, fun p hp => ⟨fun hbehind => ?_, fun havoid => ?_⟩⟩
    · have hintact := preserved_after Intact.step (Intact.fresh key n p) hfresh hfront hbehind
      rw [(renumberAll_spec (p := p) hback hrest).1]
      exact hintact.originOf_eq (ordered_after hfresh front) hp
    · have hput : Slot.originAt (carry i j ((fresh key n).after front).slots) j = some p := by
        rw [Slot.originAt_carry hmove.1 hmove.2, carrySource, if_pos rfl]
        exact hp
      have hplace := (renumberAll_spec hback hrest).2 hput havoid
      rwa [hsplit]
  · have hnone : Overwritten (fresh key n).slots (fresh key n).diff := fun x hx =>
      absurd hx (PositionSet.notMem_empty x)
    exact preserved_after (I := fun t => Overwritten t.slots t.diff) Overwritten.step hnone hfresh
      hin hspared

open Rearranged in
/-- Of a list of six, two elements are moved one after the other, with room made in front of the
first and one taken away behind both; the last element was overwritten and is out of their way. -/
theorem moves_recorded_frontToBack :
    let start := fresh ⟨0, 0, 0⟩ 6
    let ops : List (Rearrangement Nat) := [.edit (.insert 1 7), .edit (.erase 6), .edit (.set 5 8),
      .move 4 3, .move 0 1, .edit (.insert 0 9), .edit (.erase 3)]
    let final := start.after ops
    Throughout step InRange start ops ∧
      (Throughout step (Behind 3) start (ops.take 3) ∧
        Throughout step (Avoids 3) (start.after (ops.take 4)) (ops.drop 4)) ∧
      (Throughout step (Behind 0) start (ops.take 4) ∧
        Throughout step (Avoids 0) (start.after (ops.take 5)) (ops.drop 5)) ∧
      final.diff.moves = [⟨3, 3⟩, ⟨0, 2⟩] ∧
      (∀ m ∈ final.diff.moves, m.origin ∈ final.diff.deletes) ∧
      (∀ m ∈ final.diff.moves, Slot.originAt final.slots m.target = some m.origin) ∧
      Throughout step SparesChanges start ops ∧ final.diff.changes.members = [5] ∧
      ∀ x ∈ final.diff.changes, final.slots[x]?.map (·.touched) = some true := by
  intro start ops final
  have hin : Throughout step InRange start ops := by decide
  have hspared : Throughout step SparesChanges start ops := by decide
  obtain ⟨hmoves, hchanges⟩ := moves_recorded ⟨0, 0, 0⟩ 6 ops hin
  exact ⟨hin, by decide, by decide, by decide, fun m hm => (hmoves m hm).1, by decide, hspared,
    by decide, hchanges hspared⟩

namespace Rearranged

/-- The old positions of the elements that are erased or moved, with `none` for an inserted one. -/
def subjects (t : Rearranged) : List (Rearrangement α) → List (Option Nat)
  | [] => []
  | .edit (.erase i) :: ops =>
    (t.slots[i]?.map (·.origin)).toList ++ subjects (t.step (.edit (.erase i : ListEdit α))) ops
  | .move i j :: ops =>
    (t.slots[i]?.map (·.origin)).toList ++ subjects (t.step (.move i j : Rearrangement α)) ops
  | .edit e :: ops => subjects (t.step (.edit e)) ops

/-- Whether `m` is what is recorded in the end of a move of the element that was at `p` before the
first operation. -/
def Records (t : Rearranged) (ops : List (Rearrangement α)) (p : Nat) (m : ListMove) : Prop :=
  ∃ (front : List (Rearrangement α)) (i j : Nat) (back : List (Rearrangement α)),
    ops = front ++ .move i j :: back ∧ Slot.originAt (t.after front).slots i = some p ∧
      renumberAll back ⟨(t.after front).diff.originOf i, j⟩ = some m

end Rearranged

open Rearranged in
/-- Moves can be recorded wrong in every way. The first of three elements is overwritten, and the
other two are moved in front of it, one after the other. The second move is recorded under the old
position of the wrong element, the first one with a new position where another element is, and a
change at a place where nothing was overwritten. -/
theorem exists_misrecorded_move : ∃ (n : Nat) (ops : List (Rearrangement Nat)),
    let start := fresh ⟨0, 0, 0⟩ n
    let final := start.after ops
    Throughout step InRange start ops ∧ (start.subjects ops).Nodup ∧ none ∉ start.subjects ops ∧
      (∃ m ∈ final.diff.moves, ∃ p, start.Records ops p m ∧ m.origin ≠ p) ∧
      (∃ m ∈ final.diff.moves, ∃ p, start.Records ops p m ∧
        Slot.originAt final.slots m.target ≠ some p) ∧
      ∃ x ∈ final.diff.changes, final.slots[x]?.map (·.touched) = some false := by
  refine ⟨3, [.edit (.set 0 8), .move 2 0, .move 2 0], by decide, by decide, by decide,
    ⟨⟨2, 0⟩, by decide, 1, ?_, by decide⟩, ⟨⟨2, 0⟩, by decide, 2, ?_, by decide⟩,
    ⟨0, by decide, by decide⟩⟩
  · exact ⟨[.edit (.set 0 8), .move 2 0], 2, 0, [], rfl, by decide, by decide⟩
  · exact ⟨[.edit (.set 0 8)], 2, 0, [.move 2 0], rfl, by decide, by decide⟩

end SnapshotCoordination
