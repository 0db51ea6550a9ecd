import SnapshotCoordination.Proofs.Lists.Rebuild

/-!
# Erasing what was inserted

An edit can erase an element that an earlier edit inserted. That element had no position before the
first edit, but the diff records a deletion all the same, and takes one of the positions that are
not deleted yet for it. What it knows of insertions and changes does not suffer from that
(`Marks.record` holds for every edit in range), but what it knows of deletions does: from then on it
takes every element that stands behind the erased one for one farther back.

* **`inserts_changes_exact`** — insertions and changes are exact whatever is erased;
* **`deletions_reported`** — every erased position is deleted, if no inserted element was ever
  erased in front of its element, and up to every position as many are deleted as are erased in any
  case;
* **`exists_unreported_deletion`** — behind an inserted element that was erased, an element can be
  erased and its position not be deleted.

The invariants are `Accounts` for the number of the deletions and `Known` for one position.
-/

namespace SnapshotCoordination

variable {α : Type}

/-! ## Runs of edits -/

/-- Whether `P` holds of every event of a run and of the state which that finds. -/
def Throughout {σ ε : Type} (step : σ → ε → σ) (P : σ → ε → Prop) : σ → List ε → Prop
  | _, [] => True
  | s, e :: rest => P s e ∧ Throughout step P (step s e) rest

instance decideThroughout {σ ε : Type} (step : σ → ε → σ) (P : σ → ε → Prop)
    [∀ s e, Decidable (P s e)] : ∀ (s : σ) (events : List ε), Decidable (Throughout step P s events)
  | _, [] => .isTrue trivial
  | s, e :: rest =>
    have := decideThroughout step P (step s e) rest
    inferInstanceAs (Decidable (P s e ∧ Throughout step P (step s e) rest))

theorem throughout_append {σ ε : Type} {step : σ → ε → σ} {P : σ → ε → Prop} {s : σ}
    {front back : List ε} : Throughout step P s (front ++ back) ↔
      Throughout step P s front ∧ Throughout step P (front.foldl step s) back := by
  induction front generalizing s with
  | nil => exact ⟨fun h => ⟨trivial, h⟩, And.right⟩
  | cons e front ih => exact (and_congr_right fun _ => ih).trans and_assoc.symm

namespace ListEdit

/-- The slots after one edit after the other. -/
def moveAll (edits : List (ListEdit α)) (slots : List Slot) : List Slot :=
  edits.foldl (fun slots e => e.move slots) slots

/-- Whether every edit stays inside the list it finds. -/
def InRangeAll (edits : List (ListEdit α)) (xs : List α) : Prop :=
  Throughout (fun xs e => e.apply xs) (fun xs e => e.InRange xs.length) xs edits

instance (edits : List (ListEdit α)) (xs : List α) : Decidable (InRangeAll edits xs) :=
  inferInstanceAs (Decidable (Throughout _ _ _ _))

def isErase : ListEdit α → Bool
  | erase _ => true
  | _ => false

/-- Whether an edit erases an inserted element in front of the one that was at `p` before the first
edit. -/
def Misleads (p : Nat) (slots : List Slot) : ListEdit α → Prop
  | erase i =>
    slots[i]?.map (·.origin) = some none ∧ p ∈ (slots.drop (i + 1)).filterMap (·.origin)
  | _ => False

instance (p : Nat) (slots : List Slot) : (e : ListEdit α) → Decidable (e.Misleads p slots)
  | erase i => inferInstanceAs (Decidable (slots[i]?.map (·.origin) = some none ∧
      p ∈ (slots.drop (i + 1)).filterMap (·.origin)))
  | set _ _ | insert _ _ | swap _ _ | clear => .isFalse id

end ListEdit

/-! ## Insertions and changes -/

/-- What ascends is listed by what it contains. -/
theorem PositionSet.members_eq_findIdxs {β : Type} {s : PositionSet} (h : s.Ascending)
    {xs : List β} {p : β → Bool} (hmem : ∀ i, i ∈ s ↔ xs[i]?.map p = some true) :
    s.members = xs.findIdxs p := by
  refine List.Pairwise.eq_of_mem_iff h List.pairwise_findIdxs fun i => ?_
  rw [← PositionSet.mem_def, hmem, List.mem_findIdxs_iff_exists_getElem_pos, Option.map_eq_some_iff]
  simp only [List.getElem?_eq_some_iff]
  constructor
  · rintro ⟨-, ⟨hi, rfl⟩, hp⟩
    exact ⟨hi, hp⟩
  · rintro ⟨hi, hp⟩
    exact ⟨_, ⟨hi, rfl⟩, hp⟩

namespace Marks

variable {slots : List Slot} {d : ListDiff}

/-- The run lemma. -/
theorem recordAll {edits : List (ListEdit α)} {xs : List α} (h : Marks slots d)
    (hlength : slots.length = xs.length) (hedits : ListEdit.InRangeAll edits xs) :
    Marks (ListEdit.moveAll edits slots) (ListEdit.recordAll edits d) ∧
      (ListEdit.moveAll edits slots).length = (ListEdit.applyAll edits xs).length := by
  induction edits generalizing xs slots d with
  | nil => exact ⟨h, hlength⟩
  | cons e edits ih =>
    exact ih (h.record e (hlength ▸ hedits.1)) (e.length_move hlength) hedits.2

theorem members_inserts (h : Marks slots d) :
    d.inserts.members = slots.findIdxs (·.origin.isNone) := by
  refine PositionSet.members_eq_findIdxs h.insertsAscend fun i => (h.mem_inserts i).trans ?_
  cases slots[i]? <;> simp

theorem members_changes (h : Marks slots d) :
    d.changes.members = slots.findIdxs (·.touched) :=
  PositionSet.members_eq_findIdxs h.changesAscend h.mem_changes

end Marks

/-- **Insertions and changes are exact.** Start from a fresh record and make any edits that stay
inside the list, whatever they erase. The insertions are the positions, in the final list, of the
slots that an insertion made and that are still there, and the changes are the positions of the
slots that are still there and were overwritten, each once and in ascending order. All of them are
positions of the final list. -/
theorem inserts_changes_exact (key : ListKey) (before : List α) (edits : List (ListEdit α))
    (hedits : ListEdit.InRangeAll edits before) :
    let d := ListEdit.recordAll edits (.fresh key)
    let final := ListEdit.applyAll edits before
    let slots := ListEdit.moveAll edits (Slot.untouched before.length)
    slots.length = final.length ∧
      d.inserts.members = slots.findIdxs (·.origin.isNone) ∧
      d.changes.members = slots.findIdxs (·.touched) ∧
      (∀ i ∈ d.inserts, i < final.length) ∧
      ∀ i ∈ d.changes, i < final.length := by
  intro d final slots
  have hlength : (Slot.untouched before.length).length = before.length := by simp [Slot.untouched]
  obtain ⟨hmarks, hfinal⟩ := (Marks.fresh key before.length).recordAll hlength hedits
  refine ⟨hfinal, hmarks.members_inserts, hmarks.members_changes, fun i hi => ?_, fun i hi => ?_⟩
  · exact hfinal ▸ hmarks.lt_of_mem_inserts hi
  · exact hfinal ▸ hmarks.lt_of_mem_changes hi

/-- Of a list of three, an element is overwritten and pushed about; two elements are erased that
were inserted, and one that was there before; what is left of the others is exchanged. -/
theorem inserts_changes_exact_twoInsertedErased :
    let edits : List (ListEdit Nat) :=
      [.insert 1 5, .set 2 6, .erase 1, .insert 0 7, .insert 2 8, .erase 0, .erase 3, .swap 0 1]
    let d := ListEdit.recordAll edits (.fresh ⟨0, 0, 0⟩)
    let slots := ListEdit.moveAll edits (Slot.untouched 3)
    ListEdit.InRangeAll edits [1, 2, 3] ∧ ListEdit.applyAll edits [1, 2, 3] = [8, 1, 6] ∧
      d.inserts.members = slots.findIdxs (·.origin.isNone) ∧ d.inserts.members = [1] ∧
      d.changes.members = slots.findIdxs (·.touched) ∧ d.changes.members = [0, 1, 2] := by
  intro edits d slots
  have hedits : ListEdit.InRangeAll edits [1, 2, 3] := by decide
  obtain ⟨-, hinserts, hchanges, -, -⟩ := inserts_changes_exact ⟨0, 0, 0⟩ [1, 2, 3] edits hedits
  exact ⟨hedits, by decide, hinserts, by decide, hchanges, by decide⟩

/-! ## What an erase does to the deletions -/

/-- Whether the element that was at `p` before the first edit is gone. -/
def Gone (slots : List Slot) (p : Nat) : Prop := p ∉ slots.filterMap (·.origin)

instance (slots : List Slot) (p : Nat) : Decidable (Gone slots p) :=
  inferInstanceAs (Decidable (p ∉ slots.filterMap (·.origin)))

theorem Slot.filterMap_origin_untouched (n : Nat) :
    (untouched n).filterMap (·.origin) = List.range n := by
  simp [untouched, List.filterMap_map]

/-- An erase takes out what has survived at its place, if anything has. -/
theorem Slot.filterMap_origin_at {slots : List Slot} {i : Nat} (hi : i < slots.length) :
    slots.filterMap (·.origin) = (slots.take i).filterMap (·.origin) ++
        (slots[i].origin.toList ++ (slots.drop (i + 1)).filterMap (·.origin)) ∧
      (slots.eraseIdx i).filterMap (·.origin) =
        (slots.take i).filterMap (·.origin) ++ (slots.drop (i + 1)).filterMap (·.origin) := by
  constructor
  · conv_lhs => rw [← List.take_append_drop i slots, List.drop_eq_getElem_cons hi]
    rw [List.filterMap_append]
    congr 1
    cases horigin : slots[i].origin with
    | none => rw [List.filterMap_cons_none horigin]; rfl
    | some p => rw [List.filterMap_cons_some horigin]; rfl
  · rw [List.eraseIdx_eq_take_drop_succ, List.filterMap_append]

/-- Whatever is erased, the diff takes it for the element that has as many positions left in front
of it as elements have survived in front of the place. -/
theorem Marks.deletes_erase {slots : List Slot} {d : ListDiff} (h : Marks slots d)
    (hascend : d.deletes.Ascending) {i : Nat} (hi : i < slots.length) :
    ∃ y, y ∉ d.deletes ∧
      d.deletes.unshift y = ((slots.take i).filterMap (·.origin)).length ∧
      (d.erase i).deletes = d.deletes.add y := by
  have hlength : i ≤ (slots.eraseIdx i).length := by rw [List.length_eraseIdx_of_lt hi]; omega
  have htake := (h.erase i).length_origins_take hlength
  rw [List.take_eraseIdx_eq_take_of_le _ _ _ (Nat.le_refl i)] at htake
  refine ⟨d.deletes.shift ((d.erase i).inserts.unshift i), PositionSet.shift_notMem hascend _, ?_,
    rfl⟩
  rw [PositionSet.unshift_shift hascend, htake]

theorem ListEdit.exists_of_isErase {e : ListEdit α} (h : e.isErase = true) : ∃ i, e = .erase i := by
  cases e with
  | erase i => exact ⟨i, rfl⟩
  | _ => cases h

/-- What erases nothing changes neither what has survived nor the deletions, except for a clear. -/
theorem ListEdit.of_not_isErase {slots : List Slot} {e : ListEdit α} (he : e.InRange slots.length)
    (herase : e.isErase = false) (hclear : e ≠ .clear) (d : ListDiff) :
    (e.move slots).filterMap (·.origin) = slots.filterMap (·.origin) ∧
      (e.record d).deletes = d.deletes := by
  cases e with
  | set i a => exact ⟨Survivors.filterMap_origin_touch i slots, rfl⟩
  | insert i a => exact ⟨Survivors.filterMap_origin_insert he, rfl⟩
  | erase i => cases herase
  | swap i j =>
    refine ⟨?_, rfl⟩
    rw [ListEdit.move, Survivors.filterMap_origin_touch, Survivors.filterMap_origin_touch]
  | clear => exact absurd rfl hclear

/-! ## The number of deletions -/

/-- Up to every position there are as many deletions as positions whose elements are gone. -/
structure Accounts (n : Nat) (slots : List Slot) (d : ListDiff) : Prop extends Marks slots d where
  deletesAscend : d.deletes.Ascending
  sublist : (slots.filterMap (·.origin)).Sublist (List.range n)
  unshift_le : ∀ x ≤ n,
    d.deletes.unshift x ≤ ((slots.filterMap (·.origin)).filter (· < x)).length

namespace Accounts

variable {n : Nat} {slots : List Slot} {d : ListDiff}

theorem fresh (key : ListKey) (n : Nat) : Accounts n (Slot.untouched n) (.fresh key) where
  toMarks := .fresh key n
  deletesAscend := PositionSet.ascending_empty
  sublist := by rw [Slot.filterMap_origin_untouched]
  unshift_le x hx := by
    have hbelow : (List.range n).filter (· < x) = List.range x := by
      refine List.Pairwise.eq_of_mem_iff (List.pairwise_lt_range.filter _)
        List.pairwise_lt_range fun y => ?_
      rw [List.mem_filter, List.mem_range, List.mem_range, decide_eq_true_eq]
      omega
    rw [Slot.filterMap_origin_untouched, hbelow, List.length_range]
    exact Nat.sub_le x _

theorem ascending (h : Accounts n slots d) : (slots.filterMap (·.origin)).Pairwise (· < ·) :=
  List.pairwise_lt_range.sublist h.sublist

/-- Where an erase finds as many survivors in front of its place as it has positions left for them,
it takes at least as many of either away. -/
theorem erase (h : Accounts n slots d) {i : Nat} (hi : i < slots.length) :
    Accounts n (slots.eraseIdx i) (d.erase i) := by
  obtain ⟨hbefore, hafter⟩ := Slot.filterMap_origin_at hi
  obtain ⟨y, hy, hplace, hdeletes⟩ := h.deletes_erase h.deletesAscend hi
  set A := (slots.take i).filterMap (·.origin)
  set B := (slots.drop (i + 1)).filterMap (·.origin)
  refine ⟨h.toMarks.erase i, ?_, ?_, fun x hx => ?_⟩
  · rw [hdeletes]
    exact PositionSet.ascending_add h.deletesAscend
  · rw [hafter]
    refine List.Sublist.trans ?_ (hbefore ▸ h.sublist)
    exact (List.sublist_append_right _ _).append_left A
  · have hcount := PositionSet.unshift_add h.deletesAscend hy x
    have hle := h.unshift_le x hx
    rw [hbefore] at hle
    rw [hdeletes, hafter]
    cases horigin : slots[i].origin with
    | none =>
      rw [horigin, Option.toList_none, List.nil_append] at hle
      omega
    | some p =>
      have hascend := h.ascending
      rw [hbefore, horigin, Option.toList_some, List.pairwise_append] at hascend
      rw [horigin, Option.toList_some, List.singleton_append, List.filter_append,
        List.length_append, List.filter_cons] at hle
      rw [List.filter_append, List.length_append]
      by_cases hp : p < x
      · -- everything in front of the erased one counts, so there are enough if none is taken away
        have hfront : A.filter (· < x) = A := by
          refine List.filter_eq_self.mpr fun q hq => decide_eq_true ?_
          have := hascend.2.2 q hq p (by simp)
          omega
        rw [hfront] at hle ⊢
        rw [if_pos (by simpa using hp), List.length_cons] at hle
        split at hcount
        · omega
        · have := PositionSet.unshift_le_unshift h.deletesAscend
            (Nat.le_of_not_lt (by assumption : ¬ y < x))
          omega
      · rw [if_neg (by simpa using hp)] at hle
        omega

/-- The step lemma. -/
theorem record (h : Accounts n slots d) {e : ListEdit α} (he : e.InRange slots.length)
    (hclear : e ≠ .clear) : Accounts n (e.move slots) (e.record d) := by
  cases herase : e.isErase with
  | true =>
    obtain ⟨i, rfl⟩ := ListEdit.exists_of_isErase herase
    exact h.erase he
  | false =>
    obtain ⟨hslots, hd⟩ := ListEdit.of_not_isErase he herase hclear d
    refine ⟨h.toMarks.record e he, hd ▸ h.deletesAscend, hslots ▸ h.sublist, ?_⟩
    rw [hslots, hd]
    exact h.unshift_le

/-- The run lemma: every erase is one more deletion. -/
theorem recordAll {edits : List (ListEdit α)} {xs : List α} (h : Accounts n slots d)
    (hlength : slots.length = xs.length) (hedits : ListEdit.InRangeAll edits xs)
    (hclear : ∀ e ∈ edits, e ≠ .clear) :
    Accounts n (ListEdit.moveAll edits slots) (ListEdit.recordAll edits d) ∧
      (ListEdit.recordAll edits d).deletes.size =
        d.deletes.size + edits.countP ListEdit.isErase := by
  induction edits generalizing xs slots d with
  | nil => exact ⟨h, rfl⟩
  | cons e edits ih =>
    obtain ⟨he, hrest⟩ := hedits
    rw [← hlength] at he
    obtain ⟨hclear, hclears⟩ := List.forall_mem_cons.mp hclear
    obtain ⟨haccounts, hsize⟩ := ih (h.record he hclear) (e.length_move hlength) hrest hclears
    refine ⟨haccounts, hsize.trans ?_⟩
    rw [List.countP_cons]
    cases herase : e.isErase with
    | true =>
      obtain ⟨i, rfl⟩ := ListEdit.exists_of_isErase herase
      obtain ⟨y, hy, -, hdeletes⟩ := h.deletes_erase h.deletesAscend he
      rw [ListEdit.record, hdeletes, PositionSet.size_add hy h.deletesAscend, if_pos rfl]
      omega
    | false =>
      rw [(ListEdit.of_not_isErase he herase hclear d).2, if_neg Bool.false_ne_true, Nat.add_zero]

theorem length_gone_le (h : Accounts n slots d) {x : Nat} (hx : x ≤ n) :
    ((List.range x).filter (Gone slots ·)).length ≤ (d.deletes.below x).length := by
  have hkept : ((List.range x).filter fun p => !decide (Gone slots p)).Perm
      ((slots.filterMap (·.origin)).filter (· < x)) := by
    refine (List.perm_ext_iff_of_nodup (List.nodup_range.filter _)
      (h.ascending.nodup.filter _)).mpr fun p => ?_
    rw [List.mem_filter, List.mem_filter, List.mem_range, and_comm]
    simp [Gone]
  -- what is not gone has survived, and there are no more positions left than that
  have hleft := h.unshift_le x hx
  have hsplit := List.length_eq_length_filter_add (l := List.range x) fun p => decide (Gone slots p)
  have hbelow := PositionSet.length_below_add_unshift (i := x) h.deletesAscend
  rw [List.length_range, hkept.length_eq] at hsplit
  omega

end Accounts

/-! ## One position -/

/-- A position is deleted, or its element is still there and is the one that the diff has the
position for. -/
def Known (p : Nat) (slots : List Slot) (d : ListDiff) : Prop :=
  p ∈ d.deletes ∨ p ∈ slots.filterMap (·.origin) ∧ p ∉ d.deletes ∧
    d.deletes.unshift p = (slots.filterMap (·.origin)).idxOf p

namespace Known

variable {n p : Nat} {slots : List Slot} {d : ListDiff}

theorem fresh (key : ListKey) (hp : p < n) : Known p (Slot.untouched n) (.fresh key) := by
  have hindex := (List.nodup_range (n := n)).idxOf_getElem p (by simpa using hp)
  rw [List.getElem_range] at hindex
  unfold Known
  rw [Slot.filterMap_origin_untouched, hindex]
  exact .inr ⟨List.mem_range.mpr hp, PositionSet.notMem_empty p, rfl⟩

/-- An erase that does not mislead deletes the position of its element, and the diff has the right
positions for the others. -/
theorem erase (h : Known p slots d) (hm : Accounts n slots d) {i : Nat}
    (hi : i < slots.length) (hleads : ¬ (ListEdit.erase i : ListEdit α).Misleads p slots) :
    Known p (slots.eraseIdx i) (d.erase i) := by
  obtain ⟨hbefore, hafter⟩ := Slot.filterMap_origin_at hi
  have hascend := hm.deletesAscend
  obtain ⟨y, hy, hplace, hdeletes⟩ := hm.deletes_erase hascend hi
  unfold Known
  rw [hdeletes, hafter, PositionSet.mem_add hascend]
  rcases h with hdeleted | ⟨hthere, hnot, hunshift⟩
  · exact .inl (.inr hdeleted)
  have hcount := PositionSet.unshift_add hascend hy p
  rw [hbefore] at hthere hunshift
  set A := (slots.take i).filterMap (·.origin)
  set B := (slots.drop (i + 1)).filterMap (·.origin)
  by_cases hA : p ∈ A
  · -- it stands in front of the erased one
    have hindex := List.idxOf_lt_length_iff.mpr hA
    rw [List.idxOf_append_of_mem hA] at hunshift ⊢
    have hlt : p < y := by
      by_contra hle
      have := PositionSet.unshift_le_unshift hascend (Nat.le_of_not_lt hle)
      omega
    refine .inr ⟨List.mem_append_left _ hA, not_or.mpr ⟨by omega, hnot⟩, ?_⟩
    rw [if_neg (by omega)] at hcount
    omega
  rw [List.mem_append, or_iff_right hA] at hthere
  rw [List.idxOf_append_of_notMem hA] at hunshift ⊢
  cases horigin : slots[i].origin with
  | none =>
    -- it stands behind an inserted element
    rw [horigin, Option.toList_none, List.nil_append] at hthere
    refine absurd ⟨?_, hthere⟩ hleads
    rw [List.getElem?_eq_getElem hi, Option.map_some, horigin]
  | some q =>
    rw [horigin, Option.toList_some, List.singleton_append] at hthere hunshift
    by_cases hq : q = p
    · -- it is the one that is erased
      rw [hq, List.idxOf_cons_self, Nat.add_zero] at hunshift
      exact .inl (.inl (PositionSet.unshift_inj hascend hnot hy (hunshift.trans hplace.symm)))
    · rw [List.idxOf_cons_ne _ hq] at hunshift
      have hlt : y < p := by
        by_contra hle
        have := PositionSet.unshift_le_unshift hascend (Nat.le_of_not_lt hle)
        omega
      have hB : p ∈ B := (List.mem_cons.mp hthere).resolve_left (Ne.symm hq)
      refine .inr ⟨List.mem_append_right _ hB, not_or.mpr ⟨by omega, hnot⟩, ?_⟩
      rw [if_pos hlt] at hcount
      omega

theorem record (h : Known p slots d) (hm : Accounts n slots d) {e : ListEdit α}
    (he : e.InRange slots.length) (hclear : e ≠ .clear) (hleads : ¬ e.Misleads p slots) :
    Known p (e.move slots) (e.record d) := by
  cases herase : e.isErase with
  | true =>
    obtain ⟨i, rfl⟩ := ListEdit.exists_of_isErase herase
    exact h.erase hm he hleads
  | false =>
    obtain ⟨hslots, hd⟩ := ListEdit.of_not_isErase he herase hclear d
    unfold Known
    rw [hslots, hd]
    exact h

theorem recordAll {edits : List (ListEdit α)} {xs : List α} (h : Known p slots d)
    (hm : Accounts n slots d) (hlength : slots.length = xs.length)
    (hedits : ListEdit.InRangeAll edits xs) (hclear : ∀ e ∈ edits, e ≠ .clear)
    (hleads : Throughout (fun slots e => e.move slots) (fun slots e => ¬ e.Misleads p slots) slots
      edits) : Known p (ListEdit.moveAll edits slots) (ListEdit.recordAll edits d) := by
  induction edits generalizing xs slots d with
  | nil => exact h
  | cons e edits ih =>
    obtain ⟨he, hrest⟩ := hedits
    rw [← hlength] at he
    obtain ⟨hclear, hclears⟩ := List.forall_mem_cons.mp hclear
    exact ih (h.record hm he hclear hleads.1) (hm.record he hclear) (e.length_move hlength) hrest
      hclears hleads.2

end Known

/-- **Deletions that are not all about what was erased.** Start from a fresh record and set, insert,
erase and swap inside the list in any way. The position of an element that is gone is deleted, if no
inserted element was ever erased in front of that element. Even if some were, there are as many
deletions as erases, and up to every position at least as many as there are positions whose elements
are gone. -/
theorem deletions_reported (key : ListKey) (before : List α) (edits : List (ListEdit α))
    (hedits : ListEdit.InRangeAll edits before) (hclear : ∀ e ∈ edits, e ≠ .clear) :
    let d := ListEdit.recordAll edits (.fresh key)
    let slots := ListEdit.moveAll edits (Slot.untouched before.length)
    (∀ p < before.length, Gone slots p →
      Throughout (fun slots e => e.move slots) (fun slots e => ¬ e.Misleads p slots)
        (Slot.untouched before.length) edits → p ∈ d.deletes) ∧
      d.deletes.size = edits.countP ListEdit.isErase ∧
      ∀ x ≤ before.length,
        ((List.range x).filter (Gone slots ·)).length ≤ (d.deletes.below x).length := by
  intro d slots
  have hlength : (Slot.untouched before.length).length = before.length := by simp [Slot.untouched]
  have hfresh := Accounts.fresh key before.length
  obtain ⟨haccounts, hsize⟩ := hfresh.recordAll hlength hedits hclear
  refine ⟨fun p hp hgone hleads => ?_, hsize.trans (Nat.zero_add _), fun x hx => ?_⟩
  · have hknown := (Known.fresh key hp).recordAll hfresh hlength hedits hclear hleads
    exact hknown.resolve_right fun hthere => hgone hthere.1
  · exact haccounts.length_gone_le hx

/-- Of a list of four an element is inserted behind the first two and erased again; then the first
and the last element are erased. The first one is deleted, and so are three positions in all, of
which two belong to elements that are gone. -/
theorem deletions_reported_insertedErased :
    let edits : List (ListEdit Nat) :=
      [.insert 2 9, .set 0 7, .erase 2, .swap 1 2, .erase 0, .erase 2]
    let d := ListEdit.recordAll edits (.fresh ⟨0, 0, 0⟩)
    let slots := ListEdit.moveAll edits (Slot.untouched 4)
    ListEdit.InRangeAll edits [1, 2, 3, 4] ∧ (∀ e ∈ edits, e ≠ .clear) ∧
      Gone slots 0 ∧ Gone slots 3 ∧ ¬ Gone slots 2 ∧
      Throughout (fun slots e => e.move slots) (fun slots e => ¬ e.Misleads 0 slots)
        (Slot.untouched 4) edits ∧ 0 ∈ d.deletes ∧
      d.deletes.members = [0, 2, 4] ∧ d.deletes.size = 3 ∧
      ((List.range 4).filter (Gone slots ·)).length ≤ (d.deletes.below 4).length := by
  intro edits d slots
  have hedits : ListEdit.InRangeAll edits [1, 2, 3, 4] := by decide
  have hclear : ∀ e ∈ edits, e ≠ .clear := by decide
  have hgone : Gone slots 0 := by decide
  have hleads : Throughout (fun slots e => e.move slots) (fun slots e => ¬ e.Misleads 0 slots)
    (Slot.untouched 4) edits := by decide
  obtain ⟨hdeleted, hsize, hbelow⟩ := deletions_reported ⟨0, 0, 0⟩ [1, 2, 3, 4] edits hedits hclear
  exact ⟨hedits, hclear, hgone, by decide, by decide, hleads, hdeleted 0 (by decide) hgone hleads,
    by decide, hsize, hbelow 4 (Nat.le_refl 4)⟩

/-- A position can go unreported. In front of three elements one is inserted and erased again; then
the second of the three is erased. Its position is not deleted, but those of the other two are,
which are still there. -/
theorem exists_unreported_deletion : ∃ (before : List Nat) (edits : List (ListEdit Nat)),
    ListEdit.InRangeAll edits before ∧ (∀ e ∈ edits, e ≠ .clear) ∧
      let d := ListEdit.recordAll edits (.fresh ⟨0, 0, 0⟩)
      let slots := ListEdit.moveAll edits (Slot.untouched before.length)
      ∃ p < before.length, Gone slots p ∧ p ∉ d.deletes ∧
        ∀ q < before.length, q ≠ p → ¬ Gone slots q ∧ q ∈ d.deletes :=
  ⟨[1, 2, 3], [.insert 0 9, .erase 0, .erase 1], by decide, by decide, 1, by decide, by decide,
    by decide, by decide⟩

end SnapshotCoordination
