import Mathlib.Data.List.Perm.Subperm
import Mathlib.Data.List.ReduceOption
import SnapshotCoordination.Proofs.Lists.Erasing
import SnapshotCoordination.Proofs.Rows.Unrecorded

/-!
# Lists of rows that move

A list belongs to a row, and a row can move to another slot when one is erased. A log selects a list
by the slot that its row is in at the time, and a recorder compares this slot with that of the key.
A file is played here with the rows that were there before (`Residents`), so it shows which row
lives in a slot, and `Residents.ownWork` is how the list of one row is edited wherever the row is.

* **`lists_recorded_by_place`** — a list diff is about whatever list was selected in the slot of its
  key, and that is the list of the row which was there before, if this one is still there whenever
  the slot or the row is selected;
* **`exists_list_left_behind`** — otherwise the edits of a list can be missing from its diff and
  stand in that of another row, although the writes to the row are recorded under its old index.

The invariant is `Residents.Distinct`: no row is in two slots.
-/

namespace SnapshotCoordination

/-- A row that was there before a log, by the number that its table had and its index. -/
structure OldRow where
  table : Nat
  row : Nat
  deriving DecidableEq

def ListKey.oldRow (key : ListKey) : OldRow := ⟨key.table, key.row⟩

/-- The slot of which an instruction selects the list in column `col`. -/
def Instruction.selectedSlot? (col : Nat) : Instruction → Option Nat
  | selectLinkList c slot => if c = col then some slot else none
  | _ => none

/-- The tables of a file, each with the old row that lives in every slot, or `none` for a row that
was inserted since. -/
abbrev Residents := TableFile (List (Option OldRow))

namespace Residents

/-- The rows before a log, as many for each table as given. -/
def before (sizes : Nat → Nat) : Residents :=
  ⟨fun k => (List.range (sizes k)).map fun i => some ⟨k, i⟩, 0⟩

/-- What an instruction does to the rows. -/
def step (f : Residents) (i : Instruction) : Residents :=
  f.play [] (Instruction.onRows (fun _ row => row) none) i

/-- The old row in a slot of the selected table. -/
def resident? (f : Residents) (slot : Nat) : Option OldRow := (f.tableAt f.selected)[slot]?.join

/-- How the list in column `col` of a row is edited while it is selected, wherever the row lives
then. Whether it is selected at the start is given. -/
def ownWork (row : OldRow) (col : Nat) : Bool → Residents → Log → Log
  | _, _, [] => []
  | _, f, .selectLinkList c slot :: rest =>
    ownWork row col (c == col && f.resident? slot == some row) (f.step (.selectLinkList c slot))
      rest
  | selected, f, i :: rest =>
    if selected && i.editsList then i :: ownWork row col selected (f.step i) rest
    else ownWork row col selected (f.step i) rest

/-- Whether the row of a key is in its old slot, if the list in that slot is selected or the list of
the row. -/
def Stays (key : ListKey) (f : Residents) (i : Instruction) : Prop :=
  ∀ slot ∈ i.selectedSlot? key.col,
    f.selected = key.table ∧ slot = key.row ∨ f.resident? slot = some key.oldRow →
      (f.tableAt key.table)[key.row]? = some (some key.oldRow)

instance (key : ListKey) (f : Residents) (i : Instruction) : Decidable (Stays key f i) :=
  inferInstanceAs (Decidable (∀ slot ∈ i.selectedSlot? key.col, _ → _))

/-! ## No row is in two slots -/

/-- Every old row is in one slot of one table at most. -/
structure Distinct (f : Residents) : Prop where
  nodup : ∀ k, (f.tableAt k).reduceOption.Nodup
  disjoint : ∀ k k' r, r ∈ (f.tableAt k).reduceOption → r ∈ (f.tableAt k').reduceOption → k = k'

end Residents

theorem subperm_reduceOption {α : Type} {xs ys : List (Option α)} (h : xs.Subperm ys) :
    xs.reduceOption.Subperm ys.reduceOption := by
  obtain ⟨zs, hperm, hsub⟩ := h
  exact ⟨zs.reduceOption, hperm.filterMap id, hsub.filterMap id⟩

/-- No value is found twice. -/
theorem eq_of_nodup_reduceOption {α : Type} {xs : List (Option α)} {x y : Nat} {a : α}
    (h : xs.reduceOption.Nodup) (hx : xs[x]? = some (some a)) (hy : xs[y]? = some (some a)) :
    x = y := by
  obtain ⟨hxlt, hx⟩ := List.getElem?_eq_some_iff.mp hx
  obtain ⟨hylt, hy⟩ := List.getElem?_eq_some_iff.mp hy
  have hapart := List.pairwise_iff_getElem.mp (List.pairwise_filterMap.mp h)
  rcases Nat.lt_trichotomy x y with hlt | heq | hgt
  · exact absurd rfl (hapart x y hxlt hylt hlt a hx a hy)
  · exact heq
  · exact absurd rfl (hapart y x hylt hxlt hgt a hy a hx)

/-- An unordered erase leaves all rows but one. -/
theorem subperm_eraseUnordered {ρ : Type} (rows : List ρ) (slot : Nat) :
    (rows.getLast?.elim rows fun last => (rows.set slot last).dropLast).Subperm rows := by
  rcases List.eq_nil_or_concat rows with rfl | ⟨front, last, rfl⟩
  · exact List.Subperm.refl []
  rw [List.concat_eq_append, List.getLast?_concat, Option.elim_some]
  rcases Nat.lt_or_ge slot front.length with hlt | hge
  · rw [List.set_append_left _ _ hlt, List.dropLast_concat]
    have hmoved := (List.set_perm_cons_eraseIdx hlt last).subperm
    have hfront := ((List.eraseIdx_sublist front slot).cons_cons last).subperm
    exact (hmoved.trans hfront).trans (List.perm_append_singleton last front).symm.subperm
  · -- it is the last row itself, or none
    rw [List.set_append_right _ _ hge]
    cases hslot : slot - front.length with
    | zero =>
      rw [List.set_cons_zero, List.dropLast_concat]
      exact (List.sublist_append_left front _).subperm
    | succ n =>
      rw [List.set_cons_succ, List.set_nil, List.dropLast_concat]
      exact (List.sublist_append_left front _).subperm

theorem ListEdit.exchange_perm {α : Type} (i j : Nat) (xs : List α) :
    (exchange i j xs).Perm xs := by
  unfold exchange
  cases hi : xs[i]? with
  | none => exact .refl xs
  | some a =>
    cases hj : xs[j]? with
    | none => exact .refl xs
    | some b =>
      obtain ⟨hilt, rfl⟩ := List.getElem?_eq_some_iff.mp hi
      obtain ⟨hjlt, rfl⟩ := List.getElem?_eq_some_iff.mp hj
      exact List.set_set_perm hilt hjlt

/-- No instruction brings an old row in or doubles one. -/
theorem Instruction.subperm_onRows {α : Type} (rows : List (Option α)) (i : Instruction) :
    (i.onRows (fun _ row => row) none rows).reduceOption.Subperm rows.reduceOption := by
  have hwrite : ∀ slot, (rows.modify slot fun row => row).reduceOption.Subperm rows.reduceOption :=
    fun slot => (List.modify_id slot rows).symm ▸ List.Subperm.refl _
  cases i with
  | set col slot _ | setUnique col slot _ | nullifyLink col slot | insertText col slot _ _
  | eraseText col slot _ _ => exact hwrite slot
  | insertRows row count priorRows =>
    have hsame : (rows.take row ++ List.replicate count none ++ rows.drop row).reduceOption =
        rows.reduceOption := by
      rw [List.reduceOption_append, List.reduceOption_append, List.reduceOption_replicate_none,
        List.append_nil, ← List.reduceOption_append, List.take_append_drop]
    exact hsame ▸ List.Subperm.refl _
  | eraseRows row count priorRows unordered =>
    cases unordered with
    | false =>
      have hkept : (rows.take row ++ rows.drop (row + count)).Sublist rows := by
        conv_rhs => rw [← List.take_append_drop row rows]
        refine (List.Sublist.refl _).append ?_
        rw [← List.drop_drop]
        exact List.drop_sublist count _
      exact (hkept.filterMap id).subperm
    | true =>
      refine subperm_reduceOption ?_
      show (Nat.repeat _ count rows).Subperm rows
      induction count with
      | zero => exact List.Subperm.refl _
      | succ count ih => exact (subperm_eraseUnordered _ row).trans ih
  | swapRows rowA rowB => exact subperm_reduceOption (ListEdit.exchange_perm rowA rowB rows).subperm
  | clearTable => exact List.nil_subperm
  | _ => exact List.Subperm.refl _

theorem Log.listWork_cons (i : Instruction) (rest : Log) (s : Selection) (key : ListKey) :
    listWork (i :: rest) s key =
      (if s.list = some key ∧ i.editsList then [i] else []) ++ rest.listWork (s.follow i) key := by
  rw [← listWork_singleton]
  exact listWork_append [i] rest s key

/-- The number that a table had before an instruction, unless that created it. -/
def Instruction.numberBefore? (i : Instruction) (k : Nat) : Option Nat :=
  i.created?.elim (some k) fun n => if k < n then some k else if k = n then none else some (k - 1)

theorem Instruction.numberBefore?_inj {i : Instruction} {k k' n : Nat}
    (h : i.numberBefore? k = some n) (h' : i.numberBefore? k' = some n) : k = k' := by
  unfold numberBefore? at h h'
  cases hi : i.created? with
  | none =>
    rw [hi] at h h'
    exact Option.some_inj.mp (h.trans h'.symm)
  | some m =>
    rw [hi, Option.elim_some] at h h'
    split_ifs at h h' <;> simp only [Option.some_inj] at h h' <;> omega

namespace Residents

variable {f : Residents}

theorem Distinct.before (sizes : Nat → Nat) : (Residents.before sizes).Distinct := by
  have hrows : ∀ k, ((Residents.before sizes).tableAt k).reduceOption =
      (List.range (sizes k)).map fun i => ⟨k, i⟩ := fun k => by
    simp [Residents.before, List.reduceOption, List.filterMap_map]
  constructor
  · intro k
    rw [hrows]
    exact List.nodup_range.map fun i j heq => congrArg OldRow.row heq
  · intro k k' r hr hr'
    rw [hrows, List.mem_map] at hr hr'
    obtain ⟨i, -, rfl⟩ := hr
    obtain ⟨j, -, heq⟩ := hr'
    exact (congrArg OldRow.table heq).symm

theorem subperm_step (f : Residents) (i : Instruction) (k : Nat) :
    ((f.step i).tableAt k).reduceOption.Subperm
      ((i.numberBefore? k).elim [] fun n => (f.tableAt n).reduceOption) := by
  have htable : (f.step i).tableAt k = _ := TableFile.tableAt_play (fun _ _ => rfl) f i k
  rw [htable, Instruction.numberBefore?]
  cases i.created? with
  | none =>
    rw [Option.elim_none, Option.elim_none, Option.elim_some]
    split
    · exact i.subperm_onRows _
    · exact List.Subperm.refl _
  | some n =>
    rw [Option.elim_some, Option.elim_some]
    split_ifs <;> exact List.Subperm.refl _

/-- The step lemma: rows are moved about in their table at most. -/
theorem Distinct.step (h : f.Distinct) (i : Instruction) : (f.step i).Distinct := by
  have hmem : ∀ k r, r ∈ ((f.step i).tableAt k).reduceOption →
      ∃ n, i.numberBefore? k = some n ∧ r ∈ (f.tableAt n).reduceOption := fun k r hr => by
    have hr := (f.subperm_step i k).subset hr
    cases hn : i.numberBefore? k with
    | none =>
      rw [hn] at hr
      cases hr
    | some n =>
      rw [hn] at hr
      exact ⟨n, rfl, hr⟩
  constructor
  · intro k
    obtain ⟨zs, hperm, hsub⟩ := f.subperm_step i k
    refine (List.Nodup.sublist hsub ?_).perm hperm
    cases i.numberBefore? k with
    | none => exact List.nodup_nil
    | some n => exact h.nodup n
  · intro k k' r hr hr'
    obtain ⟨n, hn, hr⟩ := hmem k r hr
    obtain ⟨n', hn', hr'⟩ := hmem k' r hr'
    exact i.numberBefore?_inj hn (h.disjoint n n' r hr hr' ▸ hn')

/-! ## The work of a list -/

/-- If the row of a key is in its old slot, it is in no other. -/
theorem Distinct.resident?_eq (h : f.Distinct) {key : ListKey} {slot : Nat}
    (hstays : (f.tableAt key.table)[key.row]? = some (some key.oldRow)) :
    f.resident? slot = some key.oldRow ↔ f.selected = key.table ∧ slot = key.row := by
  have hmem : ∀ k x : Nat, (f.tableAt k)[x]? = some (some key.oldRow) →
      key.oldRow ∈ (f.tableAt k).reduceOption := fun k x hx =>
    List.reduceOption_mem_iff.mpr (List.mem_of_getElem? hx)
  unfold resident?
  rw [Option.join_eq_some_iff]
  constructor
  · intro hslot
    have htable := h.disjoint _ _ _ (hmem _ _ hslot) (hmem _ _ hstays)
    rw [htable] at hslot
    exact ⟨htable, eq_of_nodup_reduceOption (h.nodup _) hslot hstays⟩
  · rintro ⟨htable, rfl⟩
    rw [htable]
    exact hstays

theorem ownWork_cons {row : OldRow} {col : Nat} {selected : Bool} {i : Instruction}
    (hselect : ∀ c slot, i ≠ .selectLinkList c slot) (f : Residents) (rest : Log) :
    ownWork row col selected f (i :: rest) =
      (if selected && i.editsList then [i] else []) ++
        ownWork row col selected (f.step i) rest := by
  rw [ownWork]
  · split <;> rfl
  · exact hselect

theorem listWork_eq_ownWork {key : ListKey} {log : Log} {s : Selection}
    (h : f.Distinct) (hselected : f.selected = s.table)
    (hstays : Throughout step (Stays key) f log) :
    log.listWork s key = ownWork key.oldRow key.col (s.list == some key) f log := by
  induction log generalizing f s with
  | nil => rfl
  | cons i log ih =>
    obtain ⟨hstays, hrest⟩ := hstays
    rw [Log.listWork_cons, ih (h.step i) (TableFile.selected_play hselected i) hrest]
    by_cases hselect : ∃ c slot, i = .selectLinkList c slot
    · obtain ⟨c, slot, rfl⟩ := hselect
      rw [ownWork, if_neg (by simp [Instruction.editsList]), List.nil_append]
      congr 1
      -- the slot of the key is selected if the row of the key is
      rw [Bool.eq_iff_iff, Bool.and_eq_true, beq_iff_eq, beq_iff_eq, beq_iff_eq]
      constructor
      · intro heq
        obtain rfl := Option.some_inj.mp heq
        have hthere := hstays slot (if_pos rfl) (.inl ⟨hselected, rfl⟩)
        exact ⟨rfl, (h.resident?_eq hthere).mpr ⟨hselected, rfl⟩⟩
      · rintro ⟨rfl, hresident⟩
        have hthere := hstays slot (if_pos rfl) (.inr hresident)
        obtain ⟨htable, hrow⟩ := (h.resident?_eq hthere).mp hresident
        rw [Selection.follow, ← hselected, htable, hrow]
    · have hother : ∀ c slot, i ≠ .selectLinkList c slot := fun c slot heq =>
        hselect ⟨c, slot, heq⟩
      rw [ownWork_cons hother, s.list_follow hother]
      simp

end Residents

open Residents in
/-- **A list diff is about a place.** The diff of an observed list is what the edits made while the
list in the slot of its key was selected make of a fresh one, whichever row lived in that slot then.
These are the edits of the list of the row that was there before, if this row is in its old slot
whenever the list in that slot is selected and whenever its own list is. -/
theorem lists_recorded_by_place {keys : List ListKey} {log : Log}
    (haccept : (LogReader.replay (ChangeRecorder.observing keys) log).2 = none) {key : ListKey}
    (hkey : key ∈ keys) (sizes : Nat → Nat) :
    let c := (LogReader.replay (ChangeRecorder.observing keys) log).1.changes
    c.list? key = some ((log.listWork .initial key).foldl ListDiff.follow (.fresh key)) ∧
      (Throughout step (Stays key) (before sizes) log → c.list? key =
        some ((ownWork key.oldRow key.col false (before sizes) log).foldl ListDiff.follow
          (.fresh key))) := by
  intro c
  have hplace := ChangeRecorder.list?_replay haccept hkey
  refine ⟨hplace, fun hstays => hplace.trans ?_⟩
  rw [listWork_eq_ownWork (Distinct.before sizes) rfl hstays]
  rfl

open Residents in
/-- The list of row 1 is selected after the last row has moved into slot 3, and is edited again
after the row itself has moved into slot 0, where another list of it is selected then. -/
theorem lists_recorded_by_place_movedAfter :
    let key : ListKey := ⟨0, 1, 2⟩
    let sizes := fun _ : Nat => 5
    let log : Log := [.selectTable 0, .eraseRows 3 1 5 true, .selectLinkList 2 1, .listInsert 0 9,
      .eraseRows 2 1 4 true, .eraseRows 2 1 3 true, .eraseRows 0 1 2 true, .listSet 1 4,
      .selectLinkList 3 0, .listClear 5]
    let replayed := LogReader.replay (ChangeRecorder.observing [key]) log
    replayed.2 = none ∧ Throughout step (Stays key) (before sizes) log ∧
      ownWork key.oldRow 2 false (before sizes) log = [.listInsert 0 9, .listSet 1 4] ∧
      replayed.1.changes.list? key = some (((ListDiff.fresh key).insert 0).set 1) := by
  intro key sizes log replayed
  have haccept : replayed.2 = none := by decide
  have hstays : Throughout step (Stays key) (before sizes) log := by decide
  obtain ⟨-, hlist⟩ := lists_recorded_by_place haccept (List.mem_singleton_self key) sizes
  exact ⟨haccept, hstays, by decide, hlist hstays⟩

namespace Residents

/-- Whether an instruction that erases rows erases one that is there, unordered, and counts them
right. -/
def CountsRight (f : Residents) : Instruction → Prop
  | .eraseRows row count priorRows unordered =>
    unordered = true ∧ count = 1 ∧ row < priorRows ∧ priorRows = (f.tableAt f.selected).length
  | _ => True

end Residents

open Residents in
/-- A list can be left behind by its diff. Row 1 of five is erased, so row 4 moves into its slot;
there it is written to, and an element is inserted into its list. The write is recorded for row 4,
the insertion in the diff of the list of row 1. -/
theorem exists_list_left_behind : ∃ (sizes : Nat → Nat) (keys : List ListKey) (log : Log),
    (LogReader.replay (ChangeRecorder.observing keys) log).2 = none ∧
      Throughout step CountsRight (before sizes) log ∧
      let c := (LogReader.replay (ChangeRecorder.observing keys) log).1.changes
      ∃ key ∈ keys, ∃ other ∈ keys, (c.rowDiff key.table).changed.members = [key.row] ∧
        ownWork key.oldRow key.col false (before sizes) log = [.listInsert 0 9] ∧
        c.list? key = some (.fresh key) ∧
        ownWork other.oldRow other.col false (before sizes) log = [] ∧
        c.list? other = some ((ListDiff.fresh other).insert 0) := by
  refine ⟨fun _ => 5, [⟨0, 4, 2⟩, ⟨0, 1, 2⟩], [.selectTable 0, .eraseRows 1 1 5 true,
    .set 0 1 (.int 1), .selectLinkList 2 1, .listInsert 0 9], by decide, ?_, ⟨0, 4, 2⟩, by decide,
    ⟨0, 1, 2⟩, by decide, by decide, by decide, by decide, by decide, by decide⟩
  exact ⟨trivial, ⟨rfl, rfl, by decide, rfl⟩, trivial, trivial, trivial, trivial⟩

end SnapshotCoordination
