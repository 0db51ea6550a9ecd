import SnapshotCoordination.Proofs.Lists.Slots
import SnapshotCoordination.Proofs.Replay.Renumbering

/-!
# What an empty row diff stands for

A table with an empty row diff, or with none, is one to which nothing was written and of which nothing
was erased. That need not mean that its rows are what they were, for three more instructions change
rows, and a recorder takes them in and records nothing: rows are exchanged, all rows are cleared
away, or rows are inserted before others. A file is played here with rows of any kind
(`Instruction.onRows`).

* **`rows_of_unrecorded`** — so the rows that were there before are still there as they were, if none
  of the three was done to any of them;
* **`exists_unrecorded_change`** — otherwise they can be in other places, or gone.
-/

namespace SnapshotCoordination

namespace RowDiff

/-- A diff in which a write or an erase is recorded is not empty, -/
theorem isEmpty_record {e : RowEdit} (h : e.appends = false) (d : RowDiff) :
    (d.record e).isEmpty = false := by
  cases e with
  | write slot =>
    have hadd : ∀ (s : PositionSet) i, (s.add i).isEmpty = false := by
      intro s i
      unfold PositionSet.add
      split
      · next hmem =>
        -- it is a member already
        cases hs : s.members with
        | nil => simp [PositionSet.contains, PositionSet.fromOn, hs] at hmem
        | cons => simp [PositionSet.isEmpty, hs]
      · simp [PositionSet.isEmpty]
    show ((d.changed.add _).isEmpty && _ && _) = false
    rw [hadd]
    rfl
  | erase slot priorRows =>
    simp [record, eraseUnordered, isEmpty]
  | append => cases h

/-- whatever is recorded before it. -/
theorem isEmpty_recordAll {edits : List RowEdit} (hedits : ∀ e ∈ edits, e.appends = false) :
    (empty.recordAll edits).isEmpty ↔ edits = [] := by
  constructor
  · intro hempty
    rcases List.eq_nil_or_concat edits with rfl | ⟨before, e, rfl⟩
    · rfl
    · rw [recordAll, List.concat_eq_append, List.foldl_append] at hempty
      have hlast := isEmpty_record (hedits e (by simp)) (before.foldl record empty)
      cases hempty.symm.trans hlast
  · rintro rfl
    rfl

end RowDiff

/-- No diff of a table is as good as an empty one. -/
theorem Changes.isEmpty_rowDiff_iff {c : Changes} {t : Nat} :
    (c.rowDiff t).isEmpty ↔ ∀ d, c.table? t = some d → d.isEmpty := by
  unfold rowDiff
  cases c.table? t with
  | none => exact iff_of_true rfl fun d hd => by cases hd
  | some d => simp

namespace Log

variable {log : Log} {s : Selection} {t : Nat}

theorem under_subset {p : Selection → Bool} : log.under p s ⊆ log := by
  induction log generalizing s with
  | nil => exact List.Subset.refl []
  | cons i log ih =>
    rw [under]
    split
    · exact List.cons_subset_cons i ih
    · exact List.subset_cons_of_subset i ih

theorem appends_of_mem_rowWork {e : RowEdit} (h : e ∈ log.rowWork s t) : e.appends = false := by
  obtain ⟨i, -, hi⟩ := List.mem_filterMap.mp h
  obtain ⟨-, he⟩ := Option.filter_eq_some_iff.mp hi
  simpa using he

end Log

/-! ## The rows of a file -/

/-- What an instruction does to the rows of the table that it acts on. What a write does to its row is
given, and so is what a row is like that is inserted. An unordered erase moves the last row into the
slot of the one that is erased. -/
def Instruction.onRows {ρ : Type} (write : Instruction → ρ → ρ) (blank : ρ) (rows : List ρ)
    (i : Instruction) : List ρ :=
  match i with
  | .set _ row _ | .setUnique _ row _ | .nullifyLink _ row | .insertText _ row _ _
  | .eraseText _ row _ _ => rows.modify row (write i)
  | .insertRows row count _ => rows.take row ++ List.replicate count blank ++ rows.drop row
  | .eraseRows row count _ false => rows.take row ++ rows.drop (row + count)
  | .eraseRows row count _ true =>
    Nat.repeat (fun rows => rows.getLast?.elim rows fun last => (rows.set row last).dropLast) count
      rows
  | .swapRows rowA rowB => ListEdit.exchange rowA rowB rows
  | .clearTable => []
  | _ => rows

/-- Whether an instruction does without moving any of the first `n` rows, or clearing them away, what
it does without writing or erasing. -/
def Instruction.leavesFirst (n : Nat) : Instruction → Bool
  | insertRows row _ _ => n ≤ row
  | swapRows rowA rowB => n ≤ rowA && n ≤ rowB
  | clearTable => n = 0
  | _ => true

/-- What an instruction that neither writes nor erases does to rows of which the first are still as
they were. -/
theorem Instruction.isPrefix_onRows {ρ : Type} {write : Instruction → ρ → ρ} {blank : ρ}
    {first rows : List ρ} {i : Instruction} (hrows : first <+: rows) (hrecordable : i.isRecordable)
    (hchange : i.rowChange? = none) (hleaves : i.leavesFirst first.length) :
    first <+: i.onRows write blank rows := by
  cases i with
  | set | setUnique | nullifyLink | insertText | eraseText => cases hchange
  | eraseRows row count priorRows unordered =>
    have hone : unordered = true ∧ count = 1 := by simpa [isRecordable] using hrecordable
    have herase : (eraseRows row count priorRows unordered).rowChange? =
        some (.erase row priorRows) := by
      rw [hone.1, hone.2]
      rfl
    cases herase.symm.trans hchange
  | insertRows row count priorRows =>
    have hrow : first.length ≤ row := by simpa [leavesFirst] using hleaves
    have hkept : first <+: rows.take row := List.prefix_take_iff.mpr ⟨hrows, hrow⟩
    show first <+: rows.take row ++ List.replicate count blank ++ rows.drop row
    rw [List.append_assoc]
    exact hkept.trans (List.prefix_append _ _)
  | swapRows rowA rowB =>
    have hrow : first.length ≤ rowA ∧ first.length ≤ rowB := by simpa [leavesFirst] using hleaves
    show first <+: ListEdit.exchange rowA rowB rows
    rw [List.prefix_iff_getElem?] at hrows ⊢
    intro k hk
    rw [ListEdit.getElem?_exchange rows (by omega) (by omega)]
    exact hrows k hk
  | clearTable =>
    have hnone : first.length = 0 := by simpa [leavesFirst] using hleaves
    rw [List.eq_nil_of_length_eq_zero hnone]
    exact List.nil_prefix
  | _ => exact hrows

/-- A recorder takes in recordable instructions only. -/
theorem ChangeRecorder.isRecordable_of_feed {r : ChangeRecorder} {log : Log}
    (h : (LogReader.feed r log).2 = none) : ∀ i ∈ log, i.isRecordable := by
  induction log generalizing r with
  | nil => intro i hi; cases hi
  | cons i log ih =>
    obtain ⟨hread, hlog⟩ := LogReader.feed_cons_eq_none_iff.mp h
    rw [List.forall_mem_cons]
    refine ⟨?_, ih hlog⟩
    cases i with
    | eraseRows row count priorRows unordered =>
      by_contra hbad
      obtain ⟨fault, hfault⟩ := Instruction.exists_unrecordable row priorRows
        (fun hone : unordered = true ∧ count = 1 => hbad (by simp [Instruction.isRecordable, hone]))
      cases hread.symm.trans (congrArg Prod.snd (r.read_of_unrecordable hfault))
    | _ => rfl

/-- If no table is created, what a log does to a table is what it does while that one is selected. -/
theorem TableFile.tableAt_playAll {α : Type} {blank : α} {act : α → Instruction → α}
    (hselect : ∀ a table, act a (.selectTable table) = a) {f : TableFile α} {s : Selection}
    (hselected : f.selected = s.table) {log : Log} (hcreate : ∀ i ∈ log, i.created? = none)
    (t : Nat) : (f.playAll blank act log).tableAt t =
      (log.under (·.table == t) s).foldl act (f.tableAt t) := by
  induction log generalizing f s with
  | nil => rfl
  | cons i log ih =>
    obtain ⟨hi, hlog⟩ := List.forall_mem_cons.mp hcreate
    refine (ih (selected_play hselected i) hlog).trans ?_
    rw [tableAt_play hselect, hi, Option.elim_none, Log.under, hselected]
    by_cases ht : s.table = t <;> simp [ht]

/-- **An empty row diff stands for rows that are neither written to nor erased.** Play a log that
creates no table on a file with any rows. A table has an empty diff or none exactly if the log writes
to none of its rows and erases none. If besides none of those that were there before is exchanged,
cleared away or pushed back by rows inserted before it, they are still there in the end, each in its
place and as it was. -/
theorem rows_of_unrecorded {keys : List ListKey} {log : Log}
    (haccept : (LogReader.replay (ChangeRecorder.observing keys) log).2 = none)
    (hcreate : ∀ i ∈ log, i.created? = none) {ρ : Type} (write : Instruction → ρ → ρ) (blank : ρ)
    (file : Nat → List ρ) (t : Nat) :
    let c := (LogReader.replay (ChangeRecorder.observing keys) log).1.changes
    let played := TableFile.playAll [] (Instruction.onRows write blank) ⟨file, 0⟩ log
    ((∀ d, c.table? t = some d → d.isEmpty) ↔ log.rowWork .initial t = []) ∧
      ((∀ d, c.table? t = some d → d.isEmpty) →
        (∀ i ∈ log.under (·.table == t) .initial, i.leavesFirst (file t).length) →
        file t <+: played.tableAt t) := by
  intro c played
  have hrecords : (∀ d, c.table? t = some d → d.isEmpty) ↔ log.rowWork .initial t = [] := by
    rw [← Changes.isEmpty_rowDiff_iff, ChangeRecorder.rowDiff_replay haccept]
    exact RowDiff.isEmpty_recordAll fun e he => Log.appends_of_mem_rowWork he
  refine ⟨hrecords, fun hempty hleaves => ?_⟩
  have hsilent : ∀ i ∈ log.under (·.table == t) .initial, i.rowChange? = none :=
    List.filterMap_eq_nil_iff.mp (hrecords.mp hempty)
  have hrecordable : ∀ i ∈ log, i.isRecordable := by
    rw [ChangeRecorder.replay_eq_feed] at haccept
    exact ChangeRecorder.isRecordable_of_feed haccept
  have hplayed : played.tableAt t = (log.under (·.table == t) .initial).foldl
      (Instruction.onRows write blank) (file t) :=
    TableFile.tableAt_playAll (fun _ _ => rfl) rfl hcreate t
  rw [hplayed]
  -- the rows that were there before stay the first ones from one instruction to the next
  refine List.foldlRecOn _ _ List.prefix_rfl fun rows hrows i hi => ?_
  exact Instruction.isPrefix_onRows hrows (hrecordable i (Log.under_subset hi)) (hsilent i hi)
    (hleaves i hi)

/-- Rows are appended to table 3, and exchanged there, and the two that it had before are still there.
The one that is written to is a row of another table. -/
theorem rows_of_unrecorded_appended :
    let log : Log := [.selectTable 3, .insertRows 2 2 2, .swapRows 3 2, .optimizeTable,
      .selectTable 1, .setUnique 0 0 .null]
    let c := (LogReader.replay (ChangeRecorder.observing []) log).1.changes
    let played := TableFile.playAll [] (Instruction.onRows (fun _ row => row + 1) 0)
      ⟨fun _ => [10, 20], 0⟩ log
    (LogReader.replay (ChangeRecorder.observing []) log).2 = none ∧
      (∀ i ∈ log, i.created? = none) ∧ (∀ d, c.table? 3 = some d → d.isEmpty) ∧
      [10, 20] <+: played.tableAt 3 ∧ played.tableAt 3 = [10, 20, 0, 0] ∧
      played.tableAt 1 = [11, 20] ∧ c.table? 1 = some ⟨⟨[0]⟩, .empty, 0⟩ := by
  intro log c played
  have haccept : (LogReader.replay (ChangeRecorder.observing []) log).2 = none := by decide
  have hcreate : ∀ i ∈ log, i.created? = none := by decide
  obtain ⟨hrecords, hstill⟩ :=
    rows_of_unrecorded haccept hcreate (fun _ row => row + 1) 0 (fun _ => [10, 20]) 3
  have hempty : ∀ d, c.table? 3 = some d → d.isEmpty := hrecords.mpr (by decide)
  exact ⟨haccept, hcreate, hempty, hstill hempty (by decide), by decide, by decide, by decide⟩

/-- Rows can change and nothing be recorded. The two rows of a table are exchanged, or all of them are
cleared away, and of the table there is no diff. -/
theorem exists_unrecorded_change : ∃ file : Nat → List Nat,
    let unnoticed := fun i : Instruction =>
      let log : Log := [.selectTable 0, i]
      let c := (LogReader.replay (ChangeRecorder.observing []) log).1.changes
      let played := TableFile.playAll [] (Instruction.onRows (fun _ row => row) 0) ⟨file, 0⟩ log
      (LogReader.replay (ChangeRecorder.observing []) log).2 = none ∧ i.created? = none ∧
        c.table? 0 = none ∧ ¬ file 0 <+: played.tableAt 0
    unnoticed (.swapRows 0 1) ∧ unnoticed .clearTable :=
  ⟨fun _ => [10, 20], by decide, by decide⟩

end SnapshotCoordination
