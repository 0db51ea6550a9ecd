import SnapshotCoordination.Proofs.Rows.Occupants
import SnapshotCoordination.Proofs.Storage.Histories
import SnapshotCoordination.Replay.ChangeRecorder

/-!
# What a recorder makes of an instruction

A recorder hands every instruction to its schema guard first. Of what the guard takes in it refuses
erases of rows that a row diff has no form for (`Instruction.Unrecordable`), and of the rest it
records writes and erases for the selected table (`Instruction.rowChange?`) and list edits for the
selected list (`Instruction.editsList`).

* **`ChangeRecorder.ReadOutcome`** — all that can come of an instruction, one constructor for each
  way;
* **`ChangeRecorder.readOutcome`** — and nothing else does. What follows about refusals and about the
  guard follows from that, and no proof behind it opens the recorder again.
-/

namespace SnapshotCoordination

namespace Instruction

/-- The row edit that an instruction is, if it writes to a field, erases one row unordered, or
appends rows. -/
def rowEdit? : Instruction → Option RowEdit
  | set _ row _ | setUnique _ row _ | nullifyLink _ row | insertText _ row _ _
  | eraseText _ row _ _ => some (.write row)
  | eraseRows row count priorRows unordered =>
    if unordered ∧ count = 1 then some (.erase row priorRows) else none
  | insertRows row count priorRows => some (.append row count priorRows)
  | _ => none

/-- The row edit that an instruction leaves a trace of: a write or an erase. -/
def rowChange? (i : Instruction) : Option RowEdit := i.rowEdit?.filter fun e => !e.appends

/-- Whether an instruction edits a link list. -/
def editsList : Instruction → Bool
  | listSet .. | listInsert .. | listErase _ | listNullify _ | listSwap .. | listClear _
  | listMove .. => true
  | _ => false

/-- Whether a recorder takes in an instruction that its guard takes in. -/
def isRecordable : Instruction → Bool
  | eraseRows _ count _ unordered => unordered && count == 1
  | _ => true

/-- What a recorder has against an instruction that its guard takes in: it erases rows and keeps
their order, or erases more or less than one. -/
inductive Unrecordable : Instruction → LogFault → Prop
  | ordered (row count priorRows : Nat) :
      Unrecordable (eraseRows row count priorRows false) (.orderedErase row)
  | several (row priorRows : Nat) {count : Nat} (hcount : count ≠ 1) :
      Unrecordable (eraseRows row count priorRows true) (.erasesSeveral count row)

theorem exists_unrecordable (row priorRows : Nat) {count : Nat} {unordered : Bool}
    (h : ¬ (unordered = true ∧ count = 1)) :
    ∃ fault, (eraseRows row count priorRows unordered).Unrecordable fault := by
  cases unordered with
  | false => exact ⟨_, .ordered row count priorRows⟩
  | true => exact ⟨_, .several row priorRows fun hone => h ⟨rfl, hone⟩⟩

theorem Unrecordable.not_isRecordable {i : Instruction} {fault : LogFault}
    (h : i.Unrecordable fault) : i.isRecordable = false := by
  cases h with
  | ordered => rfl
  | several row priorRows hcount => simpa [isRecordable] using hcount

end Instruction

/-- How a list edit is recorded. -/
def ListDiff.follow (d : ListDiff) : Instruction → ListDiff
  | .listSet index _ => d.set index
  | .listInsert index _ => d.insert index
  | .listErase index | .listNullify index => d.erase index
  | .listSwap indexA indexB => d.swap indexA indexB
  | .listClear _ => d.clear
  | .listMove origin target => d.move origin target
  | _ => d

/-- An edit of a list does not make it another list. -/
theorem ListDiff.key_follow (d : ListDiff) (i : Instruction) : (d.follow i).key = d.key := by
  cases i <;> rfl

/-! ## The row diff of a table -/

namespace Changes

/-- What happened to the rows of table `n`; nothing, if nothing is recorded. -/
def rowDiff (c : Changes) (n : Nat) : RowDiff := (c.table? n).getD .empty

theorem lt_length_makeRoom (tables : List RowDiff) (n : Nat) : n < (makeRoom tables n).length := by
  unfold makeRoom
  split
  · rw [List.length_append, List.length_replicate]
    omega
  · omega

theorem length_le_length_makeRoom (tables : List RowDiff) (n : Nat) :
    tables.length ≤ (makeRoom tables n).length := by
  unfold makeRoom
  split
  · simp
  · exact Nat.le_refl _

/-- What room is made is filled with the diffs of untouched tables. -/
theorem getD_makeRoom (tables : List RowDiff) (n k : Nat) :
    (makeRoom tables n)[k]?.getD .empty = tables[k]?.getD .empty := by
  unfold makeRoom
  split
  · by_cases hk : k < tables.length
    · rw [List.getElem?_append_left hk]
    · rw [List.getElem?_append_right (by omega), List.getElem?_replicate,
        List.getElem?_eq_none (l := tables) (by omega)]
      split <;> rfl
  · rfl

theorem rowDiff_onTable (c : Changes) (n k : Nat) (f : RowDiff → RowDiff) :
    (c.onTable n f).rowDiff k = if n = k then f (c.rowDiff k) else c.rowDiff k := by
  unfold rowDiff table? onTable
  rw [← getD_makeRoom c.tables n k, List.getElem?_modify]
  split
  · next hk =>
    rw [List.getElem?_eq_getElem (hk ▸ lt_length_makeRoom c.tables n)]
    rfl
  · simp

end Changes

namespace SchemaGuard

/-- A guard that refuses an instruction is left as it was. -/
theorem read_of_refused {g : SchemaGuard} {i : Instruction} (h : (g.read i).2 ≠ none) :
    g.read i = (g, some .schemaMismatch) := by
  obtain ⟨failure, hfailure⟩ := Option.ne_none_iff_exists'.mp h
  refine Prod.ext ?_ (hfailure.trans (congrArg some (read_eq_schemaMismatch hfailure)))
  cases i with
  | selectTable | insertTable => cases hfailure
  | _ => rfl

end SchemaGuard

namespace ChangeRecorder

variable {r : ChangeRecorder} {i : Instruction}

/-! ## One instruction -/

/-- What a recorder makes of an instruction. -/
inductive ReadOutcome (r : ChangeRecorder) : Instruction → ChangeRecorder × Option Failure → Prop
  | unsupported {i : Instruction} (hguard : r.guard.read i = (r.guard, some .schemaMismatch)) :
      ReadOutcome r i (r, some .schemaMismatch)
  | unrecordable {i : Instruction} {fault : LogFault} (hguard : r.guard.read i = (r.guard, none))
      (hfault : i.Unrecordable fault) : ReadOutcome r i (r, some (.invalidLog fault))
  | row {i : Instruction} {e : RowEdit} (hguard : r.guard.read i = (r.guard, none))
      (hrow : i.rowChange? = some e) : ReadOutcome r i (r.onCurrentTable (·.record e), none)
  | list {i : Instruction} (hguard : r.guard.read i = (r.guard, none)) (hlist : i.editsList) :
      ReadOutcome r i (r.onActiveList (·.follow i), none)
  | selectList (col row : Nat) :
      ReadOutcome r (.selectLinkList col row) (r.selectList row col, none)
  | silent {i : Instruction} {g : SchemaGuard} (hguard : r.guard.read i = (g, none))
      (hrow : i.rowChange? = none) (hlist : i.editsList = false)
      (hselect : ∀ col row, i ≠ .selectLinkList col row) :
      ReadOutcome r i ({ r with guard := g }, none)

theorem read_of_unrecordable (r : ChangeRecorder) {fault : LogFault} (h : i.Unrecordable fault) :
    r.read i = (r, some (.invalidLog fault)) := by
  cases h with
  | ordered => rfl
  | several row priorRows hcount => exact if_pos hcount

theorem readOutcome (r : ChangeRecorder) (i : Instruction) : r.ReadOutcome i (r.read i) := by
  by_cases hrefused : (r.guard.read i).2 = none
  swap
  · have hguard := SchemaGuard.read_of_refused hrefused
    unfold read
    rw [hguard]
    exact .unsupported hguard
  cases i with
  | set | setUnique | nullifyLink | insertText | eraseText =>
    exact .row (e := .write _) rfl rfl
  | eraseRows row count priorRows unordered =>
    -- one row, unordered, or else the recorder refuses
    by_cases hone : unordered = true ∧ count = 1
    · obtain ⟨rfl, rfl⟩ := hone
      exact .row (e := .erase row priorRows) rfl rfl
    · obtain ⟨fault, hfault⟩ := Instruction.exists_unrecordable row priorRows hone
      rw [r.read_of_unrecordable hfault]
      exact .unrecordable rfl hfault
  | listSet | listInsert | listErase | listNullify | listSwap | listClear | listMove =>
    exact .list rfl rfl
  | selectLinkList col row => exact .selectList col row
  | _ =>
    -- the guard takes it in, and it is nothing that is recorded
    have hguard : r.guard.read _ = ((r.guard.read _).1, none) := Prod.ext rfl hrefused
    unfold read
    rw [hguard]
    exact .silent hguard rfl rfl (by rintro _ _ ⟨⟩)

/-- Being told that a log is complete, a recorder has nothing to say. -/
theorem replay_eq_feed (r : ChangeRecorder) (log : Log) :
    LogReader.replay r log = LogReader.feed r log :=
  LogReader.replay_eq_feed_of_finish (fun _ => rfl) r log

/-! ## Refusals -/

/-- A recorder that refuses an instruction is left as it was. -/
theorem read_of_refused (h : (r.read i).2 ≠ none) : (r.read i).1 = r := by
  have houtcome := r.readOutcome i
  generalize r.read i = out at h houtcome ⊢
  cases houtcome with
  | unsupported | unrecordable => rfl
  | _ => exact absurd rfl h

/-- A recorder refuses what its guard refuses, and erases that it cannot record. -/
theorem read_eq_some_iff {failure : Failure} : (r.read i).2 = some failure ↔
    (r.guard.read i).2 = some failure ∨
      ∃ fault, i.Unrecordable fault ∧ failure = .invalidLog fault := by
  constructor
  · intro h
    have houtcome := r.readOutcome i
    generalize r.read i = out at h houtcome
    cases houtcome with
    | unsupported hguard => exact .inl (by rw [hguard]; exact h)
    | unrecordable hguard hfault =>
      cases h
      exact .inr ⟨_, hfault, rfl⟩
    | _ => cases h
  · rintro (h | ⟨fault, hfault, rfl⟩)
    · have hguard := SchemaGuard.read_of_refused (h ▸ Option.some_ne_none failure)
      unfold read
      rw [hguard] at h ⊢
      exact h
    · rw [r.read_of_unrecordable hfault]

/-- So it takes in nothing that its guard refuses, -/
theorem guard_accepts (i : Instruction) (h : (r.read i).2 = none) :
    (r.guard.read i).2 = none := by
  by_contra hrefused
  obtain ⟨failure, hfailure⟩ := Option.ne_none_iff_exists'.mp hrefused
  cases h.symm.trans (read_eq_some_iff.mpr (.inl hfailure))

/-- refuses a recordable instruction only for its guard, -/
theorem read_of_isRecordable (hi : i.isRecordable) : (r.read i).2 = (r.guard.read i).2 := by
  refine Option.ext fun failure => read_eq_some_iff.trans (or_iff_left ?_)
  rintro ⟨fault, hfault, -⟩
  cases hi.symm.trans hfault.not_isRecordable

/-- and what it refuses is always a matter of consistency. -/
theorem isConsistency_of_read {failure : Failure} (h : (r.read i).2 = some failure) :
    failure.isConsistency := by
  rcases read_eq_some_iff.mp h with hguard | ⟨fault, -, rfl⟩
  · rw [SchemaGuard.read_eq_schemaMismatch hguard]
    rfl
  · rfl

theorem isConsistency_of_replay {log : Log} {failure : Failure}
    (h : (LogReader.replay r log).2 = some failure) : failure.isConsistency :=
  LogReader.refusal_of_replay (fun _ _ _ => isConsistency_of_read) (fun _ _ h => by cases h) h

/-! ## The guard behind a recorder -/

/-- What is done to the selected list does not matter to anything but the list diffs. -/
theorem onActiveList_eq (r : ChangeRecorder) (f : ListDiff → ListDiff) :
    r.onActiveList f = { r with
      changes.lists := r.activeList.elim r.changes.lists (r.changes.lists.modify · f) } := by
  unfold onActiveList Changes.onList
  cases hactive : r.activeList with
  | none =>
    cases r
    cases hactive
    rfl
  | some i => rfl

/-- What is recorded does not matter to the guard. -/
theorem guard_read (r : ChangeRecorder) (i : Instruction) :
    (r.read i).1.guard = (r.guard.read i).1 := by
  have houtcome := r.readOutcome i
  generalize r.read i = out at houtcome ⊢
  cases houtcome with
  | list hguard hlist => rw [hguard, onActiveList_eq]
  | selectList => rfl
  | unsupported hguard | unrecordable hguard | silent hguard => rw [hguard]
  | row hguard =>
    rw [hguard]
    rfl

/-- So of a log that a recorder takes in, its guard makes what it would on its own, -/
theorem guard_feed {log : Log} (h : (LogReader.feed r log).2 = none) :
    LogReader.feed r.guard log = ((LogReader.feed r log).1.guard, none) := by
  induction log generalizing r with
  | nil => rfl
  | cons i log ih =>
    obtain ⟨hread, hlog⟩ := LogReader.feed_cons_eq_none_iff.mp h
    have hguard : LogReader.read r.guard i = ((LogReader.read r i).1.guard, none) :=
      Prod.ext (r.guard_read i).symm (guard_accepts i hread)
    rw [LogReader.feed, hguard, LogReader.feed_cons_of_eq_none hread]
    exact ih hlog

/-- that log is one that its guard would take in, -/
theorem allows_of_replay {log : Log} (h : (LogReader.replay r log).2 = none) :
    (LogReader.replay r.guard log).2 = none := by
  rw [replay_eq_feed] at h
  rw [SchemaGuard.replay_eq_feed, guard_feed h]

/-- and a log of recordable instructions is refused for what its guard refuses. -/
theorem replay_of_isRecordable {log : Log} (hlog : ∀ i ∈ log, i.isRecordable) :
    (LogReader.replay r log).2 = (LogReader.replay r.guard log).2 := by
  induction log generalizing r with
  | nil => rfl
  | cons i log ih =>
    rw [LogReader.replay_cons, LogReader.replay_cons]
    have hguard : (LogReader.read r i).1.guard = (LogReader.read r.guard i).1 := r.guard_read i
    have hrefusal : (LogReader.read r i).2 = (LogReader.read r.guard i).2 :=
      read_of_isRecordable (hlog i List.mem_cons_self)
    rw [Prod.ext (x := LogReader.read r.guard i) (y := (_, _)) hguard.symm hrefusal.symm]
    rcases LogReader.read r i with ⟨r', _ | failure⟩
    · exact ih fun j hj => hlog j (List.mem_cons_of_mem i hj)
    · rfl

end ChangeRecorder

end SnapshotCoordination
