import SnapshotCoordination.Proofs.Replay.Numbering
import SnapshotCoordination.Proofs.Replay.Selections

/-!
# Records under the numbers of the time

A table that a log creates takes a number and pushes every table from that number on up by one. The
schema guard pushes the new tables that it knows up with them, but a recorder leaves its row diffs
where they are. A `TableFile` keeps the tables themselves, each at its number with whatever it
holds; what it holds here is what was done to its rows (`Log.workOf`).

* **`records_under_old_numbers`** — a row diff is about the number it stands under, and about the
  table that has this number in the end if nothing was done to the tables there before they were
  pushed up;
* **`exists_misplaced_record`** — otherwise the diff of one table can be found under the number of
  another.
-/

namespace SnapshotCoordination

/-- The tables of a file by their numbers, with no end to them, each as what it holds, and the
number selected last. -/
structure TableFile (α : Type) where
  tableAt : Nat → α
  selected : Nat

namespace TableFile

variable {α : Type} {blank : α} {act : α → Instruction → α} {f : TableFile α} {s : Selection}

/-- What an instruction does to the tables of a file. It selects one of them, or creates a blank
one, which pushes those from its number on up by one, or acts on the selected one. -/
def play (blank : α) (act : α → Instruction → α) (f : TableFile α) : Instruction → TableFile α
  | .selectTable table => { f with selected := table }
  | .insertTable table _ =>
    { f with
      tableAt := fun k =>
        if k < table then f.tableAt k else if k = table then blank else f.tableAt (k - 1) }
  | i => { f with tableAt := fun k => if f.selected = k then act (f.tableAt k) i else f.tableAt k }

/-- What a log does to the tables of a file. -/
def playAll (blank : α) (act : α → Instruction → α) (f : TableFile α) (log : Log) : TableFile α :=
  log.foldl (play blank act) f

theorem selected_play (h : f.selected = s.table) (i : Instruction) :
    (f.play blank act i).selected = (s.follow i).table := by
  cases i with
  | selectTable table => rfl
  | _ => exact h

theorem selected_playAll (h : f.selected = s.table) (log : Log) :
    (f.playAll blank act log).selected = (s.after log).table := by
  induction log generalizing f s with
  | nil => exact h
  | cons i log ih => exact ih (selected_play h i)

/-- If selecting a table does nothing to it, an instruction creates a table or acts on the selected
one. -/
theorem tableAt_play (hselect : ∀ a table, act a (.selectTable table) = a) (f : TableFile α)
    (i : Instruction) (k : Nat) : (f.play blank act i).tableAt k =
      i.created?.elim (if f.selected = k then act (f.tableAt k) i else f.tableAt k) fun n =>
        if k < n then f.tableAt k else if k = n then blank else f.tableAt (k - 1) := by
  cases i with
  | selectTable table =>
    show f.tableAt k = if f.selected = k then act (f.tableAt k) _ else f.tableAt k
    rw [hselect, ite_self]
  | _ => rfl

end TableFile

namespace Log

/-- What a log does to the rows of all tables, each at the number that it has in the end. -/
def works (log : Log) : TableFile (List RowEdit) :=
  TableFile.playAll [] (fun work i => work ++ i.rowChange?.toList) ⟨fun _ => [], 0⟩ log

/-- What a log does to the rows of the table that has number `k` when the log is over, whatever its
number was at the time. -/
def workOf (log : Log) (k : Nat) : List RowEdit := (works log).tableAt k

/-- Whenever a log creates a table under a number up to `k`, it has done nothing yet to the tables
from there on up to number `k`. -/
def Settled (log : Log) (k : Nat) : Prop :=
  ∀ j < log.length, ∀ n ∈ log[j]?.bind Instruction.created?, ∀ t ≤ k, n ≤ t →
    rowWork (log.take j) .initial t = []

instance (log : Log) (k : Nat) : Decidable (log.Settled k) :=
  inferInstanceAs (Decidable (∀ j < log.length, ∀ n ∈ log[j]?.bind Instruction.created?, ∀ t ≤ k,
    n ≤ t → rowWork (log.take j) .initial t = []))

variable {log : Log} {i : Instruction} {k : Nat}

theorem Settled.mono {m : Nat} (h : log.Settled k) (hm : m ≤ k) : log.Settled m :=
  fun j hj n hn t ht => h j hj n hn t (Nat.le_trans ht hm)

theorem Settled.of_append_singleton (h : Settled (log ++ [i]) k) :
    log.Settled k ∧ ∀ n ∈ i.created?, ∀ t ≤ k, n ≤ t → log.rowWork .initial t = [] := by
  have hlength : (log ++ [i]).length = log.length + 1 := List.length_append
  constructor
  · intro j hj n hn t ht hnt
    have hold : (log ++ [i])[j]? = log[j]? := List.getElem?_append_left hj
    have hbefore := h j (by omega) n (hold ▸ hn) t ht hnt
    rwa [List.take_append_of_le_length (Nat.le_of_lt hj)] at hbefore
  · intro n hn t ht hnt
    have hlast : (log ++ [i])[log.length]? = some i := List.getElem?_concat_length
    have hbefore := h log.length (by omega) n (by rw [hlast]; exact hn) t ht hnt
    rwa [List.take_left' rfl] at hbefore

theorem rowWork_append_singleton (log : Log) (i : Instruction) (k : Nat) :
    rowWork (log ++ [i]) .initial k = rowWork log .initial k ++
      if (Selection.initial.after log).table = k then i.rowChange?.toList else [] := by
  rw [rowWork_append, rowWork_singleton]

theorem selected_works (log : Log) : (works log).selected = (Selection.initial.after log).table :=
  TableFile.selected_playAll rfl log

theorem workOf_append_singleton (log : Log) (i : Instruction) (k : Nat) :
    workOf (log ++ [i]) k = i.created?.elim
      (workOf log k ++ if (Selection.initial.after log).table = k then i.rowChange?.toList else [])
      fun n => if k < n then workOf log k else if k = n then [] else workOf log (k - 1) := by
  have hplay : works (log ++ [i]) =
      (works log).play [] (fun work i => work ++ i.rowChange?.toList) i := List.foldl_append
  have hselect : ∀ (work : List RowEdit) table,
      work ++ (Instruction.selectTable table).rowChange?.toList = work :=
    fun work _ => List.append_nil work
  unfold workOf
  rw [hplay, TableFile.tableAt_play hselect, selected_works]
  congr 1
  split
  · rfl
  · rw [List.append_nil]

/-- If a log is settled up to a number, the table that has it in the end had it all the time that
something was done to it. -/
theorem workOf_of_settled (h : log.Settled k) : log.workOf k = rowWork log .initial k := by
  -- from behind, for a table that is created pushes up all that was done before
  induction log using List.reverseRecOn generalizing k with
  | nil => rfl
  | append_singleton log i ih =>
    obtain ⟨hsettled, hcreated⟩ := h.of_append_singleton
    rw [workOf_append_singleton, rowWork_append_singleton]
    cases i with
    | insertTable n name =>
      show (if k < n then workOf log k else if k = n then [] else workOf log (k - 1)) = _
      have hnone : (Instruction.insertTable n name).rowChange? = none := rfl
      rw [hnone, Option.toList_none, ite_self, List.append_nil]
      -- a table below the new one, the new one itself, or one that is pushed up
      rcases Nat.lt_trichotomy k n with hlt | rfl | hgt
      · rw [if_pos hlt]
        exact ih hsettled
      · rw [if_neg (Nat.lt_irrefl k), if_pos rfl]
        exact (hcreated k rfl k (Nat.le_refl k) (Nat.le_refl k)).symm
      · have hbelow := ih (hsettled.mono (Nat.sub_le k 1))
        rw [if_neg (by omega), if_neg (by omega), hbelow,
          hcreated n rfl k (Nat.le_refl k) (by omega), hcreated n rfl (k - 1) (by omega) (by omega)]
    | _ => exact congrArg (· ++ _) (ih hsettled)

end Log

/-- **A row diff stands under the number of the time.** What is found under number `k` after a log
is the diff of what was done to the rows of whatever table had that number when it was done. If the
log creates tables, up to that number, only before it does anything to the tables from there on up
to number `k`, that is the table which has number `k` in the end. The guard behind the recorder
lists the new tables under the numbers that they have in the end in any case, unless one of them is
pushed past the last word. -/
theorem records_under_old_numbers {keys : List ListKey} {log : Log}
    (haccept : (LogReader.replay (ChangeRecorder.observing keys) log).2 = none) :
    let r := (LogReader.replay (ChangeRecorder.observing keys) log).1
    (∀ k, r.changes.rowDiff k = RowDiff.empty.recordAll (log.rowWork .initial k)) ∧
      (∀ k, log.Settled k → r.changes.rowDiff k = RowDiff.empty.recordAll (log.workOf k)) ∧
      (Numbering.KeepsInRange log →
        ∀ k, k ∈ r.guard.newTables ↔ ((Numbering.after log).tableAt k).isNew) := by
  intro r
  have hguard : LogReader.feed SchemaGuard.fresh log = (r.guard, none) := by
    rw [ChangeRecorder.replay_eq_feed] at haccept
    have hr : r = (LogReader.feed (ChangeRecorder.observing keys) log).1 :=
      congrArg Prod.fst (ChangeRecorder.replay_eq_feed _ log)
    rw [hr]
    exact ChangeRecorder.guard_feed haccept
  refine ⟨ChangeRecorder.rowDiff_replay haccept, fun k hsettled => ?_, fun hrange => ?_⟩
  · rw [ChangeRecorder.rowDiff_replay haccept, Log.workOf_of_settled hsettled]
  · have hconforms := SchemaGuard.conforms_of_feed (congrArg Prod.snd hguard) hrange
    obtain ⟨g, hfeed, htracks⟩ := SchemaGuard.feed_of_conforms hconforms hrange
    have hg : r.guard = g := congrArg Prod.fst (hguard.symm.trans hfeed)
    exact hg ▸ htracks.mem_newTables

/-- A table is created before anything is done, and pushes table 1 up to number 2; a row of that
table is written to, and a table is created behind it. -/
theorem records_under_old_numbers_newFirst :
    let log : Log := [.insertTable 1 "cats", .selectTable 2, .set 0 4 .null, .insertTable 3 "dogs"]
    let r := (LogReader.replay (ChangeRecorder.observing []) log).1
    (LogReader.replay (ChangeRecorder.observing []) log).2 = none ∧ log.Settled 2 ∧
      log.workOf 2 = [.write 4] ∧ r.changes.rowDiff 2 = RowDiff.empty.recordAll [.write 4] ∧
      3 ∈ r.guard.newTables := by
  intro log r
  have haccept : (LogReader.replay (ChangeRecorder.observing []) log).2 = none := by decide
  have hsettled : log.Settled 2 := by decide
  obtain ⟨-, hdiff, hnew⟩ := records_under_old_numbers haccept
  have hrange : Numbering.KeepsInRange log := Numbering.keepsInRange_of_low (by decide)
  exact ⟨haccept, hsettled, by decide, hdiff 2 hsettled, (hnew hrange 3).mpr (by decide)⟩

/-- The diff of one table can be found under the number of another. A row of table 0 is written to,
and a table is created that takes its number; it is selected again before anything else is done. In
the end the new table, in which nothing was done, has a diff, and the old one has none. -/
theorem exists_misplaced_record : ∃ log : Log,
    (log.IsChain fun i j => i.created?.isSome → ∃ table, j = .selectTable table) ∧
      (LogReader.replay (ChangeRecorder.observing []) log).2 = none ∧
      let c := (LogReader.replay (ChangeRecorder.observing []) log).1.changes
      (Numbering.after log).tableAt 0 = .created "new" ∧ log.workOf 0 = [] ∧
        c.rowDiff 0 ≠ .empty ∧
        (Numbering.after log).tableAt 1 = .existing 0 ∧ log.workOf 1 = [.write 3] ∧
        c.table? 1 = none := by
  refine ⟨[.selectTable 0, .set 0 3 (.int 1), .insertTable 0 "new", .selectTable 0], ?_, by decide,
    by decide, by decide, by decide, by decide, by decide, by decide⟩
  simp [Instruction.created?]

end SnapshotCoordination
