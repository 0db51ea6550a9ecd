import SnapshotCoordination.Proofs.Replay.Recording

/-!
# Rows that are appended

A log of writes to fields, of unordered erases of single rows and of appends is a list of row edits
(`Instruction.rowEdit?`). A recorder takes in all of it, and makes of the row diff of the selected
table what the edits make of it (`ChangeRecorder.replay_of_rowEdits`). An append leaves no trace in a
row diff. So a row appended to a slot that is free because a row was erased is known by the index of
the row which was the last to live there.

* **`rows_known_by_index`** — by what index every row is known, and that no appended row is taken for
  one that was there before as long as rows are appended behind the first slots only;
* **`exists_mistaken_row`** — otherwise an appended row can be taken for one that was erased.
-/

namespace SnapshotCoordination

namespace ChangeRecorder

/-- What happened to the rows of the selected table. -/
def rowDiff (r : ChangeRecorder) : RowDiff := r.changes.rowDiff r.guard.currentTable

/-- A recorder takes a row edit in, and records it for the selected table. -/
theorem read_of_rowEdit? (r : ChangeRecorder) {i : Instruction} {e : RowEdit}
    (h : i.rowEdit? = some e) :
    ∃ r', LogReader.read r i = (r', none) ∧ r'.rowDiff = r.rowDiff.record e := by
  have hchange : ∀ f : RowDiff → RowDiff, (r.onCurrentTable f).rowDiff = f r.rowDiff :=
    fun f => (r.changes.rowDiff_onTable _ _ f).trans (if_pos rfl)
  cases i with
  | set | setUnique | nullifyLink | insertText | eraseText =>
    cases h
    exact ⟨_, rfl, hchange _⟩
  | eraseRows row count priorRows unordered =>
    -- nothing but one row, unordered, so the recorder does not refuse
    obtain ⟨⟨rfl, rfl⟩, h⟩ := Option.ite_none_right_eq_some.mp h
    cases h
    exact ⟨_, rfl, hchange _⟩
  | insertRows row count priorRows =>
    cases h
    exact ⟨r, rfl, rfl⟩
  | _ => cases h

theorem replay_of_rowEdits (r : ChangeRecorder) {log : Log} {edits : List RowEdit}
    (h : log.map Instruction.rowEdit? = edits.map some) :
    ∃ r', LogReader.replay r log = (r', none) ∧ r'.rowDiff = r.rowDiff.recordAll edits := by
  induction log generalizing r edits with
  | nil =>
    cases edits with
    | nil => exact ⟨r, rfl, rfl⟩
    | cons => cases h
  | cons i log ih =>
    cases edits with
    | nil => cases h
    | cons e edits =>
      obtain ⟨hi, hlog⟩ := List.cons.inj h
      obtain ⟨r₁, hread, hrecord⟩ := r.read_of_rowEdit? hi
      obtain ⟨r', hreplay, hrecords⟩ := ih r₁ hlog
      refine ⟨r', ?_, by rw [hrecords, hrecord]; rfl⟩
      rw [LogReader.replay_cons, hread]
      exact hreplay

end ChangeRecorder

/-! ## Rows behind the first slots -/

/-- A row that is not one of the first `n` has no index among theirs, and neither has a slot behind
them. -/
structure RowTable.Apart (n : Nat) (t : RowTable) : Prop where
  slots : ∀ s, n ≤ s → n ≤ t.indexOf s
  appended : ∀ row ∈ t.rows, row.origin = none → n ≤ row.index

namespace RowTable.Apart

variable {n : Nat} {t : RowTable}

theorem untouched (n : Nat) : (RowTable.untouched n).Apart n where
  slots s hs := by rwa [indexOf_untouched]
  appended row hrow hnone := by
    rw [(rows_untouched hrow).1] at hnone
    cases hnone

theorem edit {e : RowEdit} (h : t.Apart n) (he : t.Admits e)
    (hbehind : ∀ slot count priorRows, e = .append slot count priorRows → n ≤ slot) :
    (t.edit e).Apart n where
  slots s hs := by
    cases e with
    | write slot => exact h.slots s hs
    | erase slot priorRows =>
      rw [t.indexOf_erase he.1]
      split
      · -- the row that comes here lived farther behind
        next hslot =>
        have hlive : slot < t.live.length := he.1
        exact h.slots _ (by omega)
      · exact h.slots s hs
    | append slot count priorRows =>
      rw [indexOf_append]
      exact h.slots s hs
  appended row hrow hnone := by
    rcases mem_rows_edit he hrow with hold | ⟨happends, s, hs, rfl⟩
    · exact h.appended row hold hnone
    · cases e with
      | append slot count priorRows =>
        have hslot : n ≤ slot := hbehind _ _ _ rfl
        obtain ⟨rfl, -⟩ := he
        exact h.slots s (Nat.le_trans hslot hs)
      | _ => cases happends

theorem editAll {edits : List RowEdit} (h : t.Apart n) (hedits : t.AdmitsAll edits)
    (hbehind : ∀ slot count priorRows, .append slot count priorRows ∈ edits → n ≤ slot) :
    (t.editAll edits).Apart n := by
  induction edits generalizing t with
  | nil => exact h
  | cons e edits ih =>
    refine ih (h.edit hedits.1 fun slot count priorRows he => ?_) hedits.2
      fun slot count priorRows hmem => hbehind slot count priorRows (List.mem_cons_of_mem _ hmem)
    exact hbehind slot count priorRows (he ▸ List.mem_cons_self)

end RowTable.Apart

/-- What is recorded of rows below `n` is about rows that were there before: a change of one is a
write to it, and no slot with an appended row is said to have got its occupant from there. -/
structure RowDiff.Distinguishes (n : Nat) (d : RowDiff) (t : RowTable) : Prop where
  changed : ∀ i ∈ d.changed, i < n → ∃ row ∈ t.written, row.origin = some i
  moves : ∀ s row, t.live[s]? = some row → row.origin = none →
    ∀ i, d.moves.get? s = some i → n ≤ i

/-- **Every row is known by an index**: a row that was there before the log by its own, an appended
row by that of the row which was the last to live in the slot it is appended to, or by the slot if
none was. What the diff has for a slot in which a row lives, or else the slot itself, is the index of
that row, and what it has as changed are the indices of the rows written to while they lived. So it
tells rows that were there before from those appended just as long as the indices do, and they do if
rows are appended only while there are at least as many rows as there were at first. -/
theorem rows_known_by_index {n : Nat} {log : Log} {edits : List RowEdit}
    (hlog : log.map Instruction.rowEdit? = edits.map some)
    (hedits : (RowTable.untouched n).AdmitsAll edits) {r : ChangeRecorder}
    (hstart : r.rowDiff = .empty) :
    let t := (RowTable.untouched n).editAll edits
    let replayed := LogReader.replay r log
    let d := replayed.1.rowDiff
    replayed.2 = none ∧
      (∀ row ∈ t.rows, ∀ i, row.origin = some i → row.index = i) ∧
      (∀ s row, t.live[s]? = some row → (d.moves.get? s).getD s = row.index) ∧
      (∀ i, i ∈ d.changed ↔ ∃ row ∈ t.written, row.index = i) ∧
      ((∀ row ∈ t.rows, row.origin = none → n ≤ row.index) → d.Distinguishes n t) ∧
      ((∀ slot count priorRows, .append slot count priorRows ∈ edits → n ≤ slot) →
        d.Distinguishes n t) := by
  intro t replayed d
  obtain ⟨r', hreplay, hdiff⟩ := r.replay_of_rowEdits hlog
  have hd : d = RowDiff.empty.recordAll edits := by
    show (LogReader.replay r log).1.rowDiff = _
    rw [hreplay, hdiff, hstart]
  have hfollows : Follows t d := hd ▸ (Follows.untouched n).editAll hedits
  have hown : ∀ row ∈ t.rows, ∀ i, row.origin = some i → row.index = i := by
    refine RowTable.forall_rows_editAll hedits (fun _ _ _ _ => nofun) fun row hrow i hi => ?_
    exact Option.some_inj.mp ((RowTable.rows_untouched hrow).1.symm.trans hi)
  have hlive : ∀ s row, t.live[s]? = some row → (d.moves.get? s).getD s = row.index :=
    fun s row hrow => (hfollows.origin s).trans (RowTable.indexOf_of_live hrow)
  have hdistinguishes : (∀ row ∈ t.rows, row.origin = none → n ≤ row.index) →
      d.Distinguishes n t := by
    intro happended
    refine ⟨fun i hi hlt => ?_, fun s row hrow hnone i hi => ?_⟩
    · obtain ⟨row, hrow, rfl⟩ := (hfollows.mem_changed i).mp hi
      refine ⟨row, hrow, ?_⟩
      have hmem : row ∈ t.rows := List.mem_append_right _ hrow
      cases horigin : row.origin with
      | none => exact absurd (happended row hmem horigin) (Nat.not_le_of_lt hlt)
      | some i => rw [hown row hmem i horigin]
    · have hindex := hlive s row hrow
      rw [hi, Option.getD_some] at hindex
      exact hindex ▸ happended row (RowTable.mem_rows_of_live hrow) hnone
  refine ⟨congrArg Prod.snd hreplay, hown, hlive, hfollows.mem_changed, hdistinguishes,
    fun hbehind => hdistinguishes ?_⟩
  exact ((RowTable.Apart.untouched n).editAll hedits hbehind).appended

/-- Of two rows in table 3 the first is erased while there is a third one, which was appended and is
written to in its new slot; then a row is appended again. -/
theorem rows_known_by_index_thirdRow :
    let r := (LogReader.feed (ChangeRecorder.observing []) [.selectTable 3]).1
    let log : Log := [.insertRows 2 1 2, .eraseRows 0 1 3 true, .nullifyLink 0 0, .insertRows 2 1 2]
    let edits : List RowEdit := [.append 2 1 2, .erase 0 3, .write 0, .append 2 1 2]
    let t := (RowTable.untouched 2).editAll edits
    let d := (LogReader.replay r log).1.rowDiff
    log.map Instruction.rowEdit? = edits.map some ∧ (RowTable.untouched 2).AdmitsAll edits ∧
      r.rowDiff = .empty ∧ (LogReader.replay r log).2 = none ∧
      t.live = [⟨none, 2⟩, ⟨some 1, 1⟩, ⟨none, 2⟩] ∧ d.moves.entries = [(0, 2)] ∧
      d.changed.members = [2] ∧ d.Distinguishes 2 t := by
  intro r log edits t d
  have hlog : log.map Instruction.rowEdit? = edits.map some := by decide
  have hedits : (RowTable.untouched 2).AdmitsAll edits := by decide
  have hstart : r.rowDiff = .empty := by decide
  obtain ⟨hreplay, -, -, -, hdistinguishes, -⟩ := rows_known_by_index hlog hedits hstart
  exact ⟨hlog, hedits, hstart, hreplay, by decide, by decide, by decide,
    hdistinguishes (by decide)⟩

/-- An appended row can be mistaken for one that was there before. Of two rows the second is erased,
and the row that is appended to its slot is written to: the row that was erased is recorded as
changed, and the slot as having got its occupant from there. -/
theorem exists_mistaken_row :
    ∃ (n : Nat) (log : Log) (edits : List RowEdit),
      log.map Instruction.rowEdit? = edits.map some ∧ (RowTable.untouched n).AdmitsAll edits ∧
      let t := (RowTable.untouched n).editAll edits
      let d := (LogReader.replay (ChangeRecorder.observing []) log).1.rowDiff
      (¬ ∀ i ∈ d.changed, i < n → ∃ row ∈ t.written, row.origin = some i) ∧
        ¬ ∀ s row, t.live[s]? = some row → row.origin = none →
          ∀ i, d.moves.get? s = some i → n ≤ i := by
  refine ⟨2, [.eraseRows 1 1 2 true, .insertRows 1 1 1, .set 0 1 (.int 1)],
    [.erase 1 2, .append 1 1 1, .write 1], by decide, by decide, fun hchanged => ?_,
    fun hmoves => ?_⟩
  · obtain ⟨row, hrow, horigin⟩ := hchanged 1 (by decide) (by decide)
    revert row
    decide
  · exact absurd (hmoves 1 ⟨none, 1⟩ (by decide) rfl 1 (by decide)) (by decide)

end SnapshotCoordination
