import SnapshotCoordination.Diff.RowDiff
import SnapshotCoordination.Proofs.Lists.Positions

/-!
# Who lives in the slots of a table

A table loses a row by moving its last row into the freed slot, so a row can move about while other
rows are erased. A `RowTable` follows the rows themselves. It remembers of every slot which row lives
in it, or was the last to, and by what index a row diff is to know that row: a row that was there
before the first edit by its own index, an appended row by that of the row which was the last to live
in the slot it is appended to.

* **`RowTable.indexOf`** — the index that goes with a slot, and what every edit does to it;
* **`Follows`** — a row diff knows of every slot just that index, and has recorded the writes under
  the indices of the rows written to (`Follows.edit`, for every edit);
* **`occupants_exact`** — so a row diff of writes and erases is exact.
-/

namespace SnapshotCoordination

/-- One edit of the rows of a table: a row is written to; a row is erased, and the last row moves
into its slot; rows are appended. What takes rows out or brings some in says how many there were. -/
inductive RowEdit where
  | write (slot : Nat)
  | erase (slot priorRows : Nat)
  | append (slot count priorRows : Nat)
  deriving DecidableEq

def RowEdit.appends : RowEdit → Bool
  | append .. => true
  | _ => false

/-- A row of a table. -/
structure TableRow where
  /-- The index it had before the first edit, unless it was appended since. -/
  origin : Option Nat
  /-- The index that a row diff is to know it by. -/
  index : Nat
  deriving DecidableEq

/-- The rows of a table while it is edited. -/
structure RowTable where
  /-- The rows that live, slot by slot. -/
  live : List TableRow
  /-- Of the slots behind, as far as rows have ever lived there, the rows that were the last to. -/
  former : List TableRow
  /-- The rows written to so far, each as often as it was. -/
  written : List TableRow
  deriving DecidableEq

namespace RowTable

/-- A table of `n` rows before the first edit. -/
def untouched (n : Nat) : RowTable := ⟨(List.range n).map fun i => ⟨some i, i⟩, [], []⟩

/-- The index of the row that lives in a slot, or was the last to; the slot itself if none ever
has. -/
def indexOf (t : RowTable) (slot : Nat) : Nat := ((t.live ++ t.former)[slot]?).elim slot (·.index)

/-- What an edit does to the rows. -/
def edit (t : RowTable) : RowEdit → RowTable
  | .write slot => { t with written := t.written ++ t.live[slot]?.toList }
  | .erase slot _ =>
    match t.live.getLast? with
    | none => t
    | some last => { t with live := (t.live.set slot last).dropLast, former := last :: t.former }
  | .append _ count _ =>
    { t with
      live := t.live ++ (List.range' t.live.length count).map fun slot => ⟨none, t.indexOf slot⟩
      former := t.former.drop count }

/-- What edits do to the rows, one after the other. -/
def editAll (t : RowTable) (edits : List RowEdit) : RowTable := edits.foldl edit t

/-- Whether an edit is about rows that live, or appends behind them, and counts them right. -/
def Admits (t : RowTable) : RowEdit → Prop
  | .write slot => slot < t.live.length
  | .erase slot priorRows => slot < t.live.length ∧ priorRows = t.live.length
  | .append slot _ priorRows => slot = t.live.length ∧ priorRows = t.live.length

instance (t : RowTable) (e : RowEdit) : Decidable (t.Admits e) := by
  cases e <;> unfold Admits <;> infer_instance

/-- Whether every edit does, when its turn comes. -/
def AdmitsAll (t : RowTable) : List RowEdit → Prop
  | [] => True
  | e :: rest => t.Admits e ∧ (t.edit e).AdmitsAll rest

instance decidableAdmitsAll (t : RowTable) (edits : List RowEdit) :
    Decidable (t.AdmitsAll edits) :=
  match edits with
  | [] => .isTrue trivial
  | e :: rest =>
    have := decidableAdmitsAll (t.edit e) rest
    inferInstanceAs (Decidable (t.Admits e ∧ (t.edit e).AdmitsAll rest))

/-! ## The index that goes with a slot -/

variable {t : RowTable} {slot s : Nat}

theorem indexOf_untouched (n s : Nat) : (untouched n).indexOf s = s := by
  by_cases hs : s < n
  · simp [indexOf, untouched, hs]
  · simp [indexOf, untouched, List.getElem?_eq_none (l := (List.range n)) (by simpa using hs)]

theorem indexOf_of_live {row : TableRow} (h : t.live[s]? = some row) : t.indexOf s = row.index := by
  have hs : s < t.live.length := (List.getElem?_eq_some_iff.mp h).1
  rw [indexOf, List.getElem?_append_left hs, h]
  rfl

theorem edit_erase (t : RowTable) (hslot : slot < t.live.length) (priorRows : Nat) :
    ∃ last, t.live[t.live.length - 1]? = some last ∧
      t.edit (.erase slot priorRows) =
        { t with live := (t.live.set slot last).dropLast, former := last :: t.former } := by
  have hlast : t.live[t.live.length - 1]? = some t.live[t.live.length - 1] :=
    List.getElem?_eq_getElem (by omega)
  refine ⟨_, hlast, ?_⟩
  rw [edit, List.getLast?_eq_getElem?, hlast]

/-- An erase changes the occupant of the slot it is about, and of no other one. -/
theorem indexOf_erase (t : RowTable) (hslot : slot < t.live.length) (priorRows s : Nat) :
    (t.edit (.erase slot priorRows)).indexOf s =
      if s = slot then t.indexOf (t.live.length - 1) else t.indexOf s := by
  obtain ⟨last, hlast, hedit⟩ := t.edit_erase hslot priorRows
  -- the last row is the one that was the last to live in the slot that gets free
  have hoccupants : (t.live.set slot last).dropLast ++ last :: t.former =
      (t.live ++ t.former).set slot last := by
    have hends : (t.live.set slot last).getLast? = some last := by
      rw [List.getLast?_eq_getElem?, List.length_set, List.getElem?_set]
      split
      · rfl
      · exact hlast
    rw [List.append_cons, List.set_append_left _ _ hslot,
      List.dropLast_append_getLast? last (Option.mem_def.mpr hends)]
  rw [hedit, indexOf_of_live hlast, indexOf, hoccupants, List.getElem?_set]
  by_cases hs : s = slot
  · have hlength : slot < (t.live ++ t.former).length := by
      rw [List.length_append]
      omega
    rw [if_pos hs, if_pos hs.symm, if_pos hlength]
    rfl
  · rw [if_neg hs, if_neg (Ne.symm hs), indexOf]

/-- What is appended takes over the indices that go with the slots. -/
theorem indexOf_append (t : RowTable) (slot count priorRows s : Nat) :
    (t.edit (.append slot count priorRows)).indexOf s = t.indexOf s := by
  have hadded : ((List.range' t.live.length count).map fun slot =>
      (⟨none, t.indexOf slot⟩ : TableRow)).length = count := by simp
  unfold edit
  dsimp only
  rw [indexOf]
  dsimp only
  rw [List.append_assoc]
  -- a slot with a row in it, a slot that gets a row, or one behind
  rcases Nat.lt_or_ge s t.live.length with hlive | hbehind
  · rw [List.getElem?_append_left hlive, indexOf, List.getElem?_append_left hlive]
  rw [List.getElem?_append_right hbehind]
  rcases Nat.lt_or_ge (s - t.live.length) count with hnew | hold
  · rw [List.getElem?_append_left (by rwa [hadded]), List.getElem?_map,
      List.getElem?_range' hnew]
    show t.indexOf (t.live.length + 1 * (s - t.live.length)) = _
    congr 1
    omega
  · rw [List.getElem?_append_right (by rwa [hadded]), hadded, List.getElem?_drop,
      Nat.add_sub_cancel' hold, indexOf, List.getElem?_append_right hbehind]

/-! ## The rows -/

/-- The rows that live or were written to. -/
def rows (t : RowTable) : List TableRow := t.live ++ t.written

theorem mem_rows_of_live {row : TableRow} (h : t.live[s]? = some row) : row ∈ t.rows :=
  List.mem_append_left _ (List.mem_of_getElem? h)

/-- Only an append brings in rows, and these have an index that goes with a slot behind the rows that
live. -/
theorem mem_rows_edit {e : RowEdit} {row : TableRow} (he : t.Admits e)
    (h : row ∈ (t.edit e).rows) :
    row ∈ t.rows ∨ e.appends ∧ ∃ slot, t.live.length ≤ slot ∧ row = ⟨none, t.indexOf slot⟩ := by
  unfold rows at *
  cases e with
  | write slot =>
    rcases List.mem_append.mp h with hlive | hwritten
    · exact .inl (List.mem_append_left _ hlive)
    rcases List.mem_append.mp hwritten with hwritten | hslot
    · exact .inl (List.mem_append_right _ hwritten)
    · exact .inl (List.mem_append_left _ (List.mem_of_getElem? (Option.mem_toList.mp hslot)))
  | erase slot priorRows =>
    obtain ⟨last, hlast, hedit⟩ := t.edit_erase he.1 priorRows
    rw [hedit] at h
    rcases List.mem_append.mp h with hlive | hwritten
    · rcases List.mem_or_eq_of_mem_set (List.dropLast_subset _ hlive) with hlive | rfl
      · exact .inl (List.mem_append_left _ hlive)
      · exact .inl (List.mem_append_left _ (List.mem_of_getElem? hlast))
    · exact .inl (List.mem_append_right _ hwritten)
  | append slot count priorRows =>
    rcases List.mem_append.mp h with hlive | hwritten
    · rcases List.mem_append.mp hlive with hlive | hnew
      · exact .inl (List.mem_append_left _ hlive)
      · obtain ⟨slot, hslot, rfl⟩ := List.mem_map.mp hnew
        exact .inr ⟨rfl, slot, (List.mem_range'_1.mp hslot).1, rfl⟩
    · exact .inl (List.mem_append_right _ hwritten)

/-- What all rows have in common they keep, if appended rows have it too. -/
theorem forall_rows_editAll {P : TableRow → Prop} {edits : List RowEdit}
    (hedits : t.AdmitsAll edits) (hnew : ∀ e ∈ edits, e.appends → ∀ index, P ⟨none, index⟩)
    (hrows : ∀ row ∈ t.rows, P row) : ∀ row ∈ (t.editAll edits).rows, P row := by
  induction edits generalizing t with
  | nil => exact hrows
  | cons e edits ih =>
    refine ih hedits.2 (fun e' he' => hnew e' (List.mem_cons_of_mem _ he')) fun row hrow => ?_
    rcases mem_rows_edit hedits.1 hrow with hrow | ⟨happends, slot, -, rfl⟩
    · exact hrows row hrow
    · exact hnew e List.mem_cons_self happends _

theorem rows_untouched {n : Nat} {row : TableRow} (h : row ∈ (untouched n).rows) :
    row.origin = some row.index ∧ row.index < n := by
  obtain ⟨i, hi, rfl⟩ := List.mem_map.mp ((List.mem_append.mp h).resolve_right List.not_mem_nil)
  exact ⟨rfl, List.mem_range.mp hi⟩

end RowTable

/-! ## What a row diff knows -/

namespace RowDiff

/-- How an edit is recorded. What is appended leaves no trace. -/
def record (d : RowDiff) : RowEdit → RowDiff
  | .write slot => d.markDirty slot
  | .erase slot priorRows => d.eraseUnordered slot priorRows
  | .append .. => d

/-- How edits are recorded, one after the other. -/
def recordAll (d : RowDiff) (edits : List RowEdit) : RowDiff := edits.foldl record d

theorem origin_eraseUnordered (d : RowDiff) (slot priorRows s : Nat) :
    (d.eraseUnordered slot priorRows).origin s =
      if s = slot then d.origin (priorRows - 1) else d.origin s := by
  unfold eraseUnordered
  rw [origin]
  dsimp only
  rw [SlotMap.get?_insert]
  split <;> rfl

end RowDiff

/-- A row diff knows every slot by the index that goes with it, and the rows written to by theirs. -/
structure Follows (t : RowTable) (d : RowDiff) : Prop where
  origin : ∀ s, d.origin s = t.indexOf s
  changedAscend : d.changed.Ascending
  mem_changed : ∀ i, i ∈ d.changed ↔ ∃ row ∈ t.written, row.index = i

namespace Follows

variable {t : RowTable} {d : RowDiff} {e : RowEdit}

theorem untouched (n : Nat) : Follows (.untouched n) .empty where
  origin s := (RowTable.indexOf_untouched n s).symm
  changedAscend := PositionSet.ascending_empty
  mem_changed i := by simp [RowDiff.empty, RowTable.untouched, PositionSet.notMem_empty]

theorem edit (h : Follows t d) (he : t.Admits e) : Follows (t.edit e) (d.record e) := by
  cases e with
  | write slot =>
    obtain ⟨row, hrow⟩ : ∃ row, t.live[slot]? = some row :=
      ⟨_, List.getElem?_eq_getElem he⟩
    refine ⟨h.origin, PositionSet.ascending_add h.changedAscend, fun i => ?_⟩
    show i ∈ d.changed.add (d.origin slot) ↔ ∃ row ∈ t.written ++ t.live[slot]?.toList, _
    rw [PositionSet.mem_add h.changedAscend, h.mem_changed, h.origin,
      RowTable.indexOf_of_live hrow, hrow]
    simp [or_comm, or_and_right, exists_or, eq_comm]
  | erase slot priorRows =>
    obtain ⟨hslot, rfl⟩ := he
    obtain ⟨last, -, hedit⟩ := t.edit_erase hslot t.live.length
    have hwritten : (t.edit (.erase slot t.live.length)).written = t.written := by rw [hedit]
    refine ⟨fun s => ?_, h.changedAscend, fun i => by rw [hwritten]; exact h.mem_changed i⟩
    -- the slot gets the occupant of the last one, here as there, and no other slot changes
    rw [RowDiff.record, RowDiff.origin_eraseUnordered, t.indexOf_erase hslot, h.origin, h.origin]
  | append slot count priorRows =>
    exact ⟨fun s => by rw [t.indexOf_append]; exact h.origin s, h.changedAscend, h.mem_changed⟩

theorem editAll {edits : List RowEdit} (h : Follows t d) (hedits : t.AdmitsAll edits) :
    Follows (t.editAll edits) (d.recordAll edits) := by
  induction edits generalizing t d with
  | nil => exact h
  | cons e edits ih => exact ih (h.edit hedits.1) hedits.2

end Follows

/-- Every erase is counted, and it takes out one row. -/
theorem RowDiff.deletions_recordAll {t : RowTable} {edits : List RowEdit} (d : RowDiff)
    (hedits : t.AdmitsAll edits) (hnone : ∀ e ∈ edits, e.appends = false) :
    (d.recordAll edits).deletions + (t.editAll edits).live.length =
      d.deletions + t.live.length := by
  induction edits generalizing t d with
  | nil => rfl
  | cons e edits ih =>
    have hstep : (d.record e).deletions + (t.edit e).live.length = d.deletions + t.live.length := by
      cases e with
      | write slot => rfl
      | erase slot priorRows =>
        have hslot : slot < t.live.length := hedits.1.1
        obtain ⟨last, -, hedit⟩ := t.edit_erase hslot priorRows
        rw [hedit, List.length_dropLast, List.length_set, RowDiff.record, RowDiff.eraseUnordered]
        dsimp only
        omega
      | append => cases hnone _ List.mem_cons_self
    exact (ih _ hedits.2 fun e' he' => hnone e' (List.mem_cons_of_mem _ he')).trans hstep

/-- **A row diff of writes and erases is exact.** Take a table of `n` rows, those appended before the
first erase among them, and write to and erase rows that live. What the diff has for a slot in which a
row lives, or else the slot itself, is the index that row had at first; the rows recorded as changed
are exactly those written to while they lived, by that index too and whatever became of them; and the
deletions are the rows that are missing. -/
theorem occupants_exact {n : Nat} {edits : List RowEdit}
    (hedits : (RowTable.untouched n).AdmitsAll edits) (hnone : ∀ e ∈ edits, e.appends = false) :
    let t := (RowTable.untouched n).editAll edits
    let d := RowDiff.empty.recordAll edits
    (∀ s row, t.live[s]? = some row → row.origin = some ((d.moves.get? s).getD s)) ∧
      (∀ i, i ∈ d.changed ↔ ∃ row ∈ t.written, row.origin = some i) ∧
      t.live.length ≤ n ∧ d.deletions = n - t.live.length := by
  intro t d
  have hfollows : Follows t d := (Follows.untouched n).editAll hedits
  -- nothing was appended, so every row is known by the index it had at first
  have horigin : ∀ row ∈ t.rows, row.origin = some row.index := by
    refine RowTable.forall_rows_editAll hedits (fun e he happends => ?_) fun row hrow =>
      (RowTable.rows_untouched hrow).1
    rw [hnone e he] at happends
    cases happends
  have hcount : d.deletions + t.live.length = n := by
    have hcount := RowDiff.empty.deletions_recordAll hedits hnone
    rw [RowTable.untouched, List.length_map, List.length_range] at hcount
    exact hcount.trans (Nat.zero_add n)
  refine ⟨fun s row hrow => ?_, fun i => ?_, by omega, by omega⟩
  · rw [horigin row (RowTable.mem_rows_of_live hrow), ← RowTable.indexOf_of_live hrow,
      ← hfollows.origin, RowDiff.origin]
  · rw [hfollows.mem_changed]
    refine exists_congr fun row => and_congr_right fun hrow => ?_
    rw [horigin row (List.mem_append_right _ hrow), Option.some_inj]

/-- Four of five rows are erased, the last one after it was moved and the one before it as the last
row; three rows were written to, two of them before they were erased. -/
theorem occupants_exact_fourErased :
    let edits : List RowEdit :=
      [.write 2, .erase 1 5, .write 1, .erase 0 4, .write 0, .erase 0 3, .erase 1 2]
    let t := (RowTable.untouched 5).editAll edits
    let d := RowDiff.empty.recordAll edits
    (RowTable.untouched 5).AdmitsAll edits ∧ (∀ e ∈ edits, e.appends = false) ∧
      t.live = [⟨some 2, 2⟩] ∧ (d.moves.get? 0).getD 0 = 2 ∧
      (∀ i, i ∈ d.changed ↔ ∃ row ∈ t.written, row.origin = some i) ∧
      d.changed.members = [2, 3, 4] ∧ d.deletions = 4 := by
  intro edits t d
  have hedits : (RowTable.untouched 5).AdmitsAll edits := by decide
  have hnone : ∀ e ∈ edits, e.appends = false := by decide
  obtain ⟨horigin, hchanged, -, hdeletions⟩ := occupants_exact hedits hnone
  have hmoved : some 2 = some ((d.moves.get? 0).getD 0) := horigin 0 ⟨some 2, 2⟩ (by decide)
  exact ⟨hedits, hnone, by decide, (Option.some_inj.mp hmoved).symm, hchanged, by decide, hdeletions⟩

end SnapshotCoordination
