import SnapshotCoordination.Codec.Config
import SnapshotCoordination.Proofs.Codec.Texts

/-!
# Records read as they were written

Versions, diffs and configurations, written as documents and read again. For each of them:

* **`decode?_encode`** — it is read as it was written if its numbers are in the range of their types
  and its sets and maps are in order;
* **`fits_of_decode?`** — whatever is read is such a value;
* **`decode?_prune`** — fields of other names make no difference, neither in the record nor in any
  record in it;
* **`isExact_encode`** — what is written has just the fields that are asked for;
* **`legible_encode`**, **`nests_encode`** — its text says all about it, and it nests only so deep.
-/

namespace SnapshotCoordination

open Document

variable {d : Document} {room : Nat}

/-! ## Versions -/

namespace Version

/-- Every number is in the range of its type. -/
structure Fits (v : Version) : Prop where
  number : v.number < natLimit
  index : v.index < indexLimit

def form : Form := .record ["version", "index"] fun _ => .plain

variable {v : Version}

theorem decode?_encode (h : v.Fits) : decode? v.encode = some v := by
  simp [decode?, encode, fields?, Fields.get_cons, nat?_ofNat h.number, natBelow?_ofNat h.index]

theorem fits_of_decode? (h : decode? d = some v) : v.Fits := by
  unfold decode? at h
  obtain ⟨fs, -, h⟩ := Option.bind_eq_some_iff.mp h
  obtain ⟨number, hnumber, h⟩ := Option.bind_eq_some_iff.mp h
  obtain ⟨index, hindex, h⟩ := Option.bind_eq_some_iff.mp h
  obtain rfl := Option.some.inj h
  exact ⟨Fields.of_get lt_of_natBelow? hnumber, Fields.of_get lt_of_natBelow? hindex⟩

theorem decode?_prune (d : Document) : decode? (form.prune d) = decode? d :=
  Form.bind_fields?_prune (fun fs => by simp [Form.get_keepFields, Form.prune]) d

theorem isExact_encode (v : Version) : form.IsExact v.encode := by
  simp [form, Form.IsExact, encode]

theorem legible_encode (h : v.Fits) : Legible v.encode :=
  .record (by simp)
    (by simp [Legible.ofNat h.number, Legible.ofNat (Nat.lt_trans h.index (by decide))])

theorem nests_encode (v : Version) : Nests (room + 1) v.encode := by
  simp [encode, Nests]

end Version

/-! ## Lists -/

namespace ListKey

/-- Every number is in the range of its type. -/
structure Fits (k : ListKey) : Prop where
  table : k.table < natLimit
  row : k.row < natLimit
  col : k.col < natLimit

def form : Form := .record ["table", "row", "col"] fun _ => .plain

variable {k : ListKey}

theorem decode?_encode (h : k.Fits) : decode? k.encode = some k := by
  simp [decode?, encode, fields?, Fields.get_cons, nat?_ofNat h.table, nat?_ofNat h.row,
    nat?_ofNat h.col]

theorem fits_of_decode? (h : decode? d = some k) : k.Fits := by
  unfold decode? at h
  obtain ⟨fs, -, h⟩ := Option.bind_eq_some_iff.mp h
  obtain ⟨table, htable, h⟩ := Option.bind_eq_some_iff.mp h
  obtain ⟨row, hrow, h⟩ := Option.bind_eq_some_iff.mp h
  obtain ⟨col, hcol, h⟩ := Option.bind_eq_some_iff.mp h
  obtain rfl := Option.some.inj h
  exact ⟨Fields.of_get lt_of_natBelow? htable, Fields.of_get lt_of_natBelow? hrow,
    Fields.of_get lt_of_natBelow? hcol⟩

theorem decode?_prune (d : Document) : decode? (form.prune d) = decode? d :=
  Form.bind_fields?_prune (fun fs => by simp [Form.get_keepFields, Form.prune]) d

theorem isExact_encode (k : ListKey) : form.IsExact k.encode := by
  simp [form, Form.IsExact, encode]

theorem legible_encode (h : k.Fits) : Legible k.encode :=
  .record (by simp) (by simp [Legible.ofNat h.table, Legible.ofNat h.row, Legible.ofNat h.col])

theorem nests_encode (k : ListKey) : Nests (room + 1) k.encode := by
  simp [encode, Nests]

end ListKey

namespace ListMove

/-- Every number is in the range of its type. -/
structure Fits (m : ListMove) : Prop where
  origin : m.origin < natLimit
  target : m.target < natLimit

def form : Form := .record ["from", "to"] fun _ => .plain

variable {m : ListMove}

theorem decode?_encode (h : m.Fits) : decode? m.encode = some m := by
  simp [decode?, encode, fields?, Fields.get_cons, nat?_ofNat h.origin, nat?_ofNat h.target]

theorem fits_of_decode? (h : decode? d = some m) : m.Fits := by
  unfold decode? at h
  obtain ⟨fs, -, h⟩ := Option.bind_eq_some_iff.mp h
  obtain ⟨origin, horigin, h⟩ := Option.bind_eq_some_iff.mp h
  obtain ⟨target, htarget, h⟩ := Option.bind_eq_some_iff.mp h
  obtain rfl := Option.some.inj h
  exact ⟨Fields.of_get lt_of_natBelow? horigin, Fields.of_get lt_of_natBelow? htarget⟩

theorem decode?_prune (d : Document) : decode? (form.prune d) = decode? d :=
  Form.bind_fields?_prune (fun fs => by simp [Form.get_keepFields, Form.prune]) d

theorem isExact_encode (m : ListMove) : form.IsExact m.encode := by
  simp [form, Form.IsExact, encode]

theorem legible_encode (h : m.Fits) : Legible m.encode :=
  .record (by simp) (by simp [Legible.ofNat h.origin, Legible.ofNat h.target])

theorem nests_encode (m : ListMove) : Nests (room + 1) m.encode := by
  simp [encode, Nests]

end ListMove

namespace PositionSet

/-- Every member is in the range of its type; the members need not be in order. -/
def Fits (s : PositionSet) : Prop := ∀ x ∈ s.members, x < natLimit

def form : Form := .record ["indices"] fun _ => .plain

variable {s : PositionSet}

theorem fits_of_decode? (h : decode? d = some s) : s.Fits := (decode?_eq_some_iff.mp h).2

theorem decode?_prune (d : Document) : decode? (form.prune d) = decode? d :=
  Form.bind_fields?_prune (fun fs => by simp [Form.get_keepFields, Form.prune]) d

theorem isExact_encode (s : PositionSet) : form.IsExact s.encode := by
  simp [form, Form.IsExact, encode]

theorem legible_encode (h : s.Fits) : Legible s.encode :=
  .record (by simp) (by simp [Legible.map fun x hx => Legible.ofNat (h x hx)])

theorem nests_encode (s : PositionSet) : Nests (room + 2) s.encode := by
  simp [encode, Nests]

end PositionSet

namespace ListDiff

/-- Every number in it is in the range of its type. -/
structure Fits (l : ListDiff) : Prop where
  key : l.key.Fits
  inserts : l.inserts.Fits
  deletes : l.deletes.Fits
  changes : l.changes.Fits
  moves : ∀ m ∈ l.moves, m.Fits

def form : Form := .record fieldNames fun
  | "key" => ListKey.form
  | "inserts" | "deletes" | "changes" => PositionSet.form
  | "moves" => .list ListMove.form
  | _ => .plain

variable {l : ListDiff}

theorem decode?_encode (h : l.Fits) : decode? l.encode = some l := by
  have hmoves := list?_map fun m hm => ListMove.decode?_encode (h.moves m hm)
  simp [decode?, encode, fields?, Fields.get_cons, ListKey.decode?_encode h.key,
    PositionSet.decode?_encode h.inserts, PositionSet.decode?_encode h.deletes,
    PositionSet.decode?_encode h.changes, hmoves, bool?]

theorem fits_of_decode? (h : decode? d = some l) : l.Fits := by
  unfold decode? at h
  obtain ⟨fs, -, h⟩ := Option.bind_eq_some_iff.mp h
  obtain ⟨key, hkey, h⟩ := Option.bind_eq_some_iff.mp h
  obtain ⟨inserts, hinserts, h⟩ := Option.bind_eq_some_iff.mp h
  obtain ⟨deletes, hdeletes, h⟩ := Option.bind_eq_some_iff.mp h
  obtain ⟨changes, hchanges, h⟩ := Option.bind_eq_some_iff.mp h
  obtain ⟨moves, hmoves, h⟩ := Option.bind_eq_some_iff.mp h
  obtain ⟨cleared, -, h⟩ := Option.bind_eq_some_iff.mp h
  obtain rfl := Option.some.inj h
  exact ⟨Fields.of_get ListKey.fits_of_decode? hkey,
    Fields.of_get PositionSet.fits_of_decode? hinserts,
    Fields.of_get PositionSet.fits_of_decode? hdeletes,
    Fields.of_get PositionSet.fits_of_decode? hchanges,
    Fields.of_get (forall_of_list? ListMove.fits_of_decode?) hmoves⟩

theorem decode?_prune (d : Document) : decode? (form.prune d) = decode? d :=
  Form.bind_fields?_prune (fun fs => by
    simp [Form.get_keepFields, ListKey.decode?_prune, PositionSet.decode?_prune,
      Form.list?_prune ListMove.decode?_prune, Form.prune]) d

theorem isExact_encode (l : ListDiff) : form.IsExact l.encode := by
  simp [form, Form.IsExact, encode, fieldNames, ListKey.isExact_encode, PositionSet.isExact_encode,
    ListMove.isExact_encode]

theorem legible_encode (h : l.Fits) : Legible l.encode := by
  have hmoves : Legible (.list (l.moves.map ListMove.encode)) :=
    Legible.map fun m hm => ListMove.legible_encode (h.moves m hm)
  exact .record (by simp)
    (by simp [ListKey.legible_encode h.key, PositionSet.legible_encode h.inserts,
      PositionSet.legible_encode h.deletes, PositionSet.legible_encode h.changes, hmoves,
      Legible.bool])

theorem nests_encode (l : ListDiff) : Nests (room + 3) l.encode := by
  simp [encode, Nests, ListKey.nests_encode, PositionSet.nests_encode, ListMove.nests_encode]

end ListDiff

/-! ## Changes -/

namespace SlotMap

variable {m : SlotMap}

theorem legible_encode (h : m.Fits) : Legible m.encode := by
  refine .record ?_ (List.forall_mem_map.mpr fun e he => Legible.ofNat (h.inRange e he).2)
  rw [List.map_map]
  exact List.pairwise_map.mpr (h.ascend.imp fun hlt heq =>
    Nat.ne_of_lt hlt (toString_injective heq))

theorem nests_encode (m : SlotMap) : Nests (room + 1) m.encode :=
  List.forall_mem_map.mpr fun e _ => nests_ofNat e.2

end SlotMap

namespace RowDiff

/-- The changed rows and the slots ascend, and every number is in the range of its type. -/
structure Fits (r : RowDiff) : Prop where
  ascend : r.changed.Ascending
  changed : r.changed.Fits
  moves : r.moves.Fits
  deletions : r.deletions < natLimit

def form : Form := .record ["changed", "moves", "deletions"] fun _ => .plain

variable {r : RowDiff}

theorem decode?_encode (h : r.Fits) : decode? r.encode = some r := by
  have hchanged := list?_map fun x hx => nat?_ofNat (h.changed x hx)
  simp [decode?, encode, fields?, Fields.get_cons, hchanged, PositionSet.ofList_members h.ascend,
    SlotMap.decode?_encode h.moves, nat?_ofNat h.deletions]

theorem fits_of_decode? (h : decode? d = some r) : r.Fits := by
  have hascend := ascending_decode? h
  unfold decode? at h
  obtain ⟨fs, -, h⟩ := Option.bind_eq_some_iff.mp h
  obtain ⟨rows, hrows, h⟩ := Option.bind_eq_some_iff.mp h
  obtain ⟨moves, hmoves, h⟩ := Option.bind_eq_some_iff.mp h
  obtain ⟨deletions, hdeletions, h⟩ := Option.bind_eq_some_iff.mp h
  obtain rfl := Option.some.inj h
  have hbelow : ∀ x ∈ rows, x < natLimit := Fields.of_get (forall_of_list? lt_of_natBelow?) hrows
  exact ⟨hascend, fun x hx => hbelow x (PositionSet.mem_ofList.mp hx),
    Fields.of_get SlotMap.fits_of_decode? hmoves, Fields.of_get lt_of_natBelow? hdeletions⟩

theorem decode?_prune (d : Document) : decode? (form.prune d) = decode? d :=
  Form.bind_fields?_prune (fun fs => by simp [Form.get_keepFields, Form.prune]) d

theorem isExact_encode (r : RowDiff) : form.IsExact r.encode := by
  simp [form, Form.IsExact, encode]

theorem legible_encode (h : r.Fits) : Legible r.encode :=
  .record (by simp) (by simp [Legible.map fun x hx => Legible.ofNat (h.changed x hx),
    SlotMap.legible_encode h.moves, Legible.ofNat h.deletions])

theorem nests_encode (r : RowDiff) : Nests (room + 2) r.encode := by
  simp [encode, Nests, SlotMap.nests_encode]

end RowDiff

namespace Changes

/-- Every diff in it can be written. -/
structure Fits (c : Changes) : Prop where
  tables : ∀ r ∈ c.tables, r.Fits
  lists : ∀ l ∈ c.lists, l.Fits

def form : Form := .record ["tables", "link_lists"] fun
  | "tables" => .list RowDiff.form
  | _ => .list ListDiff.form

variable {c : Changes}

theorem decode?_encode (h : c.Fits) : decode? c.encode = some c := by
  have htables := list?_map fun r hr => RowDiff.decode?_encode (h.tables r hr)
  have hlists := list?_map fun l hl => ListDiff.decode?_encode (h.lists l hl)
  simp [decode?, encode, fields?, Fields.get_cons, htables, hlists]

theorem fits_of_decode? (h : decode? d = some c) : c.Fits := by
  unfold decode? at h
  obtain ⟨fs, -, h⟩ := Option.bind_eq_some_iff.mp h
  obtain ⟨tables, htables, h⟩ := Option.bind_eq_some_iff.mp h
  obtain ⟨lists, hlists, h⟩ := Option.bind_eq_some_iff.mp h
  obtain rfl := Option.some.inj h
  exact ⟨Fields.of_get (forall_of_list? RowDiff.fits_of_decode?) htables,
    Fields.of_get (forall_of_list? ListDiff.fits_of_decode?) hlists⟩

theorem decode?_prune (d : Document) : decode? (form.prune d) = decode? d :=
  Form.bind_fields?_prune (fun fs => by
    simp [Form.get_keepFields, Form.list?_prune RowDiff.decode?_prune,
      Form.list?_prune ListDiff.decode?_prune]) d

theorem isExact_encode (c : Changes) : form.IsExact c.encode := by
  simp [form, Form.IsExact, encode, RowDiff.isExact_encode, ListDiff.isExact_encode]

theorem legible_encode (h : c.Fits) : Legible c.encode :=
  .record (by simp) (by simp [Legible.map fun r hr => RowDiff.legible_encode (h.tables r hr),
    Legible.map fun l hl => ListDiff.legible_encode (h.lists l hl)])

theorem nests_encode (c : Changes) : Nests (room + 5) c.encode := by
  simp [encode, Nests, RowDiff.nests_encode, ListDiff.nests_encode]

end Changes

/-! ## Configurations -/

namespace Config

/-- Every number is in the range of its type. -/
structure Fits (c : Config) : Prop where
  key : ∀ key, c.encryptionKey = some key → ∀ b ∈ key, b < 256
  schemaVersion : ∀ n, c.schemaVersion = some n → n < natLimit

/-- The configuration without its engine. -/
def detached (c : Config) : Config := { c with engine := none }

def form : Form := .record fieldNames fun _ => .plain

variable {c : Config}

theorem decode?_encode (h : c.Fits) : decode? c.encode = some c.detached := by
  have hkey : option? (list? byte?) (ofOption (fun key => .list (key.map ofNat)) c.encryptionKey) =
      some c.encryptionKey := option?_ofOption fun key hsome =>
    ⟨list?_map fun b hb => natBelow?_ofNat (h.key key hsome b hb), nofun⟩
  have hversion : option? nat? (ofOption ofNat c.schemaVersion) = some c.schemaVersion :=
    option?_ofOption fun n hsome => ⟨nat?_ofNat (h.schemaVersion n hsome), nofun⟩
  simp [decode?, encode, someFields?, Fields.getD_cons, text?, bool?, hkey, hversion, detached]

theorem fits_of_decode? (h : decode? d = some c) : c.Fits ∧ c.engine = none := by
  unfold decode? at h
  obtain ⟨fs, -, h⟩ := Option.bind_eq_some_iff.mp h
  obtain ⟨path, -, h⟩ := Option.bind_eq_some_iff.mp h
  obtain ⟨readOnly, -, h⟩ := Option.bind_eq_some_iff.mp h
  obtain ⟨inMemory, -, h⟩ := Option.bind_eq_some_iff.mp h
  obtain ⟨key, hkey, h⟩ := Option.bind_eq_some_iff.mp h
  obtain ⟨version, hversion, h⟩ := Option.bind_eq_some_iff.mp h
  obtain ⟨cache, -, h⟩ := Option.bind_eq_some_iff.mp h
  obtain rfl := Option.some.inj h
  exact ⟨⟨Fields.of_getD (forall_of_option? (forall_of_list? lt_of_natBelow?))
      (fun _ hnone => by cases hnone) hkey,
    Fields.of_getD (forall_of_option? lt_of_natBelow?) (fun _ hnone => by cases hnone) hversion⟩,
    rfl⟩

theorem decode?_prune (d : Document) : decode? (form.prune d) = decode? d :=
  Form.bind_someFields?_prune (fun fs => by
    simp [Form.getD_keepFields, fieldNames, Form.prune]) d

theorem isExact_encode (c : Config) : form.IsExact c.encode := by
  simp [form, Form.IsExact, encode, fieldNames]

theorem legible_encode (h : c.Fits) : Legible c.encode := by
  have hkey : Legible (ofOption (fun key => .list (key.map ofNat)) c.encryptionKey) :=
    Legible.ofOption fun key hsome => Legible.map fun b hb =>
      Legible.ofNat (Nat.lt_trans (h.key key hsome b hb) (by decide))
  have hversion : Legible (ofOption ofNat c.schemaVersion) :=
    Legible.ofOption fun n hsome => Legible.ofNat (h.schemaVersion n hsome)
  exact .record (by simp) (by simp [Legible.text, Legible.bool, hkey, hversion])

theorem nests_encode (c : Config) : Nests (room + 2) c.encode := by
  have hkey : Nests (room + 1) (ofOption (fun key => .list (key.map ofNat)) c.encryptionKey) :=
    nests_ofOption fun key _ => nests_map fun b _ => nests_ofNat b
  have hversion : Nests (room + 1) (ofOption ofNat c.schemaVersion) :=
    nests_ofOption fun n _ => nests_ofNat n
  simp [encode, Nests, hkey, hversion]

end Config

end SnapshotCoordination
