import SnapshotCoordination.Codec.Diff
import SnapshotCoordination.Proofs.Lists.Decoding

/-!
# Reading what was written

The readers of numbers, lists and records, each with what it makes of a document that was written
for a value, and of which values it ever gives.

* **numbers** — a number is read if it is in the range of its reader (`natBelow?_eq_some_iff`,
  `int?_eq_some_iff`); the name of a slot is read as the slot (`SlotMap.slot?_toString`);
* **sets and maps** — rows that ascend are read as the set they were (`PositionSet.ofList_members`),
  and slots that ascend as their map (`SlotMap.decode?_encode`);
* **fields** — a reader of a record sees the fields that it names and no others. A `Form` says which
  ones these are, in a document and in all parts of it, and `Form.prune` leaves the others out.
-/

namespace SnapshotCoordination

namespace Document

variable {α : Type} {d : Document} {fs : Fields} {name : String} {n limit : Nat}

/-! ## Numbers -/

theorem natBelow?_ofNat (h : n < limit) : natBelow? limit (ofNat n) = some n :=
  natBelow?_eq_some_iff.mpr ⟨rfl, h⟩

theorem nat?_ofNat (h : n < natLimit) : nat? (ofNat n) = some n := natBelow?_ofNat h

theorem lt_of_natBelow? (h : natBelow? limit d = some n) : n < limit :=
  (natBelow?_eq_some_iff.mp h).2

/-- A signed number of 64 bits. -/
def IsSigned (i : Int) : Prop := -Int.pow 2 63 ≤ i ∧ i < Int.pow 2 63

theorem int?_eq_some_iff {i : Int} : int? d = some i ↔ d = .integer i ∧ IsSigned i := by
  constructor
  · intro h
    unfold int? at h
    split at h
    · next j =>
      split at h
      · next hj =>
        obtain rfl := Option.some.inj h
        exact ⟨rfl, hj⟩
      · cases h
    · cases h
  · rintro ⟨rfl, hi⟩
    exact if_pos hi

/-! ## Lists and options -/

/-- A list is read as it was written if its items are. -/
theorem list?_map {f : Document → Option α} {g : α → Document} {xs : List α}
    (h : ∀ x ∈ xs, f (g x) = some x) : list? f (.list (xs.map g)) = some xs :=
  list?_eq_some_iff.mpr
    ⟨_, rfl, List.forall₂_map_left_iff.mpr (List.forall₂_same.mpr h)⟩

/-- What is read of the items holds of a list that is read. -/
theorem forall_of_list? {f : Document → Option α} {P : α → Prop}
    (hf : ∀ {d x}, f d = some x → P x) {xs : List α} (h : list? f d = some xs) : ∀ x ∈ xs, P x := by
  obtain ⟨items, -, hitems⟩ := list?_eq_some_iff.mp h
  intro x hx
  obtain ⟨i, hi, rfl⟩ := List.getElem_of_mem hx
  obtain ⟨hlength, hget⟩ := List.forall₂_iff_get.mp hitems
  exact hf (hget i (hlength ▸ hi) hi)

/-- An option is read as it was written if its value is, and is not written as null. -/
theorem option?_ofOption {f : Document → Option α} {g : α → Document} {x : Option α}
    (h : ∀ a, x = some a → f (g a) = some a ∧ g a ≠ .null) : option? f (ofOption g x) = some x := by
  cases x with
  | none => rfl
  | some a =>
    obtain ⟨hread, hnull⟩ := h a rfl
    unfold option? ofOption
    split
    · next heq => exact absurd heq hnull
    · rw [hread, Option.map_some]

/-- What is read of a value holds of an option that is read. -/
theorem forall_of_option? {f : Document → Option α} {P : α → Prop}
    (hf : ∀ {d a}, f d = some a → P a) {x : Option α} (h : option? f d = some x) :
    ∀ a, x = some a → P a := by
  rintro a rfl
  unfold option? at h
  split at h
  · cases h
  · obtain ⟨b, hb, heq⟩ := Option.map_eq_some_iff.mp h
    exact Option.some.inj heq ▸ hf hb

/-! ## Fields -/

theorem Fields.get_cons {f : Document → Option α} {n : String} :
    Fields.get ((n, d) :: fs) name f = if name == n then f d else Fields.get fs name f := by
  unfold Fields.get
  rw [List.lookup_cons]
  cases name == n <;> rfl

theorem Fields.getD_cons {f : Document → Option α} {n : String} {default : α} :
    Fields.getD ((n, d) :: fs) name f default =
      if name == n then f d else Fields.getD fs name f default := by
  unfold Fields.getD
  rw [List.lookup_cons]
  cases name == n <;> rfl

/-- What holds of everything that is read holds of a field. -/
theorem Fields.of_get {f : Document → Option α} {P : α → Prop} (hf : ∀ {d x}, f d = some x → P x)
    {x : α} (h : fs.get name f = some x) : P x := by
  obtain ⟨d, -, hd⟩ := Fields.get_eq_some_iff.mp h
  exact hf hd

/-- It holds of a field that may be left out, if it holds of the default. -/
theorem Fields.of_getD {f : Document → Option α} {P : α → Prop} {default : α}
    (hf : ∀ {d x}, f d = some x → P x) (hdefault : P default) {x : α}
    (h : fs.getD name f default = some x) : P x := by
  unfold Fields.getD at h
  split at h
  · exact hf h
  · exact Option.some.inj h ▸ hdefault

/-! ## Forms -/

/-- Which fields the reader of a document asks for. -/
inductive Form where
  /-- The document is no record of named fields, and neither is any part of it. -/
  | plain
  /-- A record of these fields, each with a form of its own. -/
  | record (names : List String) (field : String → Form)
  /-- A list of items of a form. -/
  | list (item : Form)
  /-- The name of a kind with an operand, whose form depends on the kind. -/
  | kind (operand : String → Form)

namespace Form

/-- The fields with these names, changed by `f`. -/
def keepFields (names : List String) (f : String → Document → Document) (fs : Fields) : Fields :=
  fs.filterMap fun x => if x.1 ∈ names then some (x.1, f x.1 x.2) else none

/-- Items that stand for the fields with these names, changed by `f`. -/
def mapItems (f : String → Document → Document) : List String → List Document → List Document
  | name :: names, d :: items => f name d :: mapItems f names items
  | _, items => items

/-- A document without the fields that its reader does not ask for, wherever they are. -/
def prune : Form → Document → Document
  | .record names field, .record fs => .record (keepFields names (fun n d => (field n).prune d) fs)
  | .record names field, .list items => .list (mapItems (fun n d => (field n).prune d) names items)
  | .list item, .list items => .list (items.map item.prune)
  | .kind operand, .record [(name, d)] => .record [(name, (operand name).prune d)]
  | _, d => d

/-- Whether a document has just the fields that its reader asks for, in their order, wherever it has
fields. -/
def IsExact : Form → Document → Prop
  | .record names field, .record fs =>
    fs.map Prod.fst = names ∧ ∀ x ∈ fs, (field x.1).IsExact x.2
  | .list item, .list items => ∀ d ∈ items, item.IsExact d
  | .kind operand, .record [(name, d)] => (operand name).IsExact d
  | .kind _, .text _ => True
  | .plain, _ => True
  | _, _ => False

variable {names : List String} {f : String → Document → Document}

theorem lookup_keepFields (h : name ∈ names) :
    (keepFields names f fs).lookup name = (fs.lookup name).map (f name) := by
  unfold keepFields
  induction fs with
  | nil => rfl
  | cons x fs ih =>
    obtain ⟨n, d⟩ := x
    by_cases heq : name = n
    · subst heq
      simp [h]
    · have hne : (name == n) = false := by simpa using heq
      by_cases hn : n ∈ names <;> simp [List.lookup_cons, hn, hne, ih]

/-- A field that is asked for is read as before. -/
theorem get_keepFields {g : Document → Option α} (h : name ∈ names)
    (hg : ∀ d, g (f name d) = g d) : (keepFields names f fs).get name g = fs.get name g := by
  unfold Fields.get
  rw [lookup_keepFields h]
  cases fs.lookup name with
  | none => rfl
  | some d => exact hg d

theorem getD_keepFields {g : Document → Option α} {default : α} (h : name ∈ names)
    (hg : ∀ d, g (f name d) = g d) :
    (keepFields names f fs).getD name g default = fs.getD name g default := by
  unfold Fields.getD
  rw [lookup_keepFields h]
  cases fs.lookup name with
  | none => rfl
  | some d => exact hg d

theorem length_mapItems (names : List String) (items : List Document) :
    (mapItems f names items).length = items.length := by
  fun_induction mapItems f names items with
  | case1 name names d items ih => rw [List.length_cons, List.length_cons, ih]
  | case2 => rfl

/-- Items that stand for fields are changed as the fields are. -/
theorem zip_mapItems (items : List Document) :
    names.zip (mapItems f names items) = keepFields names f (names.zip items) := by
  have hzip : ∀ names items, List.zip names (mapItems f names items) =
      (names.zip items).map fun x => (x.1, f x.1 x.2) := by
    intro names items
    fun_induction mapItems f names items with
    | case1 name names d items ih => rw [List.zip_cons_cons, ih, List.zip_cons_cons, List.map_cons]
    | case2 names items h =>
      cases names with
      | nil => rfl
      | cons name names =>
        cases items with
        | nil => rfl
        | cons d items => exact (h name names d items rfl rfl).elim
  rw [hzip]
  unfold keepFields
  rw [← List.filterMap_eq_map]
  exact List.filterMap_congr fun x hx => (if_pos (List.of_mem_zip hx).1).symm

/-- Items are read as before. -/
theorem list?_prune {item : Form} {g : Document → Option α} (hg : ∀ d, g (item.prune d) = g d)
    (d : Document) : list? g ((Form.list item).prune d) = list? g d := by
  cases d with
  | list items =>
    show (items.map item.prune).mapM g = items.mapM g
    rw [List.mapM_map]
    exact congrArg (List.mapM · items) (funext hg)
  | _ => rfl

theorem fields?_prune {field : String → Form} (d : Document) :
    fields? names ((Form.record names field).prune d) =
      (fields? names d).map (keepFields names fun n d => (field n).prune d) := by
  cases d with
  | list items =>
    show (if (mapItems _ names items).length = names.length then some _ else none) =
      Option.map _ (if items.length = names.length then _ else none)
    rw [length_mapItems, zip_mapItems]
    split <;> rfl
  | _ => rfl

theorem someFields?_prune {field : String → Form} (d : Document) :
    someFields? names ((Form.record names field).prune d) =
      (someFields? names d).map (keepFields names fun n d => (field n).prune d) := by
  cases d with
  | list items =>
    show (if (mapItems _ names items).length ≤ names.length then some _ else none) =
      Option.map _ (if items.length ≤ names.length then _ else none)
    rw [length_mapItems, zip_mapItems]
    split <;> rfl
  | _ => rfl

/-- A record is read as before, if its fields are. -/
theorem bind_fields?_prune {field : String → Form} {k : Fields → Option α}
    (hk : ∀ fs, k (keepFields names (fun n d => (field n).prune d) fs) = k fs) (d : Document) :
    (fields? names ((Form.record names field).prune d)).bind k = (fields? names d).bind k := by
  rw [fields?_prune, Option.bind_map]
  exact congrArg (Option.bind _) (funext hk)

/-- So is a record that may leave out fields. -/
theorem bind_someFields?_prune {field : String → Form} {k : Fields → Option α}
    (hk : ∀ fs, k (keepFields names (fun n d => (field n).prune d) fs) = k fs) (d : Document) :
    (someFields? names ((Form.record names field).prune d)).bind k =
      (someFields? names d).bind k := by
  rw [someFields?_prune, Option.bind_map]
  exact congrArg (Option.bind _) (funext hk)

end Form

end Document

open Document

/-! ## Sets that ascend -/

namespace PositionSet

/-- A position behind all members comes last. -/
theorem add_of_forall_lt {s : PositionSet} {i : Nat} (h : ∀ x ∈ s, x < i) :
    s.add i = ⟨s.members ++ [i]⟩ := by
  have hbelow : s.below i = s.members :=
    List.takeWhile_eq_self_iff.mpr fun x hx => decide_eq_true (h x hx)
  have hback : s.fromOn i = [] :=
    List.dropWhile_eq_nil_iff.mpr fun x hx => decide_eq_true (h x hx)
  unfold add contains
  rw [hbelow, hback]
  rfl

theorem foldl_add_of_ascending (front : List Nat) {back : List Nat}
    (h : (front ++ back).Pairwise (· < ·)) : back.foldl add ⟨front⟩ = ⟨front ++ back⟩ := by
  induction back generalizing front with
  | nil => rw [List.append_nil]; rfl
  | cons x back ih =>
    have hlt : ∀ y ∈ front, y < x := fun y hy =>
      (List.pairwise_append.mp h).2.2 y hy x List.mem_cons_self
    rw [List.append_cons] at h ⊢
    rw [List.foldl_cons, add_of_forall_lt (s := ⟨front⟩) hlt]
    exact ih _ h

/-- Members that ascend are the set of themselves. -/
theorem ofList_members {s : PositionSet} (h : s.Ascending) : ofList s.members = s :=
  foldl_add_of_ascending [] h

theorem mem_foldl_add {s : PositionSet} (h : s.Ascending) {positions : List Nat} {x : Nat} :
    x ∈ positions.foldl add s ↔ x ∈ positions ∨ x ∈ s := by
  induction positions generalizing s with
  | nil => simp
  | cons i positions ih =>
    rw [List.foldl_cons, ih (ascending_add h), mem_add h, List.mem_cons]
    tauto

/-- The members of a set are the positions it was made of. -/
theorem mem_ofList {positions : List Nat} {x : Nat} : x ∈ ofList positions ↔ x ∈ positions :=
  (mem_foldl_add ascending_empty).trans (or_iff_left (notMem_empty x))

end PositionSet

/-! ## Slots -/

namespace Document

/-- The digits of a number stand for it. -/
theorem numberOf_toDigits (n : Nat) : numberOf (Nat.toDigits 10 n) = n :=
  Nat.ofDigitChars_ten_toDigits

theorem all_isDigit_toDigits (n : Nat) : (Nat.toDigits 10 n).all Char.isDigit = true :=
  List.all_eq_true.mpr fun _ hc => Nat.isDigit_of_mem_toDigits (by decide) (by decide) hc

theorem toString_injective : Function.Injective (toString : Nat → String) := by
  intro m n h
  have hdigits := congrArg (numberOf ∘ String.toList) h
  simpa [numberOf_toDigits] using hdigits

/-- Only zero is written with a zero in front. -/
theorem head?_toDigits (h : 0 < n) : (Nat.toDigits 10 n).head? ≠ some '0' := by
  induction n using Nat.strongRecOn with
  | ind n ih =>
    rw [Nat.toDigits_eq_if (by decide)]
    split
    · intro heq
      have := Nat.digitChar_eq_zero.mp (Option.some.inj heq)
      omega
    · rw [List.head?_append_of_ne_nil _ Nat.toDigits_ne_nil]
      exact ih (n / 10) (by omega) (by omega)

end Document

namespace SlotMap

/-- The name of a slot is read as the slot. -/
theorem slot?_toString {n : Nat} (h : n < natLimit) : slot? (toString n) = some n := by
  have hzeros : (Nat.toDigits 10 n).head? ≠ some '0' ∨ Nat.toDigits 10 n = ['0'] := by
    rcases Nat.eq_zero_or_pos n with rfl | hpos
    · exact .inr rfl
    · exact .inl (head?_toDigits hpos)
  unfold slot?
  rw [Nat.toString_eq_ofList_toDigits, String.toList_ofList]
  rw [if_pos ⟨Nat.toDigits_ne_nil, all_isDigit_toDigits n, hzeros⟩, numberOf_toDigits, if_pos h]

theorem lt_of_slot? {name : String} {n : Nat} (h : slot? name = some n) : n < natLimit := by
  simp only [slot?] at h
  split at h
  · split at h
    · next hlt => exact Option.some.inj h ▸ hlt
    · cases h
  · cases h

/-- The slots ascend, and all numbers are below the limit. -/
structure Fits (m : SlotMap) : Prop where
  ascend : m.entries.Pairwise (·.1 < ·.1)
  inRange : ∀ e ∈ m.entries, e.1 < natLimit ∧ e.2 < natLimit

variable {m m' : SlotMap} {slot row : Nat}

/-- An entry behind all others comes last. -/
theorem place_of_forall_lt {entries : List (Nat × Nat)} (h : ∀ e ∈ entries, e.1 < slot) :
    place slot row entries = entries ++ [(slot, row)] := by
  induction entries with
  | nil => rfl
  | cons e entries ih =>
    obtain ⟨he, hrest⟩ := List.forall_mem_cons.mp h
    rw [place, if_neg (by omega), if_neg (by omega), ih hrest]
    rfl

theorem mem_place {entries : List (Nat × Nat)} {e : Nat × Nat} (h : e ∈ place slot row entries) :
    e = (slot, row) ∨ e ∈ entries := by
  induction entries with
  | nil => exact .inl (List.mem_singleton.mp h)
  | cons e' entries ih =>
    unfold place at h
    split at h
    · exact (List.mem_cons.mp h).imp_right id
    · split at h
      · exact (List.mem_cons.mp h).imp_right (List.mem_cons_of_mem _)
      · rcases List.mem_cons.mp h with rfl | h
        · exact .inr List.mem_cons_self
        · exact (ih h).imp_right (List.mem_cons_of_mem _)

theorem pairwise_place {entries : List (Nat × Nat)} (h : entries.Pairwise (·.1 < ·.1)) :
    (place slot row entries).Pairwise (·.1 < ·.1) := by
  induction entries with
  | nil => exact List.pairwise_singleton _ _
  | cons e entries ih =>
    obtain ⟨he, hrest⟩ := List.pairwise_cons.mp h
    unfold place
    split
    · next hlt =>
      refine List.pairwise_cons.mpr ⟨fun e' he' => ?_, h⟩
      rcases List.mem_cons.mp he' with rfl | he'
      · exact hlt
      · exact Nat.lt_trans hlt (he e' he')
    · split
      · next heq => exact List.pairwise_cons.mpr ⟨fun e' he' => heq ▸ he e' he', hrest⟩
      · next hlt hne =>
        refine List.pairwise_cons.mpr ⟨fun e' he' => ?_, ih hrest⟩
        rcases mem_place he' with rfl | he'
        · show e.1 < slot
          omega
        · exact he e' he'

theorem Fits.insert (h : m.Fits) (hslot : slot < natLimit) (hrow : row < natLimit) :
    (m.insert slot row).Fits where
  ascend := pairwise_place h.ascend
  inRange e he := by
    rcases mem_place he with rfl | he
    · exact ⟨hslot, hrow⟩
    · exact h.inRange e he

theorem fits_of_insertFields {fs : Fields} (hm : m.Fits) (h : insertFields m fs = some m') :
    m'.Fits := by
  induction fs generalizing m with
  | nil => exact Option.some.inj h ▸ hm
  | cons x fs ih =>
    obtain ⟨slot, hslot, h⟩ := Option.bind_eq_some_iff.mp h
    obtain ⟨row, hrow, h⟩ := Option.bind_eq_some_iff.mp h
    exact ih (hm.insert (lt_of_slot? hslot) (lt_of_natBelow? hrow)) h

/-- A map that is read is in order. -/
theorem fits_of_decode? {d : Document} (h : decode? d = some m) : m.Fits := by
  unfold decode? at h
  split at h
  · exact fits_of_insertFields ⟨List.Pairwise.nil, fun _ he => absurd he List.not_mem_nil⟩ h
  · cases h

theorem insertFields_append (front : List (Nat × Nat)) {back : List (Nat × Nat)}
    (h : Fits ⟨front ++ back⟩) :
    insertFields ⟨front⟩ (back.map fun e => (toString e.1, ofNat e.2)) = some ⟨front ++ back⟩ := by
  induction back generalizing front with
  | nil => rw [List.append_nil]; rfl
  | cons e back ih =>
    have hrange := h.inRange e (List.mem_append_right _ List.mem_cons_self)
    have hlt : ∀ e' ∈ front, e'.1 < e.1 := fun e' he' =>
      (List.pairwise_append.mp h.ascend).2.2 e' he' e List.mem_cons_self
    rw [List.map_cons, insertFields, slot?_toString hrange.1, nat?_ofNat hrange.2]
    show insertFields ⟨place e.1 e.2 front⟩ _ = _
    rw [place_of_forall_lt hlt]
    rw [List.append_cons front e back] at h ⊢
    exact ih _ h

/-- A map in order is read as it was written. -/
theorem decode?_encode (h : m.Fits) : decode? m.encode = some m :=
  insertFields_append [] h

end SlotMap

end SnapshotCoordination
