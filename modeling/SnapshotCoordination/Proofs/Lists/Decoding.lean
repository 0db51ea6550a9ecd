import Mathlib.Data.List.Forall2
import SnapshotCoordination.Codec.Diff
import SnapshotCoordination.Proofs.Lists.Operating

/-!
# Position sets read from documents

A position set that is read from a document has the members that the document lists, in that
order and as often as it lists them (`PositionSet.decode?_eq_some_iff`). So it is as good as one
that was built exactly when the document lists the positions in ascending order, each once, which
a document that was written for a built set does (`PositionSet.decode?_encode`); nothing else of
the document makes up for it. The changed rows of a row diff are put in order instead
(`RowDiff.ascending_decode?`).

* **reading** — `list?_eq_some_iff`, `nat?_eq_some_iff`: a list is read item by item, a position is
  a number below the limit;
* **the sets of a record** — `ListDiff.decode?_sets`, `Changes.decode?_lists`: they are read from
  the documents in its fields;
* **in and out of order** — `decoded_sets_as_listed`, `decode?_unordered`.
-/

namespace SnapshotCoordination

open Document

namespace Document

variable {α : Type} {f : Document → Option α} {d : Document} {fs : Fields} {xs : List α} {n : Nat}
  {ns : List Nat} {name : String}

/-! ## Reading -/

theorem Fields.get_eq_some_iff {x : α} :
    fs.get name f = some x ↔ ∃ d, fs.lookup name = some d ∧ f d = some x :=
  Option.bind_eq_some_iff

/-- A list is read item by item. -/
theorem mapM_eq_some_iff {items : List Document} :
    items.mapM f = some xs ↔ List.Forall₂ (fun d x => f d = some x) items xs := by
  induction items generalizing xs with
  | nil =>
    rw [List.mapM_nil, List.forall₂_nil_left_iff]
    exact ⟨fun h => (Option.some.inj h).symm, fun h => h ▸ rfl⟩
  | cons d items ih =>
    rw [List.mapM_cons, List.forall₂_cons_left_iff]
    constructor
    · intro h
      obtain ⟨x, hx, h⟩ := Option.bind_eq_some_iff.mp h
      obtain ⟨rest, hrest, h⟩ := Option.bind_eq_some_iff.mp h
      exact ⟨x, rest, hx, ih.mp hrest, (Option.some.inj h).symm⟩
    · rintro ⟨x, rest, hx, hrest, rfl⟩
      exact Option.bind_eq_some_iff.mpr
        ⟨x, hx, Option.bind_eq_some_iff.mpr ⟨rest, ih.mpr hrest, rfl⟩⟩

theorem list?_eq_some_iff : list? f d = some xs ↔
    ∃ items, d = .list items ∧ List.Forall₂ (fun d x => f d = some x) items xs := by
  constructor
  · intro h
    cases d with
    | list items => exact ⟨items, rfl, mapM_eq_some_iff.mp h⟩
    | _ => exact absurd h (by rintro ⟨⟩)
  · rintro ⟨items, rfl, hitems⟩
    exact mapM_eq_some_iff.mpr hitems

theorem natBelow?_eq_some_iff {limit : Nat} :
    natBelow? limit d = some n ↔ d = ofNat n ∧ n < limit := by
  constructor
  · intro h
    unfold natBelow? at h
    split at h
    · next m =>
      split at h
      · next hm =>
        obtain rfl := Option.some.inj h
        exact ⟨rfl, hm⟩
      · exact absurd h (by rintro ⟨⟩)
    · exact absurd h (by rintro ⟨⟩)
  · rintro ⟨rfl, hn⟩
    exact if_pos hn

theorem nat?_eq_some_iff : nat? d = some n ↔ d = ofNat n ∧ n < natLimit := natBelow?_eq_some_iff

theorem list?_nat?_eq_some_iff :
    list? nat? d = some ns ↔ d = .list (ns.map ofNat) ∧ ∀ n ∈ ns, n < natLimit := by
  have hitems : ∀ items : List Document, List.Forall₂ (fun d n => nat? d = some n) items ns ↔
      items = ns.map ofNat ∧ ∀ n ∈ ns, n < natLimit := fun items => by
    induction ns generalizing items with
    | nil => simp
    | cons n ns ih =>
      rw [List.forall₂_cons_right_iff, List.map_cons, List.forall_mem_cons]
      constructor
      · rintro ⟨d, rest, hd, hrest, rfl⟩
        obtain ⟨rfl, hn⟩ := nat?_eq_some_iff.mp hd
        obtain ⟨rfl, hns⟩ := (ih rest).mp hrest
        exact ⟨rfl, hn, hns⟩
      · rintro ⟨rfl, hn, hns⟩
        exact ⟨_, _, nat?_eq_some_iff.mpr ⟨rfl, hn⟩, (ih _).mpr ⟨rfl, hns⟩, rfl⟩
  rw [list?_eq_some_iff]
  constructor
  · rintro ⟨items, rfl, h⟩
    obtain ⟨rfl, hns⟩ := (hitems items).mp h
    exact ⟨rfl, hns⟩
  · rintro ⟨rfl, hns⟩
    exact ⟨_, rfl, (hitems _).mpr ⟨rfl, hns⟩⟩

/-- A document in the form of a position set whose array lists the positions `ns`. -/
def ListsPositions (d : Document) (ns : List Nat) : Prop :=
  (∃ fs, fields? ["indices"] d = some fs ∧ fs.lookup "indices" = some (.list (ns.map ofNat))) ∧
  ∀ n ∈ ns, n < natLimit

end Document

/-! ## The sets of a record -/

variable {d : Document} {s : PositionSet} {ns : List Nat}

/-- A set is read from a document exactly when the document lists its members as they stand. -/
theorem PositionSet.decode?_eq_some_iff :
    PositionSet.decode? d = some s ↔ d.ListsPositions s.members := by
  unfold PositionSet.decode? ListsPositions
  constructor
  · intro h
    obtain ⟨fs, hfs, h⟩ := Option.bind_eq_some_iff.mp h
    obtain ⟨ns, hget, h⟩ := Option.bind_eq_some_iff.mp h
    obtain rfl := Option.some.inj h
    obtain ⟨d', hlookup, hlist⟩ := Fields.get_eq_some_iff.mp hget
    obtain ⟨rfl, hns⟩ := list?_nat?_eq_some_iff.mp hlist
    exact ⟨⟨fs, hfs, hlookup⟩, hns⟩
  · rintro ⟨⟨fs, hfs, hlookup⟩, hns⟩
    have hget : fs.get "indices" (list? nat?) = some s.members :=
      Fields.get_eq_some_iff.mpr ⟨_, hlookup, list?_nat?_eq_some_iff.mpr ⟨rfl, hns⟩⟩
    exact Option.bind_eq_some_iff.mpr ⟨fs, hfs, Option.bind_eq_some_iff.mpr ⟨_, hget, rfl⟩⟩

/-- A document lists one sequence of positions. -/
theorem Document.ListsPositions.unique {ms : List Nat} (hns : d.ListsPositions ns)
    (hms : d.ListsPositions ms) : ms = ns := by
  have hread : ∀ ks, d.ListsPositions ks → PositionSet.decode? d = some ⟨ks⟩ :=
    fun _ => PositionSet.decode?_eq_some_iff.mpr
  have hsame := Option.some.inj ((hread ms hms).symm.trans (hread ns hns))
  exact congrArg PositionSet.members hsame

/-- A set that was written is read as it was. -/
theorem PositionSet.decode?_encode (h : ∀ x ∈ s.members, x < natLimit) :
    PositionSet.decode? s.encode = some s :=
  PositionSet.decode?_eq_some_iff.mpr ⟨⟨_, rfl, rfl⟩, h⟩

/-- The changed rows of a row diff ascend however a document lists them. -/
theorem RowDiff.ascending_decode? {r : RowDiff} (h : RowDiff.decode? d = some r) :
    r.changed.Ascending := by
  unfold RowDiff.decode? at h
  obtain ⟨fs, -, h⟩ := Option.bind_eq_some_iff.mp h
  obtain ⟨rows, -, h⟩ := Option.bind_eq_some_iff.mp h
  obtain ⟨moves, -, h⟩ := Option.bind_eq_some_iff.mp h
  obtain ⟨deletions, -, h⟩ := Option.bind_eq_some_iff.mp h
  obtain rfl := Option.some.inj h
  exact PositionSet.ascending_ofList rows

/-- The sets of a list diff, each with the name of its field. -/
def ListDiff.sets (l : ListDiff) : List (String × PositionSet) :=
  [("inserts", l.inserts), ("deletes", l.deletes), ("changes", l.changes)]

/-- The names of the fields of a list diff. -/
def ListDiff.fieldNames : List String :=
  ["key", "inserts", "deletes", "changes", "moves", "did_clear"]

/-- The sets of a list diff are read from the documents in its fields, -/
theorem ListDiff.decode?_sets {l : ListDiff} (h : ListDiff.decode? d = some l) :
    ∃ fs, fields? ListDiff.fieldNames d = some fs ∧ ∀ part ∈ l.sets,
      ∃ d', fs.lookup part.1 = some d' ∧ PositionSet.decode? d' = some part.2 := by
  unfold ListDiff.decode? at h
  obtain ⟨fs, hfs, h⟩ := Option.bind_eq_some_iff.mp h
  obtain ⟨key, -, h⟩ := Option.bind_eq_some_iff.mp h
  obtain ⟨inserts, hinserts, h⟩ := Option.bind_eq_some_iff.mp h
  obtain ⟨deletes, hdeletes, h⟩ := Option.bind_eq_some_iff.mp h
  obtain ⟨changes, hchanges, h⟩ := Option.bind_eq_some_iff.mp h
  obtain ⟨moves, -, h⟩ := Option.bind_eq_some_iff.mp h
  obtain ⟨cleared, -, h⟩ := Option.bind_eq_some_iff.mp h
  obtain rfl := Option.some.inj h
  refine ⟨fs, hfs, fun part hpart => ?_⟩
  simp only [ListDiff.sets, List.mem_cons, List.not_mem_nil, or_false] at hpart
  rcases hpart with rfl | rfl | rfl
  · exact Fields.get_eq_some_iff.mp hinserts
  · exact Fields.get_eq_some_iff.mp hdeletes
  · exact Fields.get_eq_some_iff.mp hchanges

/-- and the list diffs of the changes from the items of theirs. -/
theorem Changes.decode?_lists {c : Changes} (h : Changes.decode? d = some c) :
    ∃ fs items, fields? ["tables", "link_lists"] d = some fs ∧
      fs.lookup "link_lists" = some (.list items) ∧
      List.Forall₂ (fun d l => ListDiff.decode? d = some l) items c.lists := by
  unfold Changes.decode? at h
  obtain ⟨fs, hfs, h⟩ := Option.bind_eq_some_iff.mp h
  obtain ⟨tables, -, h⟩ := Option.bind_eq_some_iff.mp h
  obtain ⟨lists, hlists, h⟩ := Option.bind_eq_some_iff.mp h
  obtain rfl := Option.some.inj h
  obtain ⟨d', hlookup, hread⟩ := Fields.get_eq_some_iff.mp hlists
  obtain ⟨items, rfl, hitems⟩ := list?_eq_some_iff.mp hread
  exact ⟨fs, items, hfs, hlookup, hitems⟩

/-! ## In and out of order -/

/-- **A set that is read from a document is what the document lists.** A document is read as a set
exactly when it lists the members of that set in their order, each as often as it stands there;
the sets of a list diff and of changes are read so from the documents in their fields. The members
ascend exactly when the listed positions do. Then the set contains what is listed, and after any
operations its members ascend and no subtraction falls below zero. -/
theorem decoded_sets_as_listed (d : Document) :
    (∀ s, PositionSet.decode? d = some s ↔ d.ListsPositions s.members) ∧
    (∀ l, ListDiff.decode? d = some l →
      ∃ fs, fields? ListDiff.fieldNames d = some fs ∧ ∀ part ∈ l.sets,
        ∃ d', fs.lookup part.1 = some d' ∧ PositionSet.decode? d' = some part.2) ∧
    (∀ c, Changes.decode? d = some c →
      ∃ fs items, fields? ["tables", "link_lists"] d = some fs ∧
        fs.lookup "link_lists" = some (.list items) ∧
        List.Forall₂ (fun item l => ListDiff.decode? item = some l) items c.lists) ∧
    (∀ ns s, d.ListsPositions ns → PositionSet.decode? d = some s →
      (s.Ascending ↔ ns.Pairwise (· < ·)) ∧
      (ns.Pairwise (· < ·) → (∀ i, s.contains i = true ↔ i ∈ ns) ∧
        ∀ ops, (s.after ops).Ascending ∧ (s.after ops).Sound)) := by
  refine ⟨fun _ => PositionSet.decode?_eq_some_iff, fun _ => ListDiff.decode?_sets,
    fun _ => Changes.decode?_lists, fun ns s hlists hread => ?_⟩
  obtain rfl := hlists.unique (PositionSet.decode?_eq_some_iff.mp hread)
  refine ⟨Iff.rfl, fun hasc => ⟨fun i => PositionSet.contains_eq_true hasc, fun ops => ?_⟩⟩
  have hafter := PositionSet.ascending_after (s := s) hasc ops
  exact ⟨hafter, hafter.sound⟩

/-- A list diff with an insertion and an erase, written and read again. -/
def editedList : ListDiff := ((ListDiff.fresh ⟨0, 2, 1⟩).insert 3).erase 0

/-- The deletions of the list diff that is read are those of the one that was written: they
contain position 0, and no erase or insertion on them falls below zero. -/
theorem decoded_sets_as_listed_edited :
    (∃ fs d', fields? ListDiff.fieldNames editedList.encode = some fs ∧
      fs.lookup "deletes" = some d' ∧ PositionSet.decode? d' = some editedList.deletes) ∧
    editedList.deletes.contains 0 = true ∧
    (editedList.deletes.after [.eraseAt 2, .insertAt 0, .eraseAt 0]).Sound := by
  obtain ⟨-, hsets, -, -⟩ := decoded_sets_as_listed editedList.encode
  obtain ⟨fs, hfs, hparts⟩ := hsets editedList (by decide +kernel)
  obtain ⟨d', hlookup, hread⟩ := hparts ("deletes", editedList.deletes) (by decide +kernel)
  obtain ⟨hlists, -, -, hgood⟩ := decoded_sets_as_listed d'
  obtain ⟨hcontains, hops⟩ := (hgood _ _ ((hlists _).mp hread) hread).2 (by decide +kernel)
  exact ⟨⟨fs, d', hfs, hlookup, hread⟩, (hcontains 0).mpr (by decide +kernel), (hops _).2⟩

/-- Positions listed out of order are read out of order, and of positions listed several times
more can be below a position than there are positions. -/
theorem decode?_unordered :
    (PositionSet.decode? (.record [("indices", .list [ofNat 3, ofNat 1, ofNat 3])]) =
      some ⟨[3, 1, 3]⟩ ∧ ¬ PositionSet.Ascending ⟨[3, 1, 3]⟩) ∧
    (PositionSet.decode? (.record [("indices", .list [ofNat 0, ofNat 0, ofNat 0])]) =
      some ⟨[0, 0, 0]⟩ ∧ ¬ PositionSet.Sound ⟨[0, 0, 0]⟩) := by
  refine ⟨⟨by decide +kernel, by unfold PositionSet.Ascending; decide⟩, by decide +kernel, ?_⟩
  intro hsound
  exact absurd (hsound.unshift 1) (by decide)

end SnapshotCoordination
