import SnapshotCoordination.Proofs.Lists.Moving
import SnapshotCoordination.Proofs.Lists.Operating

/-!
# Checked operations

The operations on position sets subtract numbers that have no negatives, and they find their place
among the members by a search that looks at few of them. A *checked* operation does the same, but
gives none if a subtraction would fall below zero or a search is made among members that do not
ascend.

* **position sets** — no checked operation gives none on a set whose members ascend
  (`Operation.perform?_eq`), and a search finds the one place there is (`isCut_iff`);
* **list diffs** — nor does one on a diff whose three sets ascend (`Rearrangement.record?_eq`);
* **`operations_exact`** — after any operations, what each one does to a set, and that the checked
  run of all of them gives what the run gives.
-/

namespace SnapshotCoordination

/-- The difference, if it is not below zero. -/
def minus? (a b : Nat) : Option Nat := if b ≤ a then some (a - b) else none

theorem mapM_eq_some_map {α β : Type} {f : α → Option β} {g : α → β} {xs : List α}
    (h : ∀ x ∈ xs, f x = some (g x)) : xs.mapM f = some (xs.map g) := by
  induction xs with
  | nil => rfl
  | cons x xs ih =>
    have hx := List.forall_mem_cons.mp h
    rw [List.mapM_cons, hx.1, ih hx.2]
    rfl

/-- Steps that check something do what the plain ones do, as long as an invariant holds. -/
theorem foldlM_eq_some_foldl {σ ι : Type} {f : σ → ι → Option σ} {g : σ → ι → σ} {P : σ → Prop}
    (hstep : ∀ s i, P s → f s i = some (g s i)) (hkeep : ∀ s i, P s → P (g s i)) {s : σ} (h : P s)
    (xs : List ι) : xs.foldlM f s = some (xs.foldl g s) := by
  induction xs generalizing s with
  | nil => rfl
  | cons i xs ih =>
    rw [List.foldlM_cons, hstep s i h]
    exact ih (hkeep s i h)

namespace PositionSet

instance (s : PositionSet) : Decidable s.Ascending :=
  inferInstanceAs (Decidable (s.members.Pairwise (· < ·)))

variable {s : PositionSet} {i n p x : Nat}

/-! ## Searches -/

/-- Whether a search for `i` may end at place `p`: the members in front of it are below `i`, those
from there on are not. -/
def IsCut (s : PositionSet) (i p : Nat) : Prop :=
  p ≤ s.size ∧ (∀ x ∈ s.members.take p, x < i) ∧ ∀ x ∈ s.members.drop p, i ≤ x

/-- Among members that ascend there is one place where a search can end. -/
theorem isCut_iff (h : s.Ascending) : s.IsCut i p ↔ p = (s.below i).length := by
  constructor
  · rintro ⟨hp, hfront, hback⟩
    have hnone : (s.members.drop p).takeWhile (· < i) = [] :=
      List.takeWhile_eq_nil_iff.mpr fun hpos hlt =>
        Nat.not_le.mpr (of_decide_eq_true hlt) (hback _ (List.getElem_mem hpos))
    have hbelow : s.below i = s.members.take p := by
      conv_lhs => rw [below, ← List.take_append_drop p s.members]
      rw [List.takeWhile_append_of_pos fun x hx => decide_eq_true (hfront x hx), hnone,
        List.append_nil]
    rw [hbelow, List.length_take_of_le hp]
  · rintro rfl
    have hsplit := below_append_fromOn s i
    refine ⟨?_, fun x hx => ?_, fun x hx => ?_⟩
    · rw [size, ← hsplit, List.length_append]
      omega
    · rw [← hsplit, List.take_left] at hx
      exact ((mem_below h).mp hx).2
    · rw [← hsplit, List.drop_left] at hx
      exact ((mem_fromOn h).mp hx).2

/-- The members below a position and those from it on, if a search can tell them apart. -/
def cut? (s : PositionSet) (i : Nat) : Option (List Nat × List Nat) :=
  if s.Ascending then some (s.below i, s.fromOn i) else none

/-! ## Position sets -/

def contains? (s : PositionSet) (i : Nat) : Option Bool := do
  let (_, back) ← s.cut? i
  return back.head? == some i

def add? (s : PositionSet) (i : Nat) : Option PositionSet := do
  let (front, back) ← s.cut? i
  return if back.head? == some i then s else ⟨front ++ i :: back⟩

def addShifted? (s : PositionSet) (n : Nat) : Option PositionSet := s.add? (s.shift n)

def unshift? (s : PositionSet) (i : Nat) : Option Nat := do
  let (front, _) ← s.cut? i
  minus? i front.length

def shiftForInsertAt? (s : PositionSet) (i : Nat) : Option PositionSet := do
  let (front, back) ← s.cut? i
  return ⟨front ++ back.map (· + 1)⟩

def insertAt? (s : PositionSet) (i : Nat) : Option PositionSet := do
  (← s.shiftForInsertAt? i).add? i

def eraseAt? (s : PositionSet) (i : Nat) : Option PositionSet := do
  let (front, back) ← s.cut? i
  let later := if back.head? == some i then back.tail else back
  return ⟨front ++ (← later.mapM (minus? · 1))⟩

def Operation.perform? : Operation → PositionSet → Option PositionSet
  | .add i, s => s.add? i
  | .addShifted n, s => s.addShifted? n
  | .shiftForInsertAt i, s => s.shiftForInsertAt? i
  | .insertAt i, s => s.insertAt? i
  | .eraseAt i, s => s.eraseAt? i
  | .clear, _ => some .empty

/-- A set after some checked operations. -/
def after? (s : PositionSet) (ops : List Operation) : Option PositionSet :=
  ops.foldlM (fun s op => op.perform? s) s

theorem cut?_eq (h : s.Ascending) (i : Nat) : s.cut? i = some (s.below i, s.fromOn i) := if_pos h

theorem contains?_eq (h : s.Ascending) (i : Nat) : s.contains? i = some (s.contains i) := by
  rw [contains?, cut?_eq h]
  rfl

theorem add?_eq (h : s.Ascending) (i : Nat) : s.add? i = some (s.add i) := by
  rw [add?, cut?_eq h]
  rfl

theorem addShifted?_eq (h : s.Ascending) (n : Nat) : s.addShifted? n = some (s.addShifted n) :=
  add?_eq h (s.shift n)

theorem unshift?_eq (h : s.Ascending) (i : Nat) : s.unshift? i = some (s.unshift i) := by
  rw [unshift?, cut?_eq h]
  exact if_pos (h.sound.unshift i)

theorem shiftForInsertAt?_eq (h : s.Ascending) (i : Nat) :
    s.shiftForInsertAt? i = some (s.shiftForInsertAt i) := by
  rw [shiftForInsertAt?, cut?_eq h]
  rfl

theorem insertAt?_eq (h : s.Ascending) (i : Nat) : s.insertAt? i = some (s.insertAt i) := by
  rw [insertAt?, shiftForInsertAt?_eq h]
  exact add?_eq (ascending_shiftForInsertAt h) i

theorem eraseAt?_eq (h : s.Ascending) (i : Nat) : s.eraseAt? i = some (s.eraseAt i) := by
  have hlater : (s.later i).mapM (minus? · 1) = some ((s.later i).map (· - 1)) :=
    mapM_eq_some_map fun x hx => if_pos (h.sound.eraseAt i x hx)
  unfold later contains at hlater
  rw [eraseAt?, cut?_eq h]
  show (do return ⟨s.below i ++ (← _)⟩ : Option PositionSet) = _
  rw [hlater, eraseAt_eq]
  rfl

/-- On a set whose members ascend, no subtraction falls below zero and every search is made among
members that ascend. -/
theorem Operation.perform?_eq (h : s.Ascending) (op : Operation) :
    op.perform? s = some (op.perform s) := by
  cases op with
  | add i => exact add?_eq h i
  | addShifted n => exact addShifted?_eq h n
  | shiftForInsertAt i => exact shiftForInsertAt?_eq h i
  | insertAt i => exact insertAt?_eq h i
  | eraseAt i => exact eraseAt?_eq h i
  | clear => rfl

theorem after?_eq (h : s.Ascending) (ops : List Operation) : s.after? ops = some (s.after ops) :=
  foldlM_eq_some_foldl (P := Ascending) (fun _ op hs => op.perform?_eq hs)
    (fun _ op hs => ascending_perform hs op) h ops

/-! ## Positions as images -/

/-- Where the element at `y` is after one was inserted at `i`. -/
def upFrom (i y : Nat) : Nat := if i ≤ y then y + 1 else y

/-- Where the element at `y` is after another one was erased at `i`. -/
def downBehind (i y : Nat) : Nat := if i < y then y - 1 else y

theorem mem_shiftForInsertAt_iff_upFrom (h : s.Ascending) :
    x ∈ s.shiftForInsertAt i ↔ ∃ y ∈ s, upFrom i y = x := by
  rw [mem_shiftForInsertAt h]
  unfold upFrom
  constructor
  · rintro (⟨hlt, hx⟩ | ⟨hlt, hx⟩)
    · exact ⟨x, hx, if_neg (by omega)⟩
    · exact ⟨x - 1, hx, by rw [if_pos (by omega)]; omega⟩
  · rintro ⟨y, hy, rfl⟩
    split
    · exact .inr ⟨by omega, by simpa using hy⟩
    · exact .inl ⟨by omega, hy⟩

theorem mem_eraseAt_iff_downBehind (h : s.Ascending) :
    x ∈ s.eraseAt i ↔ ∃ y ∈ s, y ≠ i ∧ downBehind i y = x := by
  rw [mem_eraseAt h]
  unfold downBehind
  constructor
  · rintro (⟨hlt, hx⟩ | ⟨hle, hx⟩)
    · exact ⟨x, hx, by omega, if_neg (by omega)⟩
    · exact ⟨x + 1, hx, by omega, by rw [if_pos (by omega)]; omega⟩
  · rintro ⟨y, hy, hne, rfl⟩
    split
    · exact .inr ⟨by omega, by rwa [Nat.sub_add_cancel (by omega)]⟩
    · exact .inl ⟨by omega, hy⟩

end PositionSet

/-! ## List diffs -/

namespace ListDiff

def set? (d : ListDiff) (i : Nat) : Option ListDiff := do
  return { d with changes := ← d.changes.add? i }

def insert? (d : ListDiff) (i : Nat) : Option ListDiff := do
  return { d with
    changes := ← d.changes.shiftForInsertAt? i
    inserts := ← d.inserts.insertAt? i
    moves := d.moves.map fun m => if i ≤ m.target then { m with target := m.target + 1 } else m }

/-- A move after the element at `i` was erased, which is not the one it moved. -/
def retarget? (i : Nat) (m : ListMove) : Option ListMove :=
  if i < m.target then (minus? m.target 1).map fun target => { m with target } else some m

def erase? (d : ListDiff) (i : Nat) : Option ListDiff := do
  let changes ← d.changes.eraseAt? i
  let inserts ← d.inserts.eraseAt? i
  let deletes ← d.deletes.addShifted? (← inserts.unshift? i)
  let moves ← (d.moves.filter fun m => m.target != i).mapM (retarget? i)
  return { d with changes, inserts, deletes, moves }

def swap? (d : ListDiff) (i j : Nat) : Option ListDiff := do (← d.set? i).set? j

def originOf? (d : ListDiff) (i : Nat) : Option Nat := do
  d.deletes.unshift? (← d.inserts.unshift? i)

/-- The members of a set after an element is taken out and put back at one position. -/
def replaced? (forward : Bool) (s : PositionSet) (o : Nat) : Option PositionSet :=
  if forward then do (← s.eraseAt? o).shiftForInsertAt? o
  else do (← s.shiftForInsertAt? o).eraseAt? o

def move? (d : ListDiff) (i j : Nat) : Option ListDiff := do
  let origin ← d.originOf? i
  let changes ← replaced? (i < j) d.changes origin
  let inserts ← replaced? (i < j) d.inserts origin
  let deletes ← d.deletes.add? origin
  return { d with changes, inserts, deletes, moves := d.moves ++ [⟨origin, j⟩] }

variable {d : ListDiff} {s : PositionSet}

theorem set?_eq (h : d.Ordered) (i : Nat) : d.set? i = some (d.set i) := by
  rw [set?, PositionSet.add?_eq h.changesAscend]
  rfl

theorem insert?_eq (h : d.Ordered) (i : Nat) : d.insert? i = some (d.insert i) := by
  rw [insert?, PositionSet.shiftForInsertAt?_eq h.changesAscend,
    PositionSet.insertAt?_eq h.insertsAscend]
  rfl

/-- A target behind the erased position is not zero. -/
theorem retarget?_eq (i : Nat) (m : ListMove) :
    retarget? i m = some (if i < m.target then { m with target := m.target - 1 } else m) := by
  unfold retarget?
  split
  · next hlt => rw [minus?, if_pos (Nat.one_le_of_lt hlt), Option.map_some]
  · rfl

theorem erase?_eq (h : d.Ordered) (i : Nat) : d.erase? i = some (d.erase i) := by
  have hinserts := PositionSet.ascending_eraseAt (i := i) h.insertsAscend
  rw [erase?, PositionSet.eraseAt?_eq h.changesAscend, PositionSet.eraseAt?_eq h.insertsAscend,
    mapM_eq_some_map fun m _ => retarget?_eq i m]
  simp only [Option.bind_eq_bind, Option.bind_some, PositionSet.unshift?_eq hinserts,
    PositionSet.addShifted?_eq h.deletesAscend]
  rfl

theorem swap?_eq (h : d.Ordered) (i j : Nat) : d.swap? i j = some (d.swap i j) := by
  rw [swap?, set?_eq h]
  exact set?_eq (h.record (.set i ())) j

theorem originOf?_eq (h : d.Ordered) (i : Nat) : d.originOf? i = some (d.originOf i) := by
  rw [originOf?, PositionSet.unshift?_eq h.insertsAscend]
  exact PositionSet.unshift?_eq h.deletesAscend _

theorem replaced?_eq (h : s.Ascending) (forward : Bool) (o : Nat) :
    replaced? forward s o = some (if forward then (s.eraseAt o).shiftForInsertAt o
      else (s.shiftForInsertAt o).eraseAt o) := by
  cases forward with
  | true =>
    rw [replaced?, if_pos rfl, if_pos rfl, PositionSet.eraseAt?_eq h]
    exact PositionSet.shiftForInsertAt?_eq (PositionSet.ascending_eraseAt h) o
  | false =>
    rw [replaced?, if_neg Bool.false_ne_true, if_neg Bool.false_ne_true,
      PositionSet.shiftForInsertAt?_eq h]
    exact PositionSet.eraseAt?_eq (PositionSet.ascending_shiftForInsertAt h) o

theorem move?_eq (h : d.Ordered) (i j : Nat) : d.move? i j = some (d.move i j) := by
  rw [move?, originOf?_eq h]
  simp only [Option.bind_eq_bind, Option.bind_some, replaced?_eq h.changesAscend,
    replaced?_eq h.insertsAscend, PositionSet.add?_eq h.deletesAscend, decide_eq_true_eq]
  rfl

end ListDiff

namespace Rearrangement

variable {α : Type} {d : ListDiff}

/-- How an operation is recorded. -/
def record : Rearrangement α → ListDiff → ListDiff
  | .edit e, d => e.record d
  | .move i j, d => d.move i j

/-- How an operation is recorded, checked. -/
def record? : Rearrangement α → ListDiff → Option ListDiff
  | .edit (.set i _), d => d.set? i
  | .edit (.insert i _), d => d.insert? i
  | .edit (.erase i), d => d.erase? i
  | .edit (.swap i j), d => d.swap? i j
  | .edit .clear, d => some d.clear
  | .move i j, d => d.move? i j

theorem ordered_record (h : d.Ordered) (op : Rearrangement α) : (op.record d).Ordered := by
  cases op with
  | edit e => exact h.record e
  | move i j => exact h.move i j

/-- On a diff whose sets ascend, no subtraction falls below zero and every search is made among
members that ascend. -/
theorem record?_eq (h : d.Ordered) (op : Rearrangement α) : op.record? d = some (op.record d) := by
  cases op with
  | edit e =>
    cases e with
    | set i _ => exact ListDiff.set?_eq h i
    | insert i _ => exact ListDiff.insert?_eq h i
    | erase i => exact ListDiff.erase?_eq h i
    | swap i j => exact ListDiff.swap?_eq h i j
    | clear => rfl
  | move i j => exact ListDiff.move?_eq h i j

theorem foldlM_record?_eq (h : d.Ordered) (ops : List (Rearrangement α)) :
    ops.foldlM (fun d op => op.record? d) d = some (ops.foldl (fun d op => op.record d) d) :=
  foldlM_eq_some_foldl (P := ListDiff.Ordered) (fun _ op hd => op.record?_eq hd)
    (fun _ op hd => op.ordered_record hd) h ops

end Rearrangement

/-! ## After any operations -/

/-- **Operations on position sets are exact.** After any operations on the empty set, its members
ascend, it contains its members, and a search finds the one place there is. To make room moves every
member from the position on up by one, an insertion also takes the position in, and an erase takes
it out and moves every member behind it down by one. No subtraction ever falls below zero, neither
on the way nor in any operation that follows; the same holds for any operations on a list diff. -/
theorem operations_exact {α : Type} :
    (∀ ops : List PositionSet.Operation,
      let s := PositionSet.empty.after ops
      s.Ascending ∧
      (∀ i, s.contains i = true ↔ i ∈ s) ∧
      (∀ i p, s.IsCut i p ↔ p = (s.below i).length) ∧
      (∀ i x, x ∈ s.shiftForInsertAt i ↔ ∃ y ∈ s, PositionSet.upFrom i y = x) ∧
      (∀ i x, x ∈ s.insertAt i ↔ x = i ∨ ∃ y ∈ s, PositionSet.upFrom i y = x) ∧
      (∀ i x, x ∈ s.eraseAt i ↔ ∃ y ∈ s, y ≠ i ∧ PositionSet.downBehind i y = x) ∧
      PositionSet.empty.after? ops = some s ∧
      (∀ i, s.contains? i = some (s.contains i)) ∧
      (∀ i, s.unshift? i = some (s.unshift i)) ∧
      ∀ op : PositionSet.Operation, op.perform? s = some (op.perform s)) ∧
    (∀ (key : ListKey) (ops : List (Rearrangement α)),
      ops.foldlM (fun d op => op.record? d) (.fresh key) =
        some (ops.foldl (fun d op => op.record d) (.fresh key))) := by
  refine ⟨fun ops => ?_, fun key ops => Rearrangement.foldlM_record?_eq (.fresh key) ops⟩
  intro s
  have hasc : s.Ascending := PositionSet.ascending_after PositionSet.ascending_empty ops
  refine ⟨hasc, fun _ => PositionSet.contains_eq_true hasc, fun _ _ => PositionSet.isCut_iff hasc,
    fun _ _ => PositionSet.mem_shiftForInsertAt_iff_upFrom hasc, fun i x => ?_,
    fun _ _ => PositionSet.mem_eraseAt_iff_downBehind hasc,
    PositionSet.after?_eq PositionSet.ascending_empty ops, PositionSet.contains?_eq hasc,
    PositionSet.unshift?_eq hasc, PositionSet.Operation.perform?_eq hasc⟩
  rw [PositionSet.insertAt, PositionSet.mem_add (PositionSet.ascending_shiftForInsertAt hasc),
    PositionSet.mem_shiftForInsertAt_iff_upFrom hasc]

end SnapshotCoordination
