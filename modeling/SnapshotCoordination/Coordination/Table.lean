/-!
# Identity tables

A `Table` holds every object of a kind that was ever made. An object's identity is its place,
and identities are never used again. A look-up that finds nothing gives the default object, so
a change at one identity is seen there and nowhere else, with no side condition (`get_modify`,
`get_push`).
-/

namespace SnapshotCoordination

/-- Objects by identity. -/
structure Table (α : Type) where
  rows : List α
  deriving DecidableEq

namespace Table

variable {α : Type}

def empty : Table α := ⟨[]⟩

instance : Inhabited (Table α) := ⟨empty⟩

/-- How many objects were made; the identity of the next one. -/
def size (t : Table α) : Nat := t.rows.length

/-- Add an object, under the next identity. -/
def push (t : Table α) (a : α) : Table α := ⟨t.rows ++ [a]⟩

variable [Inhabited α]

/-- The object under an identity. -/
def get (t : Table α) (i : Nat) : α := t.rows.getD i default

/-- Change the object at a place, default objects filling the way to it if there is none. -/
def modifyAt : Nat → (α → α) → List α → List α
  | 0, f, [] => [f default]
  | 0, f, a :: as => f a :: as
  | i + 1, f, [] => default :: modifyAt i f []
  | i + 1, f, a :: as => a :: modifyAt i f as

/-- Change the object under an identity. -/
def modify (t : Table α) (i : Nat) (f : α → α) : Table α := ⟨modifyAt i f t.rows⟩

theorem getD_modifyAt (i j : Nat) (f : α → α) (as : List α) :
    (modifyAt i f as).getD j default =
      if j = i then f (as.getD i default) else as.getD j default := by
  induction i generalizing as j with
  | zero => cases as <;> cases j <;> simp [modifyAt]
  | succ i ih =>
    cases as with
    | nil =>
      cases j with
      | zero => simp [modifyAt]
      | succ j => simpa [modifyAt] using ih j []
    | cons a as =>
      cases j with
      | zero => simp [modifyAt]
      | succ j => simpa [modifyAt] using ih j as

/-- What is seen after a change. -/
theorem get_modify (t : Table α) (i j : Nat) (f : α → α) :
    (t.modify i f).get j = if j = i then f (t.get i) else t.get j :=
  getD_modifyAt i j f t.rows

/-- What is seen after an object is added. -/
theorem get_push (t : Table α) (a : α) (j : Nat) :
    (t.push a).get j = if j = t.size then a else t.get j := by
  simp only [get, push, size, List.getD_eq_getElem?_getD]
  by_cases h : j = t.rows.length
  · subst h; simp
  · rw [if_neg h]
    by_cases hlt : j < t.rows.length
    · rw [List.getElem?_append_left hlt]
    · have h₁ : t.rows.length < j := by omega
      rw [List.getElem?_eq_none (by simp; omega), List.getElem?_eq_none (by omega)]

end Table

end SnapshotCoordination
