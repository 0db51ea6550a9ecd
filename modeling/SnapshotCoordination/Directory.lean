/-!
# Directories

A `Directory` maps names to values. Its entries are listed in the order in which their names
were first set; a look-up after a change sees the change and nothing else
(`find?_set`, `find?_erase`).
-/

namespace SnapshotCoordination

/-- Values by name. -/
structure Directory (α : Type) where
  entries : List (String × α)
  deriving DecidableEq

namespace Directory

variable {α : Type}

/-- The directory without entries. -/
def empty : Directory α := ⟨[]⟩

instance : Inhabited (Directory α) := ⟨empty⟩

/-- The value under a name. -/
def find? (d : Directory α) (name : String) : Option α := d.entries.lookup name

/-- Whether a name has a value. -/
def has (d : Directory α) (name : String) : Bool := (d.find? name).isSome

/-- Put a value under a name in a list of entries. -/
def place (name : String) (a : α) : List (String × α) → List (String × α)
  | [] => [(name, a)]
  | (n, x) :: rest => if name = n then (n, a) :: rest else (n, x) :: place name a rest

/-- Put a value under a name, over the one that was there. -/
def set (d : Directory α) (name : String) (a : α) : Directory α := ⟨place name a d.entries⟩

/-- Take a name out. -/
def erase (d : Directory α) (name : String) : Directory α :=
  ⟨d.entries.filter fun e => e.1 != name⟩

/-- Keep the entries whose values pass a test. -/
def filter (d : Directory α) (keep : α → Bool) : Directory α := ⟨d.entries.filter fun e => keep e.2⟩

def size (d : Directory α) : Nat := d.entries.length

theorem lookup_place (name k : String) (a : α) (entries : List (String × α)) :
    (place name a entries).lookup k = if k = name then some a else entries.lookup k := by
  induction entries with
  | nil =>
    by_cases h : k = name
    · simp [place, h]
    · have hb : (k == name) = false := by simpa using h
      simp [place, List.lookup_cons, h, hb]
  | cons e rest ih =>
    obtain ⟨n, x⟩ := e
    by_cases hn : name = n
    · subst hn
      by_cases h : k = name
      · simp [place, h]
      · have hb : (k == name) = false := by simpa using h
        simp [place, List.lookup_cons, h, hb]
    · by_cases h : k = n
      · subst h; simp [place, hn, Ne.symm hn]
      · have hb : (k == n) = false := by simpa using h
        simp [place, List.lookup_cons, hn, hb, ih]

/-- What has a name of its own is placed last. -/
theorem place_of_fresh {name : String} {a : α} {entries : List (String × α)}
    (h : entries.lookup name = none) : place name a entries = entries ++ [(name, a)] := by
  induction entries with
  | nil => rfl
  | cons e rest ih =>
    have hfresh := List.lookup_eq_none_iff.mp h
    have hname : name ≠ e.1 := by simpa using hfresh e List.mem_cons_self
    have hrest : rest.lookup name = none :=
      List.lookup_eq_none_iff.mpr fun p hp => hfresh p (List.mem_cons_of_mem e hp)
    unfold place
    rw [if_neg hname, ih hrest]
    rfl

/-- What was not placed among the entries was there before. -/
theorem mem_place {name : String} {a : α} {e : String × α} {entries : List (String × α)}
    (h : e ∈ place name a entries) : e = (name, a) ∨ e ∈ entries := by
  induction entries with
  | nil => exact .inl (List.mem_singleton.mp h)
  | cons x rest ih =>
    unfold place at h
    split at h
    · next hname =>
      rcases List.mem_cons.mp h with hfirst | hrest
      · exact .inl (by rw [hfirst, hname])
      · exact .inr (List.mem_cons_of_mem x hrest)
    · rcases List.mem_cons.mp h with hfirst | hrest
      · exact .inr (hfirst ▸ List.mem_cons_self)
      · exact (ih hrest).imp_right (List.mem_cons_of_mem x)

theorem mem_entries_set {name : String} {a : α} {e : String × α} {d : Directory α}
    (h : e ∈ (d.set name a).entries) : e = (name, a) ∨ e ∈ d.entries := mem_place h

/-- A look-up after a value is put under a name. -/
theorem find?_set (d : Directory α) (name k : String) (a : α) :
    (d.set name a).find? k = if k = name then some a else d.find? k :=
  lookup_place name k a d.entries

theorem lookup_filter_ne (name k : String) (entries : List (String × α)) :
    (entries.filter fun e => e.1 != name).lookup k =
      if k = name then none else entries.lookup k := by
  induction entries with
  | nil => simp
  | cons e rest ih =>
    obtain ⟨n, x⟩ := e
    by_cases hn : n = name
    · subst hn
      by_cases h : k = n
      · simp [h] at ih ⊢; exact ih
      · have hb : (k == n) = false := by simpa using h
        simp [List.lookup_cons, hb, ih, h]
    · have hne : (n != name) = true := by simpa using hn
      by_cases h : k = n
      · subst h; simp [hn]
      · have hb : (k == n) = false := by simpa using h
        simp [List.lookup_cons, hne, hb, ih]

/-- A look-up after a name is taken out. -/
theorem find?_erase (d : Directory α) (name k : String) :
    (d.erase name).find? k = if k = name then none else d.find? k :=
  lookup_filter_ne name k d.entries

end Directory

end SnapshotCoordination
