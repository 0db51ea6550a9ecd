import Mathlib.Data.List.Count
import Mathlib.Data.List.Nodup
import SnapshotCoordination.Directory

/-!
# Directories as maps

No name is listed twice in a directory (`Distinct`), so its entries are what look-ups find
(`mem_entries_iff`). How often a value is there is counted by its names: putting it under one adds
one and takes one from the value that was there (`countOf_set`), taking a name out takes one from
its value (`countOf_erase`).
-/

namespace SnapshotCoordination

namespace Directory

section

variable {α : Type} {d : Directory α} {name : String} {a x : α}

/-- No name is listed twice. -/
def Distinct (d : Directory α) : Prop := (d.entries.map (·.1)).Nodup

theorem distinct_empty : (empty : Directory α).Distinct := List.nodup_nil

theorem names_place (name : String) (a : α) (entries : List (String × α)) :
    (place name a entries).map (·.1) =
      if name ∈ entries.map (·.1) then entries.map (·.1) else entries.map (·.1) ++ [name] := by
  induction entries with
  | nil => rfl
  | cons e rest ih =>
    obtain ⟨n, x⟩ := e
    rw [place]
    by_cases h : name = n
    · subst h
      simp
    · rw [if_neg h, List.map_cons, ih]
      simp only [List.map_cons, List.mem_cons, h, false_or]
      split <;> rfl

theorem Distinct.set (h : d.Distinct) (name : String) (a : α) : (d.set name a).Distinct := by
  rw [Distinct, Directory.set, names_place]
  split
  · exact h
  · next hnew =>
    rw [List.nodup_append]
    refine ⟨h, List.nodup_singleton name, fun n hn m hm heq => hnew ?_⟩
    rwa [← List.mem_singleton.mp hm, ← heq]

theorem Distinct.erase (h : d.Distinct) (name : String) : (d.erase name).Distinct :=
  List.Nodup.sublist (List.Sublist.map _ List.filter_sublist) h

theorem mem_of_lookup {entries : List (String × α)} (h : entries.lookup name = some a) :
    (name, a) ∈ entries := by
  induction entries with
  | nil => cases h
  | cons e rest ih =>
    obtain ⟨n, x⟩ := e
    by_cases hn : name = n
    · subst hn
      rw [List.lookup_cons_self] at h
      rw [Option.some.inj h]
      exact List.mem_cons_self
    · rw [List.lookup_cons, beq_false_of_ne hn] at h
      exact List.mem_cons_of_mem _ (ih h)

theorem lookup_of_mem {entries : List (String × α)} (h : (entries.map (·.1)).Nodup)
    (hmem : (name, a) ∈ entries) : entries.lookup name = some a := by
  induction entries with
  | nil => exact absurd hmem List.not_mem_nil
  | cons e rest ih =>
    obtain ⟨n, x⟩ := e
    rw [List.map_cons, List.nodup_cons] at h
    rcases List.mem_cons.mp hmem with heq | hrest
    · obtain ⟨rfl, rfl⟩ := Prod.mk.inj heq
      exact List.lookup_cons_self
    · have hne : name ≠ n := fun heq => h.1 (List.mem_map.mpr ⟨_, hrest, heq⟩)
      rw [List.lookup_cons, beq_false_of_ne hne]
      exact ih h.2 hrest

/-- The entries are what look-ups find. -/
theorem mem_entries_iff (h : d.Distinct) : (name, a) ∈ d.entries ↔ d.find? name = some a :=
  ⟨lookup_of_mem h, mem_of_lookup⟩

end

section

variable {α : Type} [DecidableEq α] {d : Directory α} {name : String} {a x : α}

/-- Under how many names a value is. -/
def countOf (d : Directory α) (x : α) : Nat := (d.entries.map (·.2)).count x

theorem countOf_pos (h : d.Distinct) : 0 < d.countOf x ↔ ∃ name, d.find? name = some x := by
  rw [countOf, List.count_pos_iff, List.mem_map]
  constructor
  · rintro ⟨⟨name, y⟩, he, rfl⟩
    exact ⟨name, (mem_entries_iff h).mp he⟩
  · rintro ⟨name, hfound⟩
    exact ⟨(name, x), (mem_entries_iff h).mpr hfound, rfl⟩

/-- A value that is put under a name takes the place of the one that was there. -/
theorem countOf_set (d : Directory α) (name : String) (a x : α) :
    (d.set name a).countOf x + (if d.find? name = some x then 1 else 0) =
      d.countOf x + if a = x then 1 else 0 := by
  obtain ⟨entries⟩ := d
  unfold countOf find? set
  dsimp only
  induction entries with
  | nil => simp [place, List.count_singleton]
  | cons e rest ih =>
    obtain ⟨n, y⟩ := e
    rw [place]
    by_cases h : name = n
    · subst h
      simp only [if_true, List.map_cons, List.count_cons, List.lookup_cons_self, beq_iff_eq,
        Option.some.injEq]
      omega
    · rw [if_neg h, List.lookup_cons, beq_false_of_ne h]
      simp only [List.map_cons, List.count_cons] at ih ⊢
      omega

/-- A name that is taken out takes its value with it. -/
theorem countOf_erase (h : d.Distinct) (name : String) (x : α) :
    (d.erase name).countOf x + (if d.find? name = some x then 1 else 0) = d.countOf x := by
  obtain ⟨entries⟩ := d
  unfold countOf find? erase
  unfold Distinct at h
  dsimp only at h ⊢
  induction entries with
  | nil => rfl
  | cons e rest ih =>
    obtain ⟨n, y⟩ := e
    rw [List.map_cons, List.nodup_cons] at h
    have ih := ih h.2
    by_cases hn : name = n
    · subst hn
      -- the name is not listed again
      have hnone : rest.lookup name = none := by
        rw [Option.eq_none_iff_forall_ne_some]
        exact fun a ha => h.1 (List.mem_map.mpr ⟨_, mem_of_lookup ha, rfl⟩)
      rw [hnone] at ih
      simp only [List.filter_cons, bne_self_eq_false, Bool.false_eq_true, if_false,
        List.lookup_cons_self, Option.some.injEq, List.map_cons, List.count_cons, beq_iff_eq,
        reduceCtorEq] at ih ⊢
      omega
    · have hkept : (n != name) = true := bne_iff_ne.mpr (Ne.symm hn)
      rw [List.lookup_cons, beq_false_of_ne hn]
      simp only [List.filter_cons, hkept, if_true, List.map_cons, List.count_cons] at ih ⊢
      omega

end

end Directory

end SnapshotCoordination
