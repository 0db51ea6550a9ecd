import Mathlib.Data.List.Sort
import Mathlib.Data.List.TakeWhile
import SnapshotCoordination.PositionSet

/-!
# Position sets as sets

A `PositionSet` whose members ascend is determined by what it contains. This module says what
each operation does to the members, for any set and any position:

* **membership** — `mem_add`, `mem_shiftForInsertAt`, `mem_insertAt`, `mem_eraseAt`, each beside
  the lemma that the operation keeps the members ascending;
* **coordinates** — `unshift` counts the positions below that are not members
  (`unshift_eq_length`), it grows along the positions that are not members
  (`unshift_lt_unshift`), and `shift` inverts it there (`shift_unshift`); a new member takes one
  position from those behind it (`unshift_add`).
-/

namespace SnapshotCoordination

/-- The positions of a list, cut at one of them. -/
theorem range_eq_append_cons {k n : Nat} (h : k < n) :
    List.range n = List.range k ++ k :: List.range' (k + 1) (n - k - 1) := by
  have happend := List.range'_append_1 (s := 0) (m := k) (n := n - k - 1 + 1)
  rw [Nat.zero_add, List.range'_succ, show k + (n - k - 1 + 1) = n by omega] at happend
  rw [List.range_eq_range', List.range_eq_range', happend]

namespace PositionSet

instance : Membership Nat PositionSet := ⟨fun s i => i ∈ s.members⟩

theorem mem_def {s : PositionSet} {i : Nat} : i ∈ s ↔ i ∈ s.members := Iff.rfl

instance (s : PositionSet) (i : Nat) : Decidable (i ∈ s) :=
  inferInstanceAs (Decidable (i ∈ s.members))

/-- The members are listed from the least to the greatest, each once. -/
def Ascending (s : PositionSet) : Prop := s.members.Pairwise (· < ·)

theorem ascending_empty : empty.Ascending := List.Pairwise.nil

theorem notMem_empty (i : Nat) : i ∉ empty := List.not_mem_nil

/-! ## The two parts at a position -/

variable {s : PositionSet} {i x : Nat}

/-- An ascending list is cut at a position by its first member that is not below it. -/
theorem mem_takeWhile_lt {xs : List Nat} (h : xs.Pairwise (· < ·)) :
    x ∈ xs.takeWhile (· < i) ↔ x ∈ xs ∧ x < i := by
  induction xs with
  | nil => simp
  | cons a rest ih =>
    have hrest := List.pairwise_cons.mp h
    by_cases ha : a < i
    · simp only [List.takeWhile_cons, ha, decide_true, if_true, List.mem_cons, ih hrest.2]
      constructor
      · rintro (rfl | ⟨hx, hlt⟩)
        · exact ⟨.inl rfl, ha⟩
        · exact ⟨.inr hx, hlt⟩
      · rintro ⟨rfl | hx, hlt⟩
        · exact .inl rfl
        · exact .inr ⟨hx, hlt⟩
    · -- every member is at least `a`, so none is below `i`
      simp only [List.takeWhile_cons, ha, decide_false, List.mem_cons]
      constructor
      · intro hx; exact absurd hx (by simp)
      · rintro ⟨rfl | hx, hlt⟩
        · exact absurd hlt ha
        · have := hrest.1 x hx; omega

theorem mem_dropWhile_lt {xs : List Nat} (h : xs.Pairwise (· < ·)) :
    x ∈ xs.dropWhile (· < i) ↔ x ∈ xs ∧ i ≤ x := by
  induction xs with
  | nil => simp
  | cons a rest ih =>
    have hrest := List.pairwise_cons.mp h
    by_cases ha : a < i
    · simp only [List.dropWhile_cons, ha, decide_true, if_true, List.mem_cons, ih hrest.2]
      constructor
      · rintro ⟨hx, hle⟩; exact ⟨.inr hx, hle⟩
      · rintro ⟨rfl | hx, hle⟩
        · omega
        · exact ⟨hx, hle⟩
    · simp only [List.dropWhile_cons, ha, decide_false, Bool.false_eq_true, if_false,
        List.mem_cons]
      constructor
      · rintro (rfl | hx)
        · exact ⟨.inl rfl, by omega⟩
        · have := hrest.1 x hx; exact ⟨.inr hx, by omega⟩
      · rintro ⟨hx, -⟩; exact hx

theorem mem_below (h : s.Ascending) : x ∈ s.below i ↔ x ∈ s ∧ x < i := mem_takeWhile_lt h

theorem mem_fromOn (h : s.Ascending) : x ∈ s.fromOn i ↔ x ∈ s ∧ i ≤ x := mem_dropWhile_lt h

theorem ascending_below (h : s.Ascending) : (s.below i).Pairwise (· < ·) :=
  List.Pairwise.sublist (List.takeWhile_sublist _) h

theorem ascending_fromOn (h : s.Ascending) : (s.fromOn i).Pairwise (· < ·) :=
  List.Pairwise.sublist (List.dropWhile_sublist _) h

/-- If `i` is contained, it is the first of the members from `i` on. -/
theorem contains_eq_true (h : s.Ascending) : s.contains i = true ↔ i ∈ s := by
  have hmem : ∀ x, x ∈ s.fromOn i ↔ x ∈ s ∧ i ≤ x := fun x => mem_fromOn h
  have hasc := ascending_fromOn (i := i) h
  unfold contains
  cases hf : s.fromOn i with
  | nil =>
    rw [hf] at hmem
    have hnot : i ∉ s := fun hi => by simpa using (hmem i).mpr ⟨hi, Nat.le_refl i⟩
    simpa using hnot
  | cons a rest =>
    rw [hf] at hmem hasc
    have ha := (hmem a).mp List.mem_cons_self
    constructor
    · intro heq
      have : a = i := by simpa using heq
      exact this ▸ ha.1
    · intro hi
      have hcases := (hmem i).mpr ⟨hi, Nat.le_refl i⟩
      have : a = i := by
        rcases List.mem_cons.mp hcases with heq | hrest
        · exact heq.symm
        · have := (List.pairwise_cons.mp hasc).1 i hrest; omega
      simp [this]

/-! ## Membership after each operation -/

theorem mem_add (h : s.Ascending) : x ∈ s.add i ↔ x = i ∨ x ∈ s := by
  unfold add
  split
  · next hi =>
    have hi := (contains_eq_true h).mp hi
    constructor
    · exact .inr
    · rintro (rfl | hx)
      · exact hi
      · exact hx
  · have hsplit : x ∈ s ↔ x ∈ s.below i ∨ x ∈ s.fromOn i := by
      rw [mem_def, ← below_append_fromOn s i, List.mem_append]
    rw [hsplit, mem_def, List.mem_append, List.mem_cons]
    exact or_left_comm

theorem ascending_add (h : s.Ascending) : (s.add i).Ascending := by
  unfold add
  split
  · exact h
  · next hi =>
    have hi : i ∉ s := fun hmem => hi ((contains_eq_true h).mpr hmem)
    refine List.pairwise_append.mpr ⟨ascending_below h, ?_, ?_⟩
    · refine List.pairwise_cons.mpr ⟨fun y hy => ?_, ascending_fromOn h⟩
      have hy := (mem_fromOn h).mp hy
      have : y ≠ i := fun heq => hi (heq ▸ hy.1)
      omega
    · intro y hy z hz
      have hy := (mem_below h).mp hy
      rcases List.mem_cons.mp hz with rfl | hz
      · exact hy.2
      · have := ((mem_fromOn h).mp hz).2; omega

theorem mem_shiftForInsertAt (h : s.Ascending) :
    x ∈ s.shiftForInsertAt i ↔ (x < i ∧ x ∈ s) ∨ (i < x ∧ x - 1 ∈ s) := by
  have hstep : x ∈ s.shiftForInsertAt i ↔ x ∈ s.below i ∨ ∃ y ∈ s.fromOn i, y + 1 = x := by
    rw [mem_def, shiftForInsertAt, List.mem_append, List.mem_map]
  rw [hstep, mem_below h, and_comm]
  refine or_congr_right ⟨?_, ?_⟩
  · rintro ⟨y, hy, rfl⟩
    have hy := (mem_fromOn h).mp hy
    exact ⟨by omega, by simpa using hy.1⟩
  · rintro ⟨hlt, hx⟩
    exact ⟨x - 1, (mem_fromOn h).mpr ⟨hx, by omega⟩, by omega⟩

theorem ascending_shiftForInsertAt (h : s.Ascending) : (s.shiftForInsertAt i).Ascending := by
  refine List.pairwise_append.mpr ⟨ascending_below h, ?_, ?_⟩
  · exact List.pairwise_map.mpr ((ascending_fromOn h).imp (by omega))
  · intro y hy z hz
    obtain ⟨u, hu, rfl⟩ := List.mem_map.mp hz
    have hy := ((mem_below h).mp hy).2
    have hu := ((mem_fromOn h).mp hu).2
    omega

theorem mem_insertAt (h : s.Ascending) :
    x ∈ s.insertAt i ↔ x = i ∨ (x < i ∧ x ∈ s) ∨ (i < x ∧ x - 1 ∈ s) := by
  rw [insertAt, mem_add (ascending_shiftForInsertAt h), mem_shiftForInsertAt h]

theorem ascending_insertAt (h : s.Ascending) : (s.insertAt i).Ascending :=
  ascending_add (ascending_shiftForInsertAt h)

/-- What is left of the members from `i` on once `i` itself is taken out. -/
theorem mem_later (h : s.Ascending) :
    x ∈ (if s.contains i then (s.fromOn i).tail else s.fromOn i) ↔ x ∈ s ∧ i < x := by
  have hmem : ∀ x, x ∈ s.fromOn i ↔ x ∈ s ∧ i ≤ x := fun x => mem_fromOn h
  have hasc := ascending_fromOn (i := i) h
  split
  · next hc =>
    have hi := (hmem i).mpr ⟨(contains_eq_true h).mp hc, Nat.le_refl i⟩
    cases hf : s.fromOn i with
    | nil => rw [hf] at hi; exact absurd hi (by simp)
    | cons a rest =>
      rw [hf] at hmem hasc hi
      have hrest := List.pairwise_cons.mp hasc
      have ha : a = i := by
        rcases List.mem_cons.mp hi with heq | htail
        · exact heq.symm
        · have := hrest.1 i htail
          have := ((hmem a).mp List.mem_cons_self).2
          omega
      subst ha
      rw [List.tail_cons]
      constructor
      · intro hx
        exact ⟨((hmem x).mp (List.mem_cons_of_mem _ hx)).1, hrest.1 x hx⟩
      · rintro ⟨hx, hlt⟩
        rcases List.mem_cons.mp ((hmem x).mpr ⟨hx, by omega⟩) with rfl | htail
        · omega
        · exact htail
  · next hc =>
    have hi : i ∉ s := fun hmem => hc ((contains_eq_true h).mpr hmem)
    rw [hmem]
    refine and_congr_right fun hx => ?_
    have : x ≠ i := fun heq => hi (heq ▸ hx)
    omega

theorem mem_eraseAt (h : s.Ascending) :
    x ∈ s.eraseAt i ↔ (x < i ∧ x ∈ s) ∨ (i ≤ x ∧ x + 1 ∈ s) := by
  have hstep : x ∈ s.eraseAt i ↔ x ∈ s.below i ∨
      ∃ y ∈ (if s.contains i then (s.fromOn i).tail else s.fromOn i), y - 1 = x := by
    rw [mem_def, eraseAt, List.mem_append, List.mem_map]
  rw [hstep, mem_below h, and_comm]
  refine or_congr_right ⟨?_, ?_⟩
  · rintro ⟨y, hy, rfl⟩
    have hy := (mem_later h).mp hy
    exact ⟨by omega, by rw [Nat.sub_add_cancel (by omega)]; exact hy.1⟩
  · rintro ⟨hle, hx⟩
    exact ⟨x + 1, (mem_later h).mpr ⟨hx, by omega⟩, rfl⟩

theorem ascending_eraseAt (h : s.Ascending) : (s.eraseAt i).Ascending := by
  have hlater : (if s.contains i then (s.fromOn i).tail else s.fromOn i).Pairwise (· < ·) := by
    split
    · exact List.Pairwise.sublist (List.tail_sublist _) (ascending_fromOn h)
    · exact ascending_fromOn h
  refine List.pairwise_append.mpr ⟨ascending_below h, ?_, ?_⟩
  · refine List.pairwise_map.mpr (hlater.imp_of_mem fun hy hz hlt => ?_)
    have hy := ((mem_later h).mp hy).2
    omega
  · intro y hy z hz
    obtain ⟨u, hu, rfl⟩ := List.mem_map.mp hz
    have hy := ((mem_below h).mp hy).2
    have hu := ((mem_later h).mp hu).2
    omega

/-- Taking a position out and making room there again only takes the position out, -/
theorem mem_shiftForInsertAt_eraseAt (h : s.Ascending) :
    x ∈ (s.eraseAt i).shiftForInsertAt i ↔ x ∈ s ∧ x ≠ i := by
  rw [mem_shiftForInsertAt (ascending_eraseAt h), mem_eraseAt h, mem_eraseAt h]
  rcases Nat.lt_trichotomy x i with hlt | rfl | hgt
  · simp [hlt, Nat.not_le.mpr hlt, Nat.lt_asymm hlt, Nat.ne_of_lt hlt]
  · simp
  · have hle : i ≤ x - 1 := by omega
    simp [hgt, hle, Nat.lt_asymm hgt, Nat.not_lt.mpr hle, Nat.ne_of_gt hgt,
      Nat.sub_add_cancel (Nat.one_le_of_lt hgt)]

/-- and making room and taking the position out changes nothing. -/
theorem mem_eraseAt_shiftForInsertAt (h : s.Ascending) :
    x ∈ (s.shiftForInsertAt i).eraseAt i ↔ x ∈ s := by
  rw [mem_eraseAt (ascending_shiftForInsertAt h), mem_shiftForInsertAt h, mem_shiftForInsertAt h]
  rcases Nat.lt_or_ge x i with hlt | hge
  · simp [hlt, Nat.not_le.mpr hlt, Nat.lt_asymm hlt]
  · simp [hge, Nat.not_lt.mpr hge, Nat.lt_succ_of_le hge, Nat.not_lt.mpr (Nat.le_succ_of_le hge)]

/-! ## The two coordinate spaces -/

/-- The members below `i` are counted by looking at every position below it. -/
theorem length_below (h : s.Ascending) :
    (s.below i).length = ((List.range i).filter (· ∈ s)).length := by
  refine List.Perm.length_eq ((List.perm_ext_iff_of_nodup (ascending_below h).nodup ?_).mpr ?_)
  · exact List.nodup_range.filter _
  · intro x
    rw [mem_below h, List.mem_filter, List.mem_range, decide_eq_true_eq, and_comm]

/-- `unshift` counts the positions below `i` that are not members. -/
theorem unshift_eq_length (h : s.Ascending) (i : Nat) :
    s.unshift i = ((List.range i).filter (· ∉ s)).length := by
  have hsum := List.length_eq_length_filter_add (l := List.range i) fun x => decide (x ∈ s)
  have hnot : (List.range i).filter (fun x => !decide (x ∈ s)) =
      (List.range i).filter (· ∉ s) := by simp only [decide_not]
  rw [List.length_range, hnot] at hsum
  unfold unshift
  rw [length_below h]
  omega

/-- The positions below `i` are the members below it and as many others as `unshift` says. -/
theorem length_below_add_unshift (h : s.Ascending) : (s.below i).length + s.unshift i = i := by
  have hle := List.length_filter_le (· ∈ s) (List.range i)
  rw [List.length_range, ← length_below h] at hle
  unfold unshift
  omega

/-- Sets that agree below `i` do so for `unshift`. -/
theorem unshift_congr {s' : PositionSet} (h : s.Ascending) (h' : s'.Ascending)
    (hsame : ∀ x < i, x ∈ s' ↔ x ∈ s) : s'.unshift i = s.unshift i := by
  rw [unshift_eq_length h, unshift_eq_length h']
  congr 1
  exact List.filter_congr fun x hx => by simp [hsame x (List.mem_range.mp hx)]

theorem unshift_of_le (h : s.Ascending) (hle : ∀ x ∈ s, i ≤ x) : s.unshift i = i := by
  refine unshift_congr ascending_empty h fun x hx => iff_of_false (fun hmem => ?_) (notMem_empty x)
  have := hle x hmem
  omega

theorem unshift_succ (h : s.Ascending) (i : Nat) :
    s.unshift (i + 1) = s.unshift i + if i ∈ s then 0 else 1 := by
  rw [unshift_eq_length h, unshift_eq_length h, List.range_succ, List.filter_append,
    List.length_append]
  congr 1
  by_cases hi : i ∈ s <;> simp [hi]

/-- An element that is inserted in front changes nothing. -/
theorem unshift_insertAt (h : s.Ascending) (hi : i ≤ x) :
    (s.insertAt i).unshift (x + 1) = s.unshift x := by
  have hmem : ∀ y, y ∈ s.insertAt i ↔ y = i ∨ (y < i ∧ y ∈ s) ∨ (i < y ∧ y - 1 ∈ s) :=
    fun y => mem_insertAt h
  induction x, hi using Nat.le_induction with
  | base =>
    rw [unshift_succ (ascending_insertAt h), if_pos ((hmem i).mpr (.inl rfl)), Nat.add_zero]
    refine unshift_congr h (ascending_insertAt h) fun y hy => ?_
    rw [hmem]
    simp [hy, Nat.ne_of_lt hy, Nat.lt_asymm hy]
  | succ x hle ih =>
    have hx : x + 1 ∈ s.insertAt i ↔ x ∈ s := by
      rw [hmem]
      simp [Nat.lt_succ_of_le hle, Nat.not_lt.mpr (Nat.le_succ_of_le hle), show x + 1 ≠ i by omega]
    rw [unshift_succ (ascending_insertAt h), ih, unshift_succ h]
    simp only [hx]

/-- If all members are below `i`, the positions below it are the members and the others. -/
theorem size_add_unshift (h : s.Ascending) (hlt : ∀ x ∈ s, x < i) : s.size + s.unshift i = i := by
  have hall : s.below i = s.members :=
    List.takeWhile_eq_self_iff.mpr fun x hx => decide_eq_true (hlt x hx)
  rw [size, ← hall]
  exact length_below_add_unshift h

/-- Between two positions, `unshift` grows if the lower one is not a member. -/
theorem unshift_lt_unshift (h : s.Ascending) {a b : Nat} (ha : a ∉ s) (hab : a < b) :
    s.unshift a < s.unshift b := by
  -- every member below `b` is a member below `a` or lies strictly between the two
  have hsub : s.below b ⊆ s.below a ++ List.range' (a + 1) (b - (a + 1)) := fun y hy => by
    have hy := (mem_below h).mp hy
    rw [List.mem_append, mem_below h, List.mem_range'_1]
    have : y ≠ a := fun heq => ha (heq ▸ hy.1)
    rcases Nat.lt_or_ge y a with hlt | hge
    · exact .inl ⟨hy.1, hlt⟩
    · exact .inr ⟨by omega, by omega⟩
  have hle := (List.subperm_of_subset (ascending_below h).nodup hsub).length_le
  rw [List.length_append, List.length_range'] at hle
  have ha' := length_below_add_unshift (i := a) h
  have hb' := length_below_add_unshift (i := b) h
  omega

theorem unshift_le_unshift (h : s.Ascending) {a b : Nat} (hab : a ≤ b) :
    s.unshift a ≤ s.unshift b := by
  rw [unshift_eq_length h, unshift_eq_length h]
  exact ((List.range_sublist.mpr hab).filter _).length_le

/-- So `unshift` tells positions that are not members apart. -/
theorem unshift_inj (h : s.Ascending) {a b : Nat} (ha : a ∉ s) (hb : b ∉ s)
    (heq : s.unshift a = s.unshift b) : a = b := by
  rcases Nat.lt_trichotomy a b with hlt | hsame | hgt
  · have := unshift_lt_unshift h ha hlt; omega
  · exact hsame
  · have := unshift_lt_unshift h hb hgt; omega

/-- A new member takes one position from those behind it. -/
theorem unshift_add (h : s.Ascending) (hi : i ∉ s) (x : Nat) :
    (s.add i).unshift x + (if i < x then 1 else 0) = s.unshift x := by
  have hothers : (List.range x).filter (· ∉ s.add i) =
      ((List.range x).filter (· ∉ s)).erase i := by
    rw [(List.nodup_range.filter _).erase_eq_filter, List.filter_filter]
    refine List.filter_congr fun y _ => ?_
    rw [Bool.eq_iff_iff]
    simp [mem_add h, not_or]
  have hmem : i ∈ (List.range x).filter (· ∉ s) ↔ i < x := by simp [hi]
  rw [unshift_eq_length h, unshift_eq_length (ascending_add h), hothers]
  split
  · next hlt => exact List.length_erase_add_one (hmem.mpr hlt)
  · next hge => rw [List.erase_of_not_mem (hge ∘ hmem.mp), Nat.add_zero]

theorem size_add (hi : i ∉ s) (h : s.Ascending) : (s.add i).size = s.size + 1 := by
  have hnot : ¬ s.contains i = true := fun hc => hi ((contains_eq_true h).mp hc)
  have hsplit := congrArg List.length (below_append_fromOn s i)
  rw [List.length_append] at hsplit
  unfold size add
  rw [if_neg hnot, List.length_append, List.length_cons]
  omega

/-- Stepping over ascending members ends beside them, past as many as were stepped over. -/
theorem stepOver_spec {xs : List Nat} (h : xs.Pairwise (· < ·)) (n : Nat) :
    let i := stepOver (· + 1) xs n
    i ∉ xs ∧ n ≤ i ∧ (xs.takeWhile (· < i)).length + n = i := by
  intro i
  -- `n` counts up with every member that is stepped over
  induction xs generalizing n with
  | nil => simp [i, stepOver]
  | cons a rest ih =>
    have hrest := List.pairwise_cons.mp h
    dsimp only [i, stepOver]
    split
    · next hlt =>
      refine ⟨?_, Nat.le_refl n, ?_⟩
      · rw [List.mem_cons, not_or]
        exact ⟨by omega, fun hmem => by have := hrest.1 n hmem; omega⟩
      · simp [Nat.not_lt.mpr (Nat.le_of_lt hlt)]
    · next hge =>
      obtain ⟨hnot, hle, hlen⟩ := ih hrest.2 (n + 1)
      have hlt : a < stepOver (· + 1) rest (n + 1) := by omega
      refine ⟨?_, by omega, ?_⟩
      · rw [List.mem_cons, not_or]
        exact ⟨by omega, hnot⟩
      · simp only [List.takeWhile_cons, hlt, decide_true, if_true, List.length_cons]
        omega

theorem le_shift (h : s.Ascending) (n : Nat) : n ≤ s.shift n := (stepOver_spec h n).2.1

theorem shift_notMem (h : s.Ascending) (n : Nat) : s.shift n ∉ s := (stepOver_spec h n).1

theorem unshift_shift (h : s.Ascending) (n : Nat) : s.unshift (s.shift n) = n := by
  have hlen := (stepOver_spec h n).2.2
  have hcount := length_below_add_unshift (i := s.shift n) h
  unfold shift below at *
  omega

/-- On positions that are not members, `shift` takes back what `unshift` did. -/
theorem shift_unshift (h : s.Ascending) (hi : i ∉ s) : s.shift (s.unshift i) = i :=
  unshift_inj h (shift_notMem h _) hi (unshift_shift h _)

end PositionSet

end SnapshotCoordination
