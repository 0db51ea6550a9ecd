import SnapshotCoordination.Proofs.Coordination.CleanUp

/-!
# Taking out dead entries

A list is swept by a loop: it looks at one place, goes on to the next one if the entry there lives,
and otherwise takes it out by moving the last entry to that place, which is looked at next. A `Loop`
is such a loop between two of its rounds.

* **termination** — a round leaves one entry less to be looked at (`left_round`), so the loop ends
  after as many rounds as the list has entries, in one way only (`Ends.unique`);
* **result** — what it leaves and what it takes out is what `sweep` says (`ends_start_iff`);
* **`dead_entries_removed`** — so dead queries are let go, and handles forgotten.
-/

namespace SnapshotCoordination

namespace Sweep

variable {α : Type} {dead : α → Bool}

/-- A list without the entry at a place, the last entry taking that place. -/
def swapRemove (i : Nat) (xs : List α) : List α :=
  match xs.getLast? with
  | some last => (xs.set i last).dropLast
  | none => []

/-- A loop that takes dead entries out of a list. -/
structure Loop (α : Type) where
  entries : List α
  /-- The place that is looked at next. -/
  index : Nat
  /-- What was taken out, in the order in which it was. -/
  released : List α
  /-- Whether anything was taken out. -/
  removed : Bool

namespace Loop

/-- The loop before its first round. -/
def start (xs : List α) : Loop α := ⟨xs, 0, [], false⟩

/-- One round, none once every place was looked at. -/
def round (dead : α → Bool) (l : Loop α) : Option (Loop α) :=
  match l.entries[l.index]? with
  | none => none
  | some x =>
    some <|
      if dead x then
        { entries := swapRemove l.index l.entries
          index := l.index
          released := l.released ++ [x]
          removed := true }
      else { l with index := l.index + 1 }

/-- How many entries are left to be looked at. -/
def left (l : Loop α) : Nat := l.entries.length - l.index

/-- From one state to the other, the loop ends in `n` rounds. -/
inductive Ends (dead : α → Bool) : Loop α → Nat → Loop α → Prop
  | finished {l : Loop α} (h : l.round dead = none) : Ends dead l 0 l
  | next {l l' l'' : Loop α} {n : Nat} (h : l.round dead = some l') (rest : Ends dead l' n l'') :
    Ends dead l (n + 1) l''

variable {l l' : Loop α}

theorem length_swapRemove (i : Nat) (xs : List α) :
    (swapRemove i xs).length = xs.length - 1 := by
  unfold swapRemove
  split
  · rw [List.length_dropLast, List.length_set]
  · next hnone =>
    rw [List.getLast?_eq_none_iff] at hnone
    rw [hnone]
    rfl

/-- Every round leaves one entry less. -/
theorem left_round (h : l.round dead = some l') : l'.left + 1 = l.left := by
  unfold round at h
  split at h
  · cases h
  · next x hx =>
    have hlt : l.index < l.entries.length := (List.getElem?_eq_some_iff.mp hx).1
    obtain rfl := Option.some.inj h
    unfold left
    split
    · show (swapRemove l.index l.entries).length - l.index + 1 = _
      rw [length_swapRemove]
      omega
    · show l.entries.length - (l.index + 1) + 1 = _
      omega

theorem round_eq_none_iff : l.round dead = none ↔ l.left = 0 := by
  unfold round left
  split
  · next hnone => exact iff_of_true rfl (by rw [List.getElem?_eq_none_iff] at hnone; omega)
  · next x hx =>
    have hlt : l.index < l.entries.length := (List.getElem?_eq_some_iff.mp hx).1
    exact iff_of_false (by rintro ⟨⟩) (by omega)

/-- The loop ends after as many rounds as entries are left, -/
theorem exists_ends (dead : α → Bool) (l : Loop α) : ∃ l', Ends dead l l.left l' := by
  generalize hn : l.left = n
  induction n generalizing l with
  | zero => exact ⟨l, .finished (round_eq_none_iff.mpr hn)⟩
  | succ n ih =>
    cases hround : l.round dead with
    | none => have := round_eq_none_iff.mp hround; omega
    | some l' =>
      obtain ⟨l'', hrest⟩ := ih l' (by have := left_round hround; omega)
      exact ⟨l'', .next hround hrest⟩

/-- and in one way only. -/
theorem Ends.unique {m n : Nat} {l₁ l₂ : Loop α} (h₁ : Ends dead l m l₁) (h₂ : Ends dead l n l₂) :
    m = n ∧ l₁ = l₂ := by
  induction h₁ generalizing n with
  | finished h =>
    cases h₂ with
    | finished => exact ⟨rfl, rfl⟩
    | next h' => rw [h] at h'; cases h'
  | next h _ ih =>
    cases h₂ with
    | finished h' => rw [h] at h'; cases h'
    | next h' rest =>
      obtain rfl := Option.some.inj (h.symm.trans h')
      obtain ⟨rfl, rfl⟩ := ih rest
      exact ⟨rfl, rfl⟩

/-! ## What the loop leaves -/

/-- Behind what was looked at, the last entry comes first. -/
theorem swapRemove_append_cons (front : List α) (x : α) (rest : List α) :
    swapRemove front.length (front ++ x :: rest) = front ++ lastFirst rest := by
  rcases rest.eq_nil_or_concat with rfl | ⟨rest, last, rfl⟩
  · simp [swapRemove, lastFirst]
  · rw [List.concat_eq_append]
    have hlast : (front ++ x :: (rest ++ [last])).getLast? = some last := by
      rw [← List.cons_append, ← List.append_assoc, List.getLast?_concat]
    rw [swapRemove, hlast]
    show (List.set _ _ _).dropLast = _
    rw [List.set_append_right _ _ (Nat.le_refl _), Nat.sub_self, List.set_cons_zero,
      ← List.cons_append, ← List.append_assoc, List.dropLast_concat]
    simp [lastFirst]

/-- From a place on, the loop does what a sweep of the entries there does. -/
theorem ends_upTo (n : Nat) (front rest gone : List α) (removed : Bool) (hn : rest.length = n) :
    Ends dead ⟨front ++ rest, front.length, gone, removed⟩ n
      ⟨front ++ (upTo dead n rest).1, (front ++ (upTo dead n rest).1).length,
        gone ++ (upTo dead n rest).2, removed || !(upTo dead n rest).2.isEmpty⟩ := by
  induction n generalizing front rest gone removed with
  | zero =>
    obtain rfl := List.length_eq_zero_iff.mp hn
    rw [upTo, List.append_nil, List.append_nil, List.isEmpty_nil, Bool.not_true, Bool.or_false]
    exact .finished (round_eq_none_iff.mpr (Nat.sub_self _))
  | succ n ih =>
    cases rest with
    | nil => cases hn
    | cons x rest =>
      have hlength : rest.length = n := Nat.succ.inj hn
      have hx : (front ++ x :: rest)[front.length]? = some x := by simp
      cases hdead : dead x with
      | true =>
        -- the last entry comes to the same place
        have hrest := ih front (lastFirst rest) (gone ++ [x]) true
          ((lastFirst_perm rest).length_eq.trans hlength)
        have hround : round dead ⟨front ++ x :: rest, front.length, gone, removed⟩ =
            some ⟨front ++ lastFirst rest, front.length, gone ++ [x], true⟩ := by
          simp only [round, hx, hdead, if_true, swapRemove_append_cons]
        exact .next hround (by simpa [upTo, hdead] using hrest)
      | false =>
        have hrest := ih (front ++ [x]) rest gone removed hlength
        have hround : round dead ⟨front ++ x :: rest, front.length, gone, removed⟩ =
            some ⟨front ++ x :: rest, front.length + 1, gone, removed⟩ := by
          simp only [round, hx, hdead, Bool.false_eq_true, if_false]
        exact .next hround (by simpa [upTo, hdead] using hrest)

/-- The loop over a list once it is over. -/
def ended (dead : α → Bool) (xs : List α) : Loop α :=
  let (kept, removed) := sweep dead xs
  ⟨kept, kept.length, removed, !removed.isEmpty⟩

/-- The loop does what a sweep does. -/
theorem ends_start_iff {n : Nat} {xs : List α} :
    Ends dead (start xs) n l ↔ n = xs.length ∧ l = ended dead xs := by
  have hends : Ends dead (start xs) xs.length (ended dead xs) := ends_upTo _ [] xs [] false rfl
  exact ⟨fun h => h.unique hends, fun ⟨hn, hl⟩ => hn ▸ hl ▸ hends⟩

/-- A loop over `xs` that ended rightly: the entries that live are left and the dead ones were
released, each as often as it was there, and it says whether there was one. -/
structure Sorts (dead : α → Bool) (xs : List α) (l : Loop α) : Prop where
  kept : l.entries.Perm (xs.filter (!dead ·))
  released : l.released.Perm (xs.filter dead)
  removed : l.removed = true ↔ ∃ x ∈ xs, dead x = true

theorem sorts_ended (dead : α → Bool) (xs : List α) : Sorts dead xs (ended dead xs) where
  kept := sweep_kept_perm dead xs
  released := sweep_removed_perm dead xs
  removed := by
    show (!(sweep dead xs).2.isEmpty) = true ↔ _
    rw [(sweep_removed_perm dead xs).isEmpty_eq]
    simp

end Loop

end Sweep

/-! ## Queries and handles -/

open Sweep in
/-- **Dead entries are taken out, and no others.** Wherever it is, a loop that takes dead entries
out ends after as many rounds as entries are left. From the start of a list it ends in one way, with
the living entries left, the dead ones released, and the answer whether there was one. To clean a
coordinator up is such a loop over each of its two lists of queries: every dead entry is told its
release once, in the order in which the loops find them, and nobody is told anything else; a cursor
stops reading if its loop took something out and left nothing. To forget a handle is such a loop
over the handles that are remembered: left are the entries of other handles that are alive. -/
theorem dead_entries_removed :
    (∀ {α : Type} (dead : α → Bool) (l : Loop α), ∃ l', Loop.Ends dead l l.left l') ∧
    (∀ {α : Type} (dead : α → Bool) (xs : List α) n l,
      Loop.Ends dead (.start xs) n l ↔ n = xs.length ∧ l = .ended dead xs) ∧
    (∀ {α : Type} (dead : α → Bool) (xs : List α), Loop.Sorts dead xs (.ended dead xs)) ∧
    (∀ (w : World) (c : CoordinatorId),
      let s := w.coordinator c
      let main := Loop.ended w.isDead s.queries
      let waiting := Loop.ended w.isDead s.newQueries
      ∃ w', (Step.cleanUp c).run w = (w', .ok ()) ∧
        w'.trace = w.trace ++ (main.released ++ waiting.released).map .release ∧
        (w'.coordinator c).queries = main.entries ∧
        (w'.coordinator c).newQueries = waiting.entries ∧
        (w'.coordinator c).queryCursor =
          (if main.removed && main.entries.isEmpty then s.queryCursor.map (·.endRead)
          else s.queryCursor) ∧
        (w'.coordinator c).advancer =
          (if waiting.removed && waiting.entries.isEmpty then s.advancer.map (·.endRead)
          else s.advancer)) ∧
    (∀ (w : World) (c : CoordinatorId) (h : HandleId),
      let s := w.coordinator c
      let l := Loop.ended (fun e => !w.isAliveHandle e.handle || e.handle == h) s.cached
      (w.forgetHandle c h).coordinator c = { s with cached := l.entries } ∧
        l.entries.Perm (s.cached.filter fun e => w.isAliveHandle e.handle && e.handle != h)) := by
  refine ⟨Loop.exists_ends, fun _ _ _ _ => Loop.ends_start_iff, Loop.sorts_ended, fun w c => ?_,
    fun w c h => ⟨?_, ?_⟩⟩
  · obtain ⟨w', hrun, -, hself, htrace, -⟩ := Step.run_cleanUp c w
    exact ⟨w', hrun, htrace, congrArg Coordinator.queries hself,
      congrArg Coordinator.newQueries hself, congrArg Coordinator.queryCursor hself,
      congrArg Coordinator.advancer hself⟩
  · exact w.coordinator_onCoordinator_self c _
  · refine (Loop.sorts_ended _ _).kept.trans (.of_eq (List.filter_congr fun e _ => ?_))
    rw [Bool.not_or, Bool.not_not]
    rfl

end SnapshotCoordination
