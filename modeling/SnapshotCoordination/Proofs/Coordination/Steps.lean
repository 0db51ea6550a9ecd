import Mathlib.Order.Defs.Unbundled
import SnapshotCoordination.Coordination.Step

/-!
# Reasoning about steps and runs

A `Step` is taken apart into the steps it is made of, either exactly (`run_bind_ok`,
`run_bind_error`) or up to a relation between the world before and the world after:

* **`Step.Stays`** — whatever world a step starts in, it ends in one that is related to it, whether
  or not it fails. For a preorder this goes through sequencing, loops and `attempt`.

An action whose callbacks do nothing is a step (`Action.quiet`), made of the steps that its parts
are.
-/

namespace SnapshotCoordination

namespace Step

variable {α β : Type}

/-! ## Exactly -/

theorem run_pure (a : α) (w : World) : (pure a : Step α).run w = (w, .ok a) := rfl

theorem run_bind (s : Step α) (f : α → Step β) (w : World) :
    (s >>= f).run w =
      match s.run w with
      | (w', .ok a) => (f a).run w'
      | (w', .error failure) => (w', .error failure) := rfl

theorem run_bind_ok {s : Step α} {w w' : World} {a : α} (h : s.run w = (w', .ok a))
    (f : α → Step β) : (s >>= f).run w = (f a).run w' := by
  rw [run_bind, h]

theorem run_bind_error {s : Step α} {w w' : World} {failure : Failure}
    (h : s.run w = (w', .error failure)) (f : α → Step β) :
    (s >>= f).run w = (w', .error failure) := by
  rw [run_bind, h]

theorem run_world (w : World) : world.run w = (w, .ok w) := rfl

theorem run_update (f : World → World) (w : World) : (update f).run w = (f w, .ok ()) := rfl

theorem run_ofExcept (r : Except Failure α) (w : World) : (ofExcept r).run w = (w, r) := rfl

theorem run_attempt (s : Step α) (w : World) :
    s.attempt.run w = ((s.run w).1, .ok (s.run w).2) := rfl

/-- Steps in a row can be grouped either way. -/
theorem bind_assoc {γ : Type} (s : Step α) (f : α → Step β) (g : β → Step γ) :
    s >>= f >>= g = s >>= fun a => f a >>= g := by
  funext w
  show ((s >>= f) >>= g).run w = (s >>= fun a => f a >>= g).run w
  rw [run_bind, run_bind, run_bind]
  rcases s.run w with ⟨w', a | a⟩ <;> rfl

/-- A sequence that succeeds is two steps that do. -/
theorem run_bind_eq_ok {s : Step α} {f : α → Step β} {w w' : World} {b : β}
    (h : (s >>= f).run w = (w', .ok b)) :
    ∃ w₁ a, s.run w = (w₁, .ok a) ∧ (f a).run w₁ = (w', .ok b) := by
  rw [run_bind] at h
  rcases hs : s.run w with ⟨w₁, a | a⟩ <;> rw [hs] at h
  · cases h
  · exact ⟨w₁, a, rfl, h⟩

/-- A sequence that fails does so in its first step or in its second. -/
theorem run_bind_eq_error {s : Step α} {f : α → Step β} {w w' : World} {failure : Failure}
    (h : (s >>= f).run w = (w', .error failure)) :
    s.run w = (w', .error failure) ∨
      ∃ w₁ a, s.run w = (w₁, .ok a) ∧ (f a).run w₁ = (w', .error failure) := by
  rw [run_bind] at h
  rcases hs : s.run w with ⟨w₁, a | a⟩ <;> rw [hs] at h
  · cases h
    exact .inl rfl
  · exact .inr ⟨w₁, a, rfl, h⟩

/-! ## Up to a relation -/

/-- Whatever world the step starts in, the world it ends in is related to it. -/
def Stays (R : World → World → Prop) (s : Step α) : Prop := ∀ w, R w (s.run w).1

namespace Stays

variable {R : World → World → Prop}

theorem update {f : World → World} (h : ∀ w, R w (f w)) : (update f).Stays R := h

theorem mono {Q : World → World → Prop} {s : Step α} (h : s.Stays R)
    (hle : ∀ w w', R w w' → Q w w') : s.Stays Q := fun w => hle w _ (h w)

/-- The first step gives the world that the second one starts in. -/
theorem world_bind {f : World → Step β} (hf : ∀ w, R w ((f w).run w).1) :
    (Step.world >>= f).Stays R := hf

theorem attempt {s : Step α} (hs : s.Stays R) : s.attempt.Stays R := hs

theorem ite {p : Prop} [Decidable p] {s t : Step α} (hs : s.Stays R) (ht : t.Stays R) :
    (if p then s else t).Stays R := by
  split
  · exact hs
  · exact ht

variable [IsPreorder World R]

theorem pure (a : α) : (Pure.pure a : Step α).Stays R := fun w => refl_of R w

theorem fail (failure : Failure) : (Step.fail failure : Step α).Stays R := fun w => refl_of R w

theorem ofExcept (r : Except Failure α) : (Step.ofExcept r).Stays R := fun w => refl_of R w

theorem world : Step.world.Stays R := fun w => refl_of R w

/-- A step that needs a value starts only if there is one. -/
theorem ofExcept_from {r : Except Failure α} {f : α → Step β} {w : World}
    (hf : ∀ a, r = .ok a → R w ((f a).run w).1) : R w ((Step.ofExcept r >>= f).run w).1 := by
  cases r with
  | ok a => exact hf a rfl
  | error failure => exact refl_of R w

/-- What the first step does from one world only, and the second from any. -/
theorem bind_from {s : Step α} {f : α → Step β} {w : World} (hs : R w (s.run w).1)
    (hf : ∀ a, (f a).Stays R) : R w ((s >>= f).run w).1 := by
  rw [run_bind]
  rcases hrun : s.run w with ⟨w', a | a⟩ <;> rw [hrun] at hs
  · exact hs
  · exact trans_of R hs (hf a w')

theorem bind {s : Step α} {f : α → Step β} (hs : s.Stays R) (hf : ∀ a, (f a).Stays R) :
    (s >>= f).Stays R := fun w => bind_from (hs w) hf

theorem forM_of_mem {f : α → Step Unit} {xs : List α} (hf : ∀ a ∈ xs, (f a).Stays R) :
    (xs.forM f).Stays R := by
  induction xs with
  | nil => exact Stays.pure ()
  | cons a xs ih =>
    exact (hf a List.mem_cons_self).bind fun _ => ih fun b hb => hf b (List.mem_cons_of_mem a hb)

theorem forM {f : α → Step Unit} (hf : ∀ a, (f a).Stays R) (xs : List α) :
    (xs.forM f).Stays R := forM_of_mem fun a _ => hf a

end Stays

end Step

/-! ## Actions whose callbacks do nothing -/

theorem Run.finish_andThen {α β : Type} (client : Callback → World → World) (r : Run α)
    (f : α → World → Run β) :
    (r.andThen f).finish client =
      match r.finish client with
      | (w, .ok a) => (f a w).finish client
      | (w, .error failure) => (w, .error failure) := by
  induction r with
  | «over» w outcome => cases outcome <;> rfl
  | waiting callback w resume ih => exact ih (client callback w)

namespace Action

variable {α β : Type}

/-- The step that an action is if its callbacks do nothing. -/
def quiet (a : Action α) : Step α := a.quietly

theorem quiet_ofStep (s : Step α) : (ofStep s).quiet = s := rfl

theorem quiet_bind (a : Action α) (f : α → Action β) :
    (a >>= f).quiet = a.quiet >>= fun x => (f x).quiet := by
  funext w
  exact Run.finish_andThen (fun _ w => w) (a.begin w) f

theorem quiet_forM {f : α → Action Unit} (xs : List α) :
    (xs.forM f).quiet = xs.forM fun x => (f x).quiet := by
  induction xs with
  | nil => rfl
  | cons x xs ih =>
    show (f x >>= fun _ => xs.forM f).quiet = _
    rw [quiet_bind, ih]
    rfl

theorem quiet_attempt (a : Action α) : a.attempt.quiet = a.quiet.attempt := by
  funext w
  show (a.begin w).attempt.finish _ = _
  unfold Step.attempt quiet quietly
  show _ = (((a.begin w).finish fun _ w => w).1, Except.ok ((a.begin w).finish fun _ w => w).2)
  induction a.begin w with
  | «over» w outcome => rfl
  | waiting callback w resume ih => exact ih w

/-! ### Up to a relation -/

variable {R : World → World → Prop}

theorem stays_attempt {a : Action α} (ha : a.quiet.Stays R) : a.attempt.quiet.Stays R := by
  rw [quiet_attempt]
  exact ha

variable [IsPreorder World R]

theorem stays_bind {a : Action α} {f : α → Action β} (ha : a.quiet.Stays R)
    (hf : ∀ x, (f x).quiet.Stays R) : (a >>= f).quiet.Stays R := by
  rw [quiet_bind]
  exact ha.bind hf

theorem stays_forM {f : α → Action Unit} (hf : ∀ x, (f x).quiet.Stays R) (xs : List α) :
    (xs.forM f).quiet.Stays R := by
  rw [quiet_forM]
  exact Step.Stays.forM hf xs

theorem stays_ensuring {a : Action α} {after : World → World} (ha : a.quiet.Stays R)
    (hafter : ∀ w, R w (after w)) : (a.ensuring after).quiet.Stays R :=
  stays_bind (stays_attempt ha) fun outcome => stays_bind (a := ofStep (.update after)) hafter
    fun _ => Step.Stays.ofExcept outcome

end Action

end SnapshotCoordination
