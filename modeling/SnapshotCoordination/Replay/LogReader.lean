import SnapshotCoordination.Failure
import SnapshotCoordination.Log.Instruction

/-!
# Log readers

A `LogReader` is fed the instructions of a replay one by one and is told when the replay has
reached its target. At either point it can refuse, which ends the replay; what it had taken in
up to then stays in its state.
-/

namespace SnapshotCoordination

/-- A state that can be fed a log. -/
class LogReader (σ : Type) where
  /-- Take in one instruction, or refuse it. -/
  read : σ → Instruction → σ × Option Failure
  /-- Learn that the log is complete, or refuse that. -/
  finish : σ → σ × Option Failure

namespace LogReader

variable {σ : Type} [LogReader σ]

/-- Feed the instructions in order, up to the first one that is refused. -/
def feed : σ → Log → σ × Option Failure
  | s, [] => (s, none)
  | s, i :: rest =>
    match read s i with
    | (s', none) => feed s' rest
    | (s', some failure) => (s', some failure)

/-- Feed a whole log and, if all of it is taken in, say that it is complete. -/
def replay (s : σ) (log : Log) : σ × Option Failure :=
  match feed s log with
  | (s', none) => finish s'
  | (s', some failure) => (s', some failure)

/-- Feed the instructions in order, also past the ones that are refused if `keepGoing`, and list
the state after each with its refusal. -/
def trail (keepGoing : Bool) : σ → Log → List (σ × Option Failure)
  | _, [] => []
  | s, i :: rest =>
    let (s', refusal) := read s i
    (s', refusal) :: if refusal.isNone || keepGoing then trail keepGoing s' rest else []

/-- Whether the whole log is taken in. -/
def accepts (s : σ) (log : Log) : Bool := (replay s log).2.isNone

/-- Feeding two logs one after the other is feeding their concatenation. -/
theorem feed_append (s : σ) (a b : Log) :
    feed s (a ++ b) =
      match feed s a with
      | (s', none) => feed s' b
      | (s', some failure) => (s', some failure) := by
  induction a generalizing s with
  | nil => rfl
  | cons i rest ih =>
    simp only [List.cons_append, feed]
    rcases read s i with ⟨s', _ | failure⟩
    · exact ih s'
    · rfl

theorem feed_cons_eq_none_iff {s : σ} {i : Instruction} {log : Log} :
    (feed s (i :: log)).2 = none ↔ (read s i).2 = none ∧ (feed (read s i).1 log).2 = none := by
  rw [feed]
  rcases read s i with ⟨s', _ | failure⟩ <;> simp

theorem feed_cons_of_eq_none {s : σ} {i : Instruction} (h : (read s i).2 = none) (log : Log) :
    feed s (i :: log) = feed (read s i).1 log := by
  have htaken : read s i = ((read s i).1, none) := Prod.ext rfl h
  rw [feed, htaken]

theorem feed_append_eq_none_iff {s : σ} {a b : Log} :
    (feed s (a ++ b)).2 = none ↔ (feed s a).2 = none ∧ (feed (feed s a).1 b).2 = none := by
  rw [feed_append]
  rcases feed s a with ⟨s', _ | failure⟩ <;> simp

theorem replay_cons (s : σ) (i : Instruction) (log : Log) :
    replay s (i :: log) =
      match read s i with
      | (s', none) => replay s' log
      | (s', some failure) => (s', some failure) := by
  unfold replay
  rw [feed]
  rcases read s i with ⟨s', _ | failure⟩ <;> rfl

/-- A reader that has nothing to say when a log is complete is replayed by feeding it. -/
theorem replay_eq_feed_of_finish (hfinish : ∀ s : σ, finish s = (s, none)) (s : σ) (log : Log) :
    replay s log = feed s log := by
  unfold replay
  split
  · next hfeed => rw [hfeed, hfinish]
  · next hfeed => rw [hfeed]

/-- What a replay is refused for, an instruction of the log is refused for, or its end is. -/
theorem refusal_of_replay {P : Failure → Prop}
    (hread : ∀ (s : σ) i failure, (read s i).2 = some failure → P failure)
    (hfinish : ∀ (s : σ) failure, (finish s).2 = some failure → P failure) {s : σ} {log : Log}
    {failure : Failure} (h : (replay s log).2 = some failure) : P failure := by
  induction log generalizing s with
  | nil => exact hfinish s failure h
  | cons i log ih =>
    rw [replay_cons] at h
    rcases hrefusal : read s i with ⟨s', _ | refusal⟩
    · rw [hrefusal] at h
      exact ih h
    · rw [hrefusal] at h
      cases h
      exact hread s i failure (congrArg Prod.snd hrefusal)

end LogReader

end SnapshotCoordination
