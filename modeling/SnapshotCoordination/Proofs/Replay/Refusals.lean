import SnapshotCoordination.Proofs.Replay.Recording

/-!
# Going on past refusals

A replay ends at the first instruction that is refused, but a reader can also be fed all of a log,
whatever it refuses on the way (`LogReader.trail`). What is left of it then (`LogReader.persist`) is
what the instructions that it takes in make of it (`LogReader.taken`), if a refusal leaves it as it
was.

* **`feed_taken`** — so it is for every reader of that kind;
* **`guard_persist`** — the guard behind a recorder goes through a log just as it would on its own,
  whatever else the recorder refuses;
* **`refusals_untraced`** — what a recorder refuses, and that it leaves no trace.
-/

namespace SnapshotCoordination

namespace LogReader

variable {σ : Type} [LogReader σ]

/-- What is left of a reader that is fed all of a log. -/
def persist (s : σ) (log : Log) : σ := ((trail true s log).getLast?.map (·.1)).getD s

/-- The instructions that it takes in on the way. -/
def taken : σ → Log → Log
  | _, [] => []
  | s, i :: rest =>
    if (read s i).2.isNone then i :: taken (read s i).1 rest else taken (read s i).1 rest

theorem persist_cons (s : σ) (i : Instruction) (log : Log) :
    persist s (i :: log) = persist (read s i).1 log := by
  have htrail : trail true s (i :: log) = read s i :: trail true (read s i).1 log := by
    simp [trail]
  unfold persist
  rw [htrail, List.getLast?_cons]
  cases (trail true (read s i).1 log).getLast? <;> rfl

theorem taken_sublist (s : σ) (log : Log) : (taken s log).Sublist log := by
  induction log generalizing s with
  | nil => exact .slnil
  | cons i log ih =>
    rw [taken]
    split
    · exact (ih _).cons_cons i
    · exact (ih _).cons i

/-- A reader that is left as it was by what it refuses takes in the rest as if the refused
instructions had not been there. -/
theorem feed_taken (hkeeps : ∀ (s : σ) i, (read s i).2 ≠ none → (read s i).1 = s) (s : σ)
    (log : Log) : feed s (taken s log) = (persist s log, none) := by
  induction log generalizing s with
  | nil => rfl
  | cons i log ih =>
    rw [taken, persist_cons]
    by_cases hread : (read s i).2 = none
    · rw [if_pos (by rw [hread]; rfl), feed_cons_of_eq_none hread]
      exact ih (read s i).1
    · rw [if_neg (by simpa using hread), hkeeps s i hread]
      exact ih s

end LogReader

/-- The guard behind a recorder goes through a log as it would on its own. -/
theorem ChangeRecorder.guard_persist (r : ChangeRecorder) (log : Log) :
    (LogReader.persist r log).guard = LogReader.persist r.guard log := by
  induction log generalizing r with
  | nil => rfl
  | cons i log ih =>
    have hguard : (LogReader.read r i).1.guard = (LogReader.read r.guard i).1 := r.guard_read i
    rw [LogReader.persist_cons, LogReader.persist_cons, ← hguard]
    exact ih _

/-- **A refused instruction leaves no trace**, wherever a recorder has got to that was fed some log
(a replay that ended at a refusal has got to where the log up to that one leads). So feeding it
another log and going on past refusals comes to the same as replaying what it takes in of that log,
all of which is then accepted. Its guard is where a guard of its own would be that was fed the first
log, refusals and all. And what it refuses is exactly what that guard refuses, which is always a
schema mismatch, and the erases of rows that keep their order or take out more or less than one, which
are invalid logs. -/
theorem refusals_untraced (keys : List ListKey) (before log : Log) :
    let r := LogReader.persist (ChangeRecorder.observing keys) before
    let g := LogReader.persist SchemaGuard.fresh before
    (∀ i failure, (LogReader.read r i).2 = some failure → (LogReader.read r i).1 = r) ∧
      (LogReader.taken r log).Sublist log ∧
      LogReader.replay r (LogReader.taken r log) = (LogReader.persist r log, none) ∧
      r.guard = g ∧
      (∀ i failure, (LogReader.read r i).2 = some failure ↔
        (LogReader.read g i).2 = some failure ∨
          ∃ fault, i.Unrecordable fault ∧ failure = .invalidLog fault) ∧
      ∀ i failure, (LogReader.read g i).2 = some failure → failure = .schemaMismatch := by
  intro r g
  have hguard : r.guard = g := (ChangeRecorder.observing keys).guard_persist before
  have hkeeps : ∀ (r : ChangeRecorder) i, (LogReader.read r i).2 ≠ none →
      (LogReader.read r i).1 = r := fun r i => ChangeRecorder.read_of_refused
  refine ⟨fun i failure h => hkeeps r i (h ▸ Option.some_ne_none failure),
    LogReader.taken_sublist r log, ?_, hguard, fun i failure => ?_,
    fun i failure => SchemaGuard.read_eq_schemaMismatch⟩
  · -- the end of a log is never refused
    unfold LogReader.replay
    rw [LogReader.feed_taken hkeeps]
    rfl
  · rw [← hguard]
    exact ChangeRecorder.read_eq_some_iff

/-- A log with three refusals: a column is added to an old table, two rows are erased at once, and a
row is erased in order. What is recorded around them is what the four other instructions leave. -/
theorem refusals_untraced_threeRefused :
    let r := LogReader.persist (ChangeRecorder.observing []) [.selectTable 1, .eraseTable 0]
    let kept : Log := [.set 0 2 .null, .eraseRows 0 1 3 true, .set 0 0 .null]
    let log : Log := [.insertColumn 0 .int "age" false, .set 0 2 .null, .eraseRows 0 2 3 true,
      .eraseRows 0 1 3 true, .eraseRows 0 1 2 false, .set 0 0 .null]
    (LogReader.read r (.eraseRows 0 2 3 true)).1 = r ∧ LogReader.taken r log = kept ∧
      LogReader.replay r kept = (LogReader.persist r log, none) ∧
      (LogReader.persist r log).changes.tables = [.empty, ⟨⟨[2]⟩, ⟨[(0, 2)]⟩, 1⟩] ∧
      (LogReader.read r (.eraseRows 0 1 2 false)).2 = some (.invalidLog (.orderedErase 0)) := by
  intro r kept log
  obtain ⟨huntraced, -, hreplay, -, hrefused, -⟩ :=
    refusals_untraced [] [.selectTable 1, .eraseTable 0] log
  have htaken : LogReader.taken r log = kept := by decide
  refine ⟨huntraced _ (.invalidLog (.erasesSeveral 2 0)) (by decide), htaken, htaken ▸ hreplay,
    by decide, (hrefused _ _).mpr (.inr ⟨_, .ordered 0 1 2, rfl⟩)⟩

end SnapshotCoordination
