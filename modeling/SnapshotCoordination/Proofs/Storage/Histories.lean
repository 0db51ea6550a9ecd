import Mathlib.Data.List.Basic
import SnapshotCoordination.Replay.SchemaGuard
import SnapshotCoordination.Storage.File

/-!
# Ways through a history

Between two versions of a file lie the logs of the commits after the one, up to the other. They are
laid end to end (`File.logsBetween_append`), and later commits change none of them
(`File.logsBetween_of_grown`).

A version is `File.Passable` from another if the logs between them fall into stretches each of which
the schema guard takes in as a whole. No such way leads over a commit with an instruction that the
guard refuses whatever came before it (`File.Passable.supported`).
-/

namespace SnapshotCoordination

namespace File

variable {f f' : File} {u v x : Version} {log : Log}

theorem latest_le_latest (h : f.commits <+: f'.commits) : f.latest ≤ f'.latest := by
  have hlen := h.length_le
  unfold latest
  rw [Version.le_def]
  dsimp only
  omega

/-! ## The logs between two versions -/

theorem mem_logsBetween :
    log ∈ f.logsBetween u v ↔ ∃ n, u.number < n ∧ n ≤ v.number ∧ f.logOf n = some log := by
  unfold logsBetween
  rw [List.mem_filterMap]
  refine exists_congr fun n => ?_
  rw [List.mem_range'_1, ← and_assoc]
  refine and_congr_left fun _ => ?_
  omega

theorem logsBetween_congr (h : f'.commits = f.commits) :
    f'.logsBetween u v = f.logsBetween u v := by
  unfold logsBetween logOf
  rw [h]

theorem logsBetween_self (f : File) (v : Version) : f.logsBetween v v = [] := by
  simp [logsBetween]

theorem logsBetween_append (huv : u ≤ v) (hvx : v ≤ x) :
    f.logsBetween u v ++ f.logsBetween v x = f.logsBetween u x := by
  have hu : u.number ≤ v.number := by rw [Version.le_def] at huv; omega
  have hv : v.number ≤ x.number := by rw [Version.le_def] at hvx; omega
  obtain ⟨k, hk⟩ := Nat.exists_eq_add_of_le hu
  obtain ⟨l, hl⟩ := Nat.exists_eq_add_of_le hv
  unfold logsBetween
  rw [← List.filterMap_append, hl, hk]
  congr 1
  have hstart : u.number + k + 1 = u.number + 1 + k := by omega
  have hlength : u.number + k + l - u.number = k + l := by omega
  rw [hstart, hlength, Nat.add_sub_cancel_left, Nat.add_sub_cancel_left]
  exact List.range'_append_1

/-- The logs that lead from one version to another are those of the commits in between. -/
theorem logsBetween_eq (hv : v ≤ f.latest) :
    f.logsBetween u v = (f.commits.take (v.number - 1)).drop (u.number - 1) := by
  -- counted from zero, the log of commit `k` leads to version `k + 2`
  have hcommits : ∀ n k, k + n ≤ f.commits.length →
      (List.range' (k + 2) n).filterMap f.logOf = (f.commits.take (k + n)).drop k := by
    intro n
    induction n with
    | zero => intro k _; simp
    | succ n ih =>
      intro k hk
      have hlog : f.logOf (k + 2) = some f.commits[k] := by simp [logOf]
      have hlt : k < (f.commits.take (k + (n + 1))).length := by
        rw [List.length_take]
        omega
      rw [List.range'_succ, List.filterMap_cons_some hlog, ih (k + 1) (by omega),
        List.drop_eq_getElem_cons hlt, List.getElem_take, Nat.add_right_comm, Nat.add_assoc]
  have hcount : v.number ≤ f.commits.length + 1 := by
    rw [Version.le_def, latest] at hv
    dsimp only at hv
    omega
  unfold logsBetween
  cases hu : u.number with
  | zero =>
    cases hn : v.number with
    | zero => simp
    | succ n =>
      -- there is no log behind the first version
      have hnone : f.logOf (0 + 1) = none := rfl
      rw [Nat.sub_zero, List.range'_succ, List.filterMap_cons_none hnone]
      simpa using hcommits n 0 (by omega)
  | succ k =>
    by_cases hle : k + 1 ≤ v.number
    · have hadd : k + (v.number - (k + 1)) = v.number - 1 := by omega
      rw [← hadd]
      exact hcommits _ k (by omega)
    · have hnone : v.number - (k + 1) = 0 := by omega
      rw [hnone, List.range'_zero, List.filterMap_nil, List.drop_eq_nil_of_le]
      rw [List.length_take]
      omega

theorem le_latest_of_logOf {n : Nat} (h : f.logOf n = some log) : n ≤ f.latest.number := by
  unfold logOf at h
  split at h
  · cases h
  · have hlt := (List.getElem?_eq_some_iff.mp h).1
    dsimp only [latest]
    omega

theorem logOf_of_grown (h : f.commits <+: f'.commits) {n : Nat} (hn : n ≤ f.latest.number) :
    f'.logOf n = f.logOf n := by
  unfold logOf
  split
  · rfl
  · next hlater =>
    have hlt : n - 2 < f.commits.length := by
      simp only [latest] at hn
      omega
    rw [List.prefix_iff_getElem?.mp h _ hlt, List.getElem?_eq_getElem hlt]

theorem logsBetween_of_grown (h : f.commits <+: f'.commits) (hv : v ≤ f.latest) :
    f'.logsBetween u v = f.logsBetween u v := by
  refine List.filterMap_congr fun n hn => logOf_of_grown h ?_
  rw [List.mem_range'_1] at hn
  simp only [Version.le_def] at hv
  omega

end File

/-! ## The schema guard -/

/-- Whether an instruction changes the structure of a file in a way that no log may: it erases,
renames or moves a table or a column, removes a primary key or selects a nested descriptor. -/
def Instruction.isUnsupported : Instruction → Bool
  | eraseTable _ | renameTable .. | moveTable .. => true
  | eraseColumn _ | eraseLinkColumn _ | renameColumn .. | moveColumn .. => true
  | removePrimaryKey => true
  | selectDescriptor levels => levels != 0
  | _ => false

namespace SchemaGuard

/-- Such an instruction is refused by every guard, whatever it has read. -/
theorem read_of_isUnsupported (g : SchemaGuard) {i : Instruction} (h : i.isUnsupported) :
    (g.read i).2 = some .schemaMismatch := by
  cases i <;> simp_all [Instruction.isUnsupported, read]

/-- A guard refuses for one reason only. -/
theorem read_eq_schemaMismatch {g : SchemaGuard} {i : Instruction} {failure : Failure}
    (h : (g.read i).2 = some failure) : failure = .schemaMismatch := by
  unfold read at h
  split at h <;> first
    | (split at h <;> cases h; rfl)
    | (cases h; rfl)
    | cases h

theorem replay_eq_schemaMismatch {g : SchemaGuard} {log : Log} {failure : Failure}
    (h : (LogReader.replay g log).2 = some failure) : failure = .schemaMismatch :=
  LogReader.refusal_of_replay (fun _ _ _ => read_eq_schemaMismatch) (fun _ _ => nofun) h

theorem supported_of_feed {g : SchemaGuard} {log : Log} (h : (LogReader.feed g log).2 = none) :
    ∀ i ∈ log, i.isUnsupported = false := by
  induction log generalizing g with
  | nil => exact nofun
  | cons i rest ih =>
    obtain ⟨hread, hrest⟩ := LogReader.feed_cons_eq_none_iff.mp h
    refine List.forall_mem_cons.mpr ⟨?_, ih hrest⟩
    by_contra hbad
    cases hread.symm.trans (g.read_of_isUnsupported (Bool.of_not_eq_false hbad))

/-- Being told that a log is complete, a guard has nothing to say. -/
theorem replay_eq_feed (g : SchemaGuard) (log : Log) :
    LogReader.replay g log = LogReader.feed g log :=
  LogReader.replay_eq_feed_of_finish (fun _ => rfl) g log

theorem allows_iff {log : Log} : allows log ↔ (LogReader.replay fresh log).2 = none := by
  unfold allows LogReader.accepts
  exact Option.isNone_iff_eq_none

theorem supported_of_allows {log : Log} (h : allows log) : ∀ i ∈ log, i.isUnsupported = false := by
  rw [allows_iff, replay_eq_feed] at h
  exact supported_of_feed h

end SchemaGuard

/-! ## Ways -/

namespace File

/-- From one version of a file there is a way to another, in hops over stretches of logs that the
schema guard takes in. -/
structure Passable (f : File) (u v : Version) : Prop where
  le : u ≤ v
  latest : v ≤ f.latest
  hops : ∃ hops : List (List Log), hops.flatten = f.logsBetween u v ∧
    ∀ hop ∈ hops, SchemaGuard.allows hop.flatten

namespace Passable

variable {f f' : File} {u v x : Version}

theorem hop (hle : u ≤ v) (hlatest : v ≤ f.latest)
    (hallows : SchemaGuard.allows (f.logsBetween u v).flatten) : f.Passable u v :=
  ⟨hle, hlatest, [f.logsBetween u v], by simp, by simpa using hallows⟩

theorem refl (hlatest : v ≤ f.latest) : f.Passable v v :=
  ⟨Version.le_refl v, hlatest, [], by simp [logsBetween_self], nofun⟩

theorem trans (h : f.Passable u v) (h' : f.Passable v x) : f.Passable u x := by
  obtain ⟨hops, hflatten, hallows⟩ := h.hops
  obtain ⟨more, hflatten', hallows'⟩ := h'.hops
  refine ⟨Version.le_trans h.le h'.le, h'.latest, hops ++ more, ?_, fun hop hmem => ?_⟩
  · rw [List.flatten_append, hflatten, hflatten', logsBetween_append h.le h'.le]
  · exact (List.mem_append.mp hmem).elim (hallows hop) (hallows' hop)

theorem mono (h : f.Passable u v) (hcommits : f.commits <+: f'.commits) : f'.Passable u v := by
  refine ⟨h.le, Version.le_trans h.latest (latest_le_latest hcommits), ?_⟩
  rw [logsBetween_of_grown hcommits h.latest]
  exact h.hops

/-- No way leads over an unsupported instruction. -/
theorem supported (h : f.Passable u v) :
    ∀ log ∈ f.logsBetween u v, ∀ i ∈ log, i.isUnsupported = false := by
  obtain ⟨hops, hflatten, hallows⟩ := h.hops
  rw [← hflatten]
  intro log hlog i hi
  obtain ⟨hop, hhop, hlog⟩ := List.mem_flatten.mp hlog
  exact SchemaGuard.supported_of_allows (hallows hop hhop) i (List.mem_flatten_of_mem hlog hi)

end Passable

end File

end SnapshotCoordination
