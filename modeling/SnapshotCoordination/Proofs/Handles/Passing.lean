import Mathlib.Data.List.Induction
import SnapshotCoordination.Proofs.Handles.Keeping

/-!
# No handle crosses an unsupported change

A handle that is open was made by an open, and has since moved on its file only by ways that the
schema guard takes in. No such way leads over an instruction that changes the structure of the file
in a way that is not supported (`Instruction.isUnsupported`), so from the commit on that has one a
handle before it can no longer get to the latest version. It stays before that commit as long as it
is open.

* **`Moment.made_of_isOpen`** — how a handle came to be open;
* **`open_handle_passes`** — where it can have got since, and where it can get from here.
-/

namespace SnapshotCoordination

namespace Moment

theorem isOpen_of_onward {file : FileId → File} {x x' : Handle} (h : Handle.Onward file x x')
    (hopen : x'.isOpen) : x.isOpen := by
  unfold Handle.isOpen at *
  cases h with
  | closed hcursor hcoordinator =>
    rw [hcursor] at hopen
    cases hopen
  | kept hconfig hcoordinator hcursor => rwa [← hcursor]
  | moved f u v hconfig hcoordinator hfrom hto hpassable =>
    rw [hfrom]
    rfl

/-- A handle that is open was made at some point, and read the latest version then. -/
theorem made_of_isOpen {sections : List Section} {h : HandleId}
    (hopen : ((start.after sections).world.handle h).isOpen) :
    ∃ before c thread config rest, sections = before ++ .chore (.getHandle c thread config) :: rest ∧
      h = (start.after before).world.handles.size ∧
      (start.after before).world.Opens c thread config
        ((start.after before).perform (.chore (.getHandle c thread config))).world := by
  induction sections using List.reverseRecOn with
  | nil => cases hopen
  | append_singleton sections s ih =>
    have hlast : start.after (sections ++ [s]) = (start.after sections).perform s :=
      start.after_append sections [s]
    rw [hlast] at hopen
    -- either it was open before, or this section made it
    have hcase : ((start.after sections).world.handle h).isOpen ∨
        h = (start.after sections).world.handles.size ∧ ∃ c thread config,
          s = .chore (.getHandle c thread config) ∧ (start.after sections).world.Opens c thread
            config ((start.after sections).perform s).world := by
      rcases (start.after sections).onward_perform s with
        honward | ⟨c, thread, config, rfl, hopens⟩
      · exact .inl (isOpen_of_onward (honward.handle h) hopen)
      · by_cases hnew : h = (start.after sections).world.handles.size
        · exact .inr ⟨hnew, c, thread, config, rfl, hopens⟩
        · obtain ⟨f, -, hpushed⟩ := hopens
          rw [World.handle_push hpushed, if_neg hnew] at hopen
          exact .inl hopen
    rcases hcase with hopen | ⟨hnew, c, thread, config, rfl, hopens⟩
    · obtain ⟨before, c, thread, config, rest, rfl, hmade⟩ := ih hopen
      exact ⟨before, c, thread, config, rest ++ [s], by simp, hmade⟩
    · exact ⟨sections, c, thread, config, [], rfl, hnew, hopens⟩

end Moment

/-- A way leads over no later commit with an unsupported instruction. -/
theorem File.Passable.lt_of_isUnsupported {f : File} {u v : Version} (h : f.Passable u v) {n : Nat}
    {log : Log} (hn : u.number < n) (hlog : f.logOf n = some log)
    (hbad : ∃ i ∈ log, i.isUnsupported) : v.number < n := by
  by_contra hreached
  obtain ⟨i, hi, hbad⟩ := hbad
  have hmem : log ∈ f.logsBetween u v :=
    File.mem_logsBetween.mpr ⟨n, hn, Nat.le_of_not_lt hreached, hlog⟩
  rw [h.supported log hmem i hi] at hbad
  cases hbad

/-- **No open handle crosses an unsupported change.** Whatever went on in a process, the commits
between the version that an open handle was made at and the one it reads now fall into hops, each
of which the schema guard takes in as a whole. So none of them has an unsupported instruction, and
if a later commit has one, the handle never gets as far, as long as it is open. -/
theorem open_handle_passes {sections : List Section} {h : HandleId}
    (hopen : ((Moment.start.after sections).world.handle h).isOpen) :
    let w := (Moment.start.after sections).world
    ∃ before c thread config rest f opened current,
      sections = before ++ .chore (.getHandle c thread config) :: rest ∧
      h = (Moment.start.after before).world.handles.size ∧
      ((Moment.start.after (before ++ [.chore (.getHandle c thread config)])).world.handle h).cursor =
        some ⟨f, some opened⟩ ∧
      (w.handle h).cursor = some ⟨f, some current⟩ ∧ opened ≤ current ∧
      (∃ hops : List (List Log), hops.flatten = (w.file f).logsBetween opened current ∧
        ∀ hop ∈ hops, SchemaGuard.allows hop.flatten) ∧
      (∀ log ∈ (w.file f).logsBetween opened current, ∀ i ∈ log, i.isUnsupported = false) ∧
      ∀ n log, current.number < n → (w.file f).logOf n = some log →
        (∃ i ∈ log, i.isUnsupported) → ∀ more v,
        ((Moment.start.after (sections ++ more)).world.handle h).version? = some v →
        v.number < n := by
  intro w
  obtain ⟨before, c, thread, config, rest, hsplit, hh, f, -, hpushed⟩ :=
    Moment.made_of_isOpen hopen
  let made := (Moment.start.after before).perform (.chore (.getHandle c thread config))
  have hrest : Moment.start.after sections = made.after rest := by
    rw [hsplit, Moment.after_append]
    rfl
  have hcursor : (made.world.handle h).cursor = some ⟨f, some (made.world.file f).latest⟩ := by
    rw [World.handle_push hpushed, if_pos hh]
  have hsize : h < made.world.handles.size := by
    rw [hpushed, hh, Table.size_push]
    exact Nat.lt_succ_self _
  -- from there it has gone onward, and it has not been closed
  have honward := made.handle_after rest hsize
  rw [← hrest] at honward
  obtain ⟨cursor, hcurrent⟩ := Option.isSome_iff_exists.mp hopen
  have hlatest : (made.world.file f).latest ≤ (w.file f).latest := by
    show _ ≤ ((Moment.start.after sections).world.file f).latest
    rw [hrest]
    exact File.latest_le_latest (made.commits_after rest f)
  obtain ⟨current, rfl, hpassable⟩ := honward.passable hcursor hlatest hcurrent
  refine ⟨before, c, thread, config, rest, f, _, current, hsplit, hh, ?_, hcurrent, hpassable.le,
    hpassable.hops, hpassable.supported, ?_⟩
  · rw [Moment.after_append]
    exact hcursor
  · intro n log hn hlog hbad more v hv
    have hgrown := (Moment.start.after sections).commits_after more f
    have hstill : h < w.handles.size := by
      by_contra hnot
      have hnone : w.handle h = default := Table.get_of_size_le _ (Nat.le_of_not_lt hnot)
      change (w.handle h).cursor = _ at hcurrent
      rw [hnone] at hcurrent
      cases hcurrent
    have hthen := (Moment.start.after sections).handle_after more hstill
    rw [Moment.after_append] at hv
    obtain ⟨cursor, hcursor', hv⟩ := Option.bind_eq_some_iff.mp hv
    obtain ⟨v', rfl, hway⟩ := hthen.passable hcurrent
      (Version.le_trans hpassable.latest (File.latest_le_latest hgrown)) hcursor'
    obtain rfl : v' = v := Option.some_inj.mp hv
    refine hway.lt_of_isUnsupported hn ?_ hbad
    rw [← hlog]
    exact File.logOf_of_grown hgrown (File.le_latest_of_logOf hlog)

/-- A handle is opened, follows two commits one by one, and then a table is erased. -/
def erasedTable : List Section :=
  [.chore .makeEngine, .chore .makeRegistry, .chore (.getCoordinator 0 "/a"),
    .chore (.getHandle 0 none (.forFile "/a" 0)),
    .chore (.commit (.forFile "/a" 0) [.insertTable 0 "t"]), .chore (.moveHandle 0 none),
    .chore (.commit (.forFile "/a" 0) [.selectTable 0]), .chore (.moveHandle 0 (some ⟨3, 0⟩)),
    .chore (.commit (.forFile "/a" 0) [.eraseTable 0]), .chore (.moveHandle 0 none)]

/-- The handle is where the second commit left it, and never gets to the third one. -/
theorem open_handle_passes_erasedTable :
    let w := (Moment.start.after erasedTable).world
    (w.handle 0).isOpen ∧ (w.handle 0).cursor = some ⟨⟨0, "/a"⟩, some ⟨3, 0⟩⟩ ∧
      (w.file ⟨0, "/a"⟩).latest = ⟨4, 0⟩ ∧
      ∀ more v, ((Moment.start.after (erasedTable ++ more)).world.handle 0).version? = some v →
        v.number < 4 := by
  intro w
  have hopen : (w.handle 0).isOpen := by decide +kernel
  have hcursor : (w.handle 0).cursor = some ⟨⟨0, "/a"⟩, some ⟨3, 0⟩⟩ := by decide +kernel
  obtain ⟨-, -, -, -, -, f, -, current, -, -, -, hcurrent, -, -, -, hnever⟩ :=
    open_handle_passes hopen
  obtain ⟨rfl, rfl⟩ : f = ⟨0, "/a"⟩ ∧ current = ⟨3, 0⟩ := by
    simpa using hcurrent.symm.trans hcursor
  exact ⟨hopen, hcursor, by decide +kernel,
    hnever 4 [.eraseTable 0] (by decide) (by decide +kernel) ⟨_, List.mem_singleton_self _, rfl⟩⟩

end SnapshotCoordination
