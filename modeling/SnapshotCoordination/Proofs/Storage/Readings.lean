import SnapshotCoordination.Proofs.Coordination.Cursors
import SnapshotCoordination.Proofs.Storage.Histories
import SnapshotCoordination.Storage.Bench

/-!
# What cursors read

Commits and any number of cursors work on the files of one engine, in any order. The history of a
path is what was committed under its key, whatever spelling was used, and nothing else. A cursor
reads a version of the history of its path, and an advance that feeds a reader feeds it exactly the
logs of the commits in between.

* **`Bench.Plays`** — what is done at a bench, with the answers;
* **`Cursor.follow_fails_iff`** — when an advance fails;
* **`cursors_read_history`** — what a cursor of any such row of commands is fed, and where it goes.
-/

namespace SnapshotCoordination

/-! ## One advance -/

/-- The logs that lead from one version of a history to another. Version `n` reflects `n - 1` commits,
so the log behind version `n` is the one at place `n - 2`. -/
def logsOnTheWay (history : List Log) (u v : Version) : List Log :=
  (history.drop (u.number - 1)).take (v.number - u.number)

theorem File.logsBetween_eq_onTheWay {f : File} {u v : Version} (hu : 1 ≤ u.number)
    (hv : v ≤ f.latest) : f.logsBetween u v = logsOnTheWay f.commits u v := by
  rw [File.logsBetween_eq hv, logsOnTheWay, List.drop_take]
  congr 1
  omega

namespace Cursor

variable {f : File} {c moved : Cursor} {asked : Option Version}

/-- An advance has nowhere to go: nothing is read, or the target is before what is read, or there is
no such version yet. -/
def Barred (c : Cursor) (latest target : Version) : Prop :=
  c.current = none ∨ (∃ u, c.current = some u ∧ target < u) ∨ latest < target

/-- Where a cursor is not barred, it has a way from the version it reads. -/
theorem of_not_barred {latest target : Version} (h : ¬ c.Barred latest target) :
    ∃ u, c.current = some u ∧ u ≤ target ∧ target ≤ latest := by
  unfold Barred at h
  simp only [not_or, not_exists, not_and] at h
  obtain ⟨hreading, hback, hmissing⟩ := h
  obtain ⟨u, hu⟩ := Option.ne_none_iff_exists'.mp hreading
  exact ⟨u, hu, Version.not_lt.mp (hback u hu), Version.not_lt.mp hmissing⟩

/-- A barred cursor has no route. -/
theorem route_of_barred (h : c.Barred f.latest (asked.getD f.latest)) :
    ∃ failure, c.route f asked = .error failure := by
  unfold route
  rcases h with hnone | ⟨u, hu, hback⟩ | hmissing
  · simp [hnone]
  · simp [hu, hback]
  · cases hu : c.current with
    | none => simp
    | some u => by_cases hback : asked.getD f.latest < u <;> simp [hback, hmissing]

/-- A silent advance fails exactly where the cursor is barred. -/
theorem advance_fails_iff : (∃ failure, c.advance f asked = .error failure) ↔
    c.Barred f.latest (asked.getD f.latest) := by
  constructor
  · rintro ⟨failure, hfailed⟩
    by_contra hfree
    obtain ⟨u, hu, hle, hlatest⟩ := of_not_barred hfree
    rw [advance_of_le hu hle hlatest] at hfailed
    cases hfailed
  · intro hbarred
    obtain ⟨failure, hroute⟩ := route_of_barred hbarred
    exact ⟨failure, by rw [advance, hroute]⟩

/-- An advance that feeds a reader fails exactly where the cursor is barred, or where the reader
refuses the logs on the way. -/
theorem follow_fails_iff {σ : Type} [LogReader σ] {reader : σ} :
    (∃ failure, (c.follow f asked reader).outcome = .error failure) ↔
      c.Barred f.latest (asked.getD f.latest) ∨ ∃ u failure, c.current = some u ∧
        (LogReader.replay reader (f.logsBetween u (asked.getD f.latest)).flatten).2 =
          some failure := by
  by_cases hbarred : c.Barred f.latest (asked.getD f.latest)
  · obtain ⟨failure, hroute⟩ := route_of_barred hbarred
    simp [follow, hroute, hbarred]
  · obtain ⟨u, hu, hle, hlatest⟩ := of_not_barred hbarred
    rw [follow_of_le reader hu hle hlatest]
    simp only [hbarred, hu, false_or, Option.some.injEq]
    cases hread : (LogReader.replay reader (f.logsBetween u (asked.getD f.latest)).flatten).2 <;>
      simp [hread]

/-- An advance that succeeds has fed the reader every log on the way, and then told it once that
they are complete. -/
theorem follow_feeds {σ : Type} [LogReader σ] {reader : σ}
    (h : (c.follow f asked reader).outcome = .ok moved) :
    moved = { c with current := some (asked.getD f.latest) } ∧
      ∃ u fed, c.current = some u ∧ u ≤ asked.getD f.latest ∧ asked.getD f.latest ≤ f.latest ∧
        LogReader.feed reader (f.logsBetween u (asked.getD f.latest)).flatten = (fed, none) ∧
        LogReader.finish fed = ((c.follow f asked reader).reader, none) := by
  obtain ⟨u, hu, hle, hlatest, haccepted⟩ := follow_eq_ok h
  rw [follow_of_le reader hu hle hlatest] at h ⊢
  dsimp only at h ⊢
  rw [haccepted] at h
  refine ⟨(Except.ok.inj h).symm, u, ?_⟩
  unfold LogReader.replay at haccepted ⊢
  split at haccepted
  · next fed hfed =>
    rw [hfed]
    exact ⟨fed, hu, hle, hlatest, rfl, Prod.ext rfl haccepted⟩
  · cases haccepted

end Cursor

/-- A tape that takes in a log keeps all of it, after what it has. -/
theorem LogTape.feed_eq {t t' : LogTape} {log : Log} (h : LogReader.feed t log = (t', none)) :
    t' = { t with log := t.log ++ log } := by
  induction log generalizing t with
  | nil => simpa [LogReader.feed] using (congrArg Prod.fst h).symm
  | cons i log ih =>
    unfold LogReader.feed at h
    by_cases hfail : t.failAt = some t.log.length
    · simp [LogReader.read, hfail] at h
    · simp only [LogReader.read, hfail, if_false] at h
      simpa using ih h

/-- A new tape that takes in a replay shows the log it was fed, once complete. -/
theorem LogTape.replay_fresh {failAt : Option Nat} {failEnd : Bool} {log : Log}
    (h : (LogReader.replay (⟨[], 0, failAt, failEnd⟩ : LogTape) log).2 = none) :
    (LogReader.replay (⟨[], 0, failAt, failEnd⟩ : LogTape) log).1 = ⟨log, 1, failAt, failEnd⟩ := by
  unfold LogReader.replay at h ⊢
  split at h
  · next t hfed => simp [LogTape.feed_eq hfed, LogReader.finish]
  · cases h

namespace Bench

variable {b b₁ b' : Bench} {command : Command} {answer : Answer}
  {steps more : List (Command × Answer)}

/-! ## Commands and answers -/

/-- A bench goes from one state to another, one command after the other, each with its answer. -/
inductive Plays : Bench → List (Command × Answer) → Bench → Prop
  | refl (b : Bench) : Plays b [] b
  | step {b b₁ b' : Bench} {command : Command} {answer : Answer} {steps : List (Command × Answer)}
      (first : b.perform command = some (b₁, answer)) (rest : Plays b₁ steps b') :
      Plays b ((command, answer) :: steps) b'

/-- What a run answers is what is answered on the way to some state. -/
theorem run?_eq_some_iff {commands : List Command} {answers : List Answer} :
    b.run? commands = some answers ↔
      ∃ steps b', Plays b steps b' ∧ steps.unzip = (commands, answers) := by
  induction commands generalizing b answers with
  | nil =>
    constructor
    · intro h
      cases h
      exact ⟨[], b, .refl b, rfl⟩
    · rintro ⟨steps, b', -, hsteps⟩
      cases steps <;> simp_all [run?]
  | cons command commands ih =>
    constructor
    · intro h
      obtain ⟨⟨b₁, answer⟩, hfirst, h⟩ := Option.bind_eq_some_iff.mp h
      obtain ⟨answers, hrest, h⟩ := Option.bind_eq_some_iff.mp h
      cases h
      obtain ⟨steps, b', hplays, hsteps⟩ := ih.mp hrest
      exact ⟨(command, answer) :: steps, b', .step hfirst hplays, by simp [hsteps]⟩
    · rintro ⟨steps, b', hplays, hsteps⟩
      cases hplays with
      | refl => simp at hsteps
      | step first rest =>
        simp only [List.unzip_cons, Prod.mk.injEq, List.cons.injEq] at hsteps
        obtain ⟨⟨rfl, hcommands⟩, rfl⟩ := hsteps
        have hrest := ih.mpr ⟨_, b', rest, Prod.ext hcommands rfl⟩
        simp [run?, first, hrest]

/-- What holds at first, and after one more command, holds after any row of them. -/
theorem Plays.preserves {P : List (Command × Answer) → Bench → Prop} (h : Plays b steps b')
    (start : P [] b)
    (next : ∀ before b₁ b₂ command answer, P before b₁ →
      b₁.perform command = some (b₂, answer) → P (before ++ [(command, answer)]) b₂) :
    P steps b' := by
  induction h generalizing P with
  | refl => exact start
  | @step b b₁ b' command answer steps first rest ih =>
    -- the rest is told with the first command before it
    exact ih (P := fun after => P ((command, answer) :: after)) (next [] b b₁ _ _ start first)
      fun before => next ((command, answer) :: before)

/-- The log that a command commits under a key, if it commits one there. -/
def Command.committed? (key : String) : Command → Option Log
  | .commit path log => if FilePath.key path = key then some log else none
  | _ => none

/-- The logs committed under a key, oldest first. -/
def committedTo (key : String) (steps : List (Command × Answer)) : List Log :=
  steps.filterMap fun step => step.1.committed? key

/-- The path that a cursor of the name was opened on, if one was. -/
def opened? (name : String) : Command × Answer → Option String
  | (.openCursor n path, .done) => if n = name then some path else none
  | _ => none

/-- The path that a cursor of the name was last opened on. -/
def openedOn? (name : String) (steps : List (Command × Answer)) : Option String :=
  (steps.filterMap (opened? name)).getLast?

/-- What a tape shows that a cursor of the name was advanced with. -/
def taped (name : String) : Command × Answer → Log
  | (.advance n _ _, .cursor (some (.ok _)) (.tape log _) _) => if n = name then log else []
  | _ => []

/-- A command that sets a cursor of the name anew. -/
def Command.restarts (name : String) : Command → Bool
  | .openCursor n _ | .beginRead n _ => n = name
  | _ => false

/-- A command that feeds a tape if it advances a cursor of the name. -/
def Command.onTape (name : String) : Command → Bool
  | .advance _ _ (.tape ..) => true
  | .advance n _ _ => n ≠ name
  | _ => true

theorem Command.eq_tape_of_onTape {name : String} {asked : Option Version} {reader : Reader}
    (h : (Command.advance name asked reader).onTape name) :
    ∃ failAt failEnd, reader = .tape failAt failEnd := by
  cases reader <;> simp_all [onTape]

/-! ## One command -/

/-- Two benches have the same histories. -/
def SameHistories (b b' : Bench) : Prop :=
  ∀ key, (b'.engine.file key).commits = (b.engine.file key).commits

namespace SameHistories

theorem refl (b : Bench) : SameHistories b b := fun _ => rfl

theorem trans (h : SameHistories b b₁) (h' : SameHistories b₁ b') : SameHistories b b' :=
  fun key => (h' key).trans (h key)

/-- A file is put back with the same commits. -/
theorem setFile {key : String} {f : File} (hb' : b'.engine = b.engine.setFile key f)
    (hf : f.commits = (b.engine.file key).commits) : SameHistories b b' := by
  intro k
  rw [hb', Engine.file_setFile]
  split
  · next h => rw [hf, h]
  · rfl

end SameHistories

/-- What a command does to the histories and the cursors of a bench. -/
inductive Effect (b : Bench) : Command → Answer → Bench → Prop
  | committed {path : String} {log : Log} {b' : Bench}
      (commits : ∀ key, (b'.engine.file key).commits =
        (b.engine.file key).commits ++ ((Command.commit path log).committed? key).toList)
      (cursors : b'.cursors = b.cursors) :
      Effect b (.commit path log)
        (.version ⟨(b.engine.file (FilePath.key path)).commits.length + 2, 0⟩) b'
  | opened {name path : String} {b' : Bench} (same : SameHistories b b')
      (cursors : b'.cursors = b.cursors.set name (.onFile ⟨0, FilePath.key path⟩)) :
      Effect b (.openCursor name path) .done b'
  | begun {name : String} {asked : Option Version} {c : Cursor} {v : Version} {b' : Bench}
      (found : b.cursors.find? name = some c) (proper : 1 ≤ v.number)
      (latest : v ≤ (b.fileOf c).latest) (same : SameHistories b b')
      (cursors : b'.cursors = b.cursors.set name { c with current := some v }) :
      Effect b (.beginRead name asked) (.cursor (some (.ok v)) .nothing (some v)) b'
  | ended {name : String} {c : Cursor} {b' : Bench} (found : b.cursors.find? name = some c)
      (same : SameHistories b b') (cursors : b'.cursors = b.cursors.set name c.endRead) :
      Effect b (.endRead name) (.cursor none .nothing none) b'
  | moved {name : String} {asked : Option Version} {reader : Reader} {c : Cursor} {u v : Version}
      {seen : Seen} {b' : Bench} (found : b.cursors.find? name = some c)
      (current : c.current = some u) (le : u ≤ v) (latest : v ≤ (b.fileOf c).latest)
      (target : asked.getD (b.fileOf c).latest = v)
      (tape : ∀ failAt failEnd, reader = .tape failAt failEnd →
        seen = .tape ((b.fileOf c).logsBetween u v).flatten 1)
      (same : SameHistories b b')
      (cursors : b'.cursors = b.cursors.set name { c with current := some v }) :
      Effect b (.advance name asked reader) (.cursor (some (.ok v)) seen (some v)) b'
  | stuck {name : String} {asked : Option Version} {reader : Reader} {c : Cursor}
      {failure : Failure} {seen : Seen} {b' : Bench} (found : b.cursors.find? name = some c)
      (same : SameHistories b b') (cursors : b'.cursors = b.cursors) :
      Effect b (.advance name asked reader) (.cursor (some (.error failure)) seen c.current) b'
  | quiet {command : Command} {answer : Answer} {b' : Bench}
      (uncommitted : ∀ key, command.committed? key = none)
      (unopened : ∀ name, opened? name (command, answer) = none)
      (notAdvance : ∀ name asked reader, command ≠ .advance name asked reader)
      (same : SameHistories b b') (cursors : b'.cursors = b.cursors) : Effect b command answer b'

theorem effect_commit (b : Bench) (path : String) (log : Log) :
    Effect b (.commit path log) (.version (b.engine.commit path log).2)
      { b with engine := (b.engine.commit path log).1 } := by
  have hversion : (b.engine.commit path log).2 =
      ⟨(b.engine.file (FilePath.key path)).commits.length + 2, 0⟩ := by
    simp [Engine.commit, File.commit, File.latest]
  rw [hversion]
  refine .committed (fun key => ?_) rfl
  simp only [Engine.commit, Engine.file_setFile, Command.committed?]
  by_cases hkey : FilePath.key path = key
  · simp [hkey, File.commit]
  · simp [hkey, Ne.symm hkey]

theorem effect_openCursor (b : Bench) (name path : String) :
    Effect b (.openCursor name path) (b.openCursor name path).2 (b.openCursor name path).1 := by
  unfold openCursor Engine.openCursor
  by_cases hfail : b.engine.cursorsFail
  · rw [if_pos hfail]
    exact .quiet (fun _ => rfl) (fun _ => rfl) nofun (.refl b) rfl
  · rw [if_neg hfail]
    exact .opened (.setFile rfl rfl) rfl

theorem effect_beginRead {name : String} {c : Cursor} (hfound : b.cursors.find? name = some c)
    (asked : Option Version) : Effect b (.beginRead name asked) (b.beginRead name c asked).2
      (b.beginRead name c asked).1 := by
  unfold beginRead Cursor.beginRead
  dsimp only
  by_cases hbad : (asked.getD (b.fileOf c).latest).isUnset ∨
      (b.fileOf c).latest < asked.getD (b.fileOf c).latest
  · rw [if_pos hbad]
    exact .quiet (fun _ => rfl) (fun _ => rfl) nofun (.refl b) rfl
  · rw [if_neg hbad]
    rw [not_or] at hbad
    refine .begun hfound ?_ (Version.not_lt.mp hbad.2) (.refl b) rfl
    have hset := hbad.1
    simp only [Version.isUnset, beq_iff_eq] at hset
    omega

/-- An advance that feeds a reader, of whatever kind. -/
theorem effect_follow {σ : Type} [LogReader σ] {name : String} {c : Cursor}
    (hfound : b.cursors.find? name = some c) (asked : Option Version) (reader : Reader)
    (state : σ) (shown : σ → Seen)
    (htape : ∀ failAt failEnd, reader = .tape failAt failEnd → ∀ log,
      (LogReader.replay state log).2 = none → shown (LogReader.replay state log).1 = .tape log 1) :
    Effect b (.advance name asked reader) (b.follow name c asked state shown).2
      (b.follow name c asked state shown).1 := by
  have hfile : (c.follow (b.fileOf c) asked state).file.commits = (b.fileOf c).commits := by
    unfold Cursor.follow
    split
    · rfl
    · split <;> rfl
  unfold follow
  dsimp only
  cases houtcome : (c.follow (b.fileOf c) asked state).outcome with
  | error failure => exact .stuck hfound (.setFile rfl hfile) rfl
  | ok moved =>
    obtain ⟨u, hu, hle, hlatest, haccepted⟩ := Cursor.follow_eq_ok houtcome
    have hreader := Cursor.follow_of_le state hu hle hlatest
    obtain ⟨rfl, -⟩ := Cursor.follow_feeds houtcome
    refine .moved hfound hu hle hlatest rfl (fun failAt failEnd hreader' => ?_)
      (.setFile rfl hfile) rfl
    rw [hreader]
    exact htape failAt failEnd hreader' _ haccepted

theorem effect_advance {name : String} {c : Cursor} (hfound : b.cursors.find? name = some c)
    (asked : Option Version) (reader : Reader) :
    Effect b (.advance name asked reader) (b.advance name c asked reader).2
      (b.advance name c asked reader).1 := by
  cases reader with
  | nobody =>
    unfold advance
    dsimp only
    by_cases hbarred : c.Barred (b.fileOf c).latest (asked.getD (b.fileOf c).latest)
    · obtain ⟨failure, hfailed⟩ := Cursor.advance_fails_iff.mpr hbarred
      rw [hfailed]
      exact .stuck hfound (.refl b) rfl
    · obtain ⟨u, hu, hle, hlatest⟩ := Cursor.of_not_barred hbarred
      rw [Cursor.advance_of_le hu hle hlatest]
      exact .moved hfound hu hle hlatest rfl nofun (.refl b) rfl
  | tape failAt failEnd =>
    refine effect_follow hfound asked _ (⟨[], 0, failAt, failEnd⟩ : LogTape) _ ?_
    intro failAt' failEnd' _ log haccepted
    rw [LogTape.replay_fresh haccepted]
  | counter => exact effect_follow hfound asked _ (⟨0⟩ : InstructionCounter) _ nofun
  | guard => exact effect_follow hfound asked _ SchemaGuard.fresh _ nofun
  | recorder observed => exact effect_follow hfound asked _ (ChangeRecorder.observing observed) _ nofun

theorem sameHistories_dropNotifier (b : Bench) (n : Notifier) : SameHistories b (b.dropNotifier n) :=
  .setFile rfl rfl

theorem effect_listen (b : Bench) (listener notifier path : String) :
    Effect b (.listen listener notifier path) (b.listen listener notifier path).2
      (b.listen listener notifier path).1 := by
  have hfor : (b.listenerFor listener).1.engine = b.engine ∧
      (b.listenerFor listener).1.cursors = b.cursors := by
    unfold listenerFor
    split <;> exact ⟨rfl, rfl⟩
  unfold listen
  dsimp only
  generalize b.listenerFor listener = listened at hfor
  obtain ⟨b₁, l⟩ := listened
  obtain ⟨hengine, hcursors⟩ := hfor
  dsimp only at hengine hcursors ⊢
  have hsame : SameHistories b b₁ := fun key => by rw [hengine]
  unfold Engine.listen
  by_cases hfail : b₁.engine.notifiersFail
  · rw [if_pos hfail]
    exact .quiet (fun _ => rfl) (fun _ => rfl) nofun hsame hcursors
  · rw [if_neg hfail]
    dsimp only
    generalize hb₂ : Bench.mk (b₁.engine.setFile _ _) _ _ _ _ = b₂
    have hlistening : SameHistories b₁ b₂ := by
      refine .setFile (congrArg Bench.engine hb₂).symm ?_
      rfl
    have hcursors₂ : b₂.cursors = b.cursors := by rw [← hb₂, ← hcursors]
    cases b₁.notifiers.find? notifier with
    | none =>
      exact .quiet (fun _ => rfl) (fun _ => rfl) nofun (hsame.trans hlistening) hcursors₂
    | some old =>
      have hdropped := hlistening.trans (b₂.sameHistories_dropNotifier old)
      exact .quiet (fun _ => rfl) (fun _ => rfl) nofun (hsame.trans hdropped) hcursors₂

/-- What any command does. -/
theorem effect_perform (h : b.perform command = some (b', answer)) :
    Effect b command answer b' := by
  cases command with
  | commit path log =>
    cases h
    exact b.effect_commit path log
  | latest path | stats path =>
    cases h
    exact .quiet (fun _ => rfl) (fun _ => rfl) nofun (.setFile rfl rfl) rfl
  | failCursors on | failNotifiers on | describe =>
    cases h
    exact .quiet (fun _ => rfl) (fun _ => rfl) nofun (.refl b) rfl
  | openCursor name path =>
    have heffect := b.effect_openCursor name path
    rwa [Option.some.inj h] at heffect
  | beginRead name asked =>
    obtain ⟨c, hfound, h⟩ := Option.map_eq_some_iff.mp h
    have heffect := effect_beginRead hfound asked
    rwa [h] at heffect
  | endRead name =>
    obtain ⟨c, hfound, h⟩ := Option.map_eq_some_iff.mp h
    cases h
    exact .ended hfound (.refl b) rfl
  | look name =>
    obtain ⟨c, -, h⟩ := Option.map_eq_some_iff.mp h
    cases h
    exact .quiet (fun _ => rfl) (fun _ => rfl) nofun (.refl b) rfl
  | advance name asked reader =>
    obtain ⟨c, hfound, h⟩ := Option.map_eq_some_iff.mp h
    have heffect := effect_advance hfound asked reader
    rwa [h] at heffect
  | listen listener notifier path =>
    have heffect := b.effect_listen listener notifier path
    rwa [Option.some.inj h] at heffect
  | dropListener name =>
    unfold perform at h
    dsimp only at h
    split at h <;> cases h <;>
      exact .quiet (fun _ => rfl) (fun _ => rfl) nofun (.refl b) rfl
  | dropNotifier name =>
    unfold perform at h
    dsimp only at h
    split at h <;> cases h
    · exact .quiet (fun _ => rfl) (fun _ => rfl) nofun (.refl b) rfl
    · exact .quiet (fun _ => rfl) (fun _ => rfl) nofun (sameHistories_dropNotifier _ _) rfl
  | notify name =>
    obtain ⟨n, -, h⟩ := Option.map_eq_some_iff.mp h
    cases h
    exact .quiet (fun _ => rfl) (fun _ => rfl) nofun (.setFile rfl rfl) rfl

/-- An advance either fails and leaves every cursor where it is, or puts its own at the target. -/
theorem advance_outcome {name : String} {c : Cursor} {asked : Option Version} {reader : Reader}
    (hfound : b.cursors.find? name = some c)
    (h : b.perform (.advance name asked reader) = some (b', answer)) :
    (∃ failure seen, answer = .cursor (some (.error failure)) seen c.current ∧
      b'.cursors = b.cursors) ∨
    ∃ seen, answer = .cursor (some (.ok (asked.getD (b.fileOf c).latest))) seen
        (some (asked.getD (b.fileOf c).latest)) ∧
      b'.cursors = b.cursors.set name
        { c with current := some (asked.getD (b.fileOf c).latest) } := by
  cases effect_perform h with
  | stuck found same cursors =>
    obtain rfl := Option.some.inj (hfound.symm.trans found)
    exact .inl ⟨_, _, rfl, cursors⟩
  | moved found current le latest target tape same cursors =>
    obtain rfl := Option.some.inj (hfound.symm.trans found)
    rw [target]
    exact .inr ⟨_, rfl, cursors⟩
  | quiet uncommitted unopened notAdvance same cursors =>
    exact absurd rfl (notAdvance name asked reader)

/-! ## Rows of commands -/

theorem Plays.trans (h : Plays b steps b₁) (h' : Plays b₁ more b') : Plays b (steps ++ more) b' := by
  induction h with
  | refl => exact h'
  | step first rest ih => exact .step first (ih h')

/-- A row of commands can be cut anywhere. -/
theorem Plays.of_append (h : Plays b (steps ++ more) b') :
    ∃ b₁, Plays b steps b₁ ∧ Plays b₁ more b' := by
  induction steps generalizing b with
  | nil => exact ⟨b, .refl b, h⟩
  | cons step steps ih =>
    cases h with
    | step first rest =>
      obtain ⟨b₁, hsteps, hmore⟩ := ih rest
      exact ⟨b₁, .step first hsteps, hmore⟩

theorem Effect.commits (h : Effect b command answer b') (key : String) :
    (b'.engine.file key).commits =
      (b.engine.file key).commits ++ (command.committed? key).toList := by
  cases h with
  | committed commits cursors => exact commits key
  | quiet uncommitted unopened notAdvance same cursors => simp [uncommitted key, same key]
  | opened same cursors => simp [Command.committed?, same key]
  | begun found proper latest same cursors => simp [Command.committed?, same key]
  | ended found same cursors => simp [Command.committed?, same key]
  | moved found current le latest target tape same cursors => simp [Command.committed?, same key]
  | stuck found same cursors => simp [Command.committed?, same key]

/-- A row of commands adds to the history of a key what they commit there, in order. -/
theorem Plays.commits (h : Plays b steps b') (key : String) :
    (b'.engine.file key).commits = (b.engine.file key).commits ++ committedTo key steps := by
  induction h with
  | refl => simp [committedTo]
  | @step b b₁ b' command answer steps first rest ih =>
    rw [ih, (effect_perform first).commits key, List.append_assoc]
    congr 1
    cases hcommitted : command.committed? key <;> simp [committedTo, hcommitted]

/-- The history of a key is what was committed to it. -/
theorem Plays.history (h : Plays .fresh steps b) (key : String) :
    (b.engine.file key).commits = committedTo key steps := by
  rw [h.commits key]
  rfl

/-- A commit answers the version that it makes. -/
theorem Plays.commit_answer {path : String} {log : Log}
    (h : Plays .fresh (steps ++ (.commit path log, answer) :: more) b) :
    answer = .version ⟨(committedTo (FilePath.key path) steps).length + 2, 0⟩ := by
  obtain ⟨b₁, hsteps, hmore⟩ := h.of_append
  cases hmore with
  | step first rest =>
    cases effect_perform first with
    | committed commits cursors => rw [hsteps.history]
    | quiet uncommitted unopened notAdvance same cursors =>
      simpa [Command.committed?] using uncommitted (FilePath.key path)

theorem openedOn?_concat (name : String) (steps : List (Command × Answer))
    (step : Command × Answer) :
    openedOn? name (steps ++ [step]) = (opened? name step).or (openedOn? name steps) := by
  cases hopened : opened? name step <;> simp [openedOn?, hopened]

/-- A cursor is on the file of the path that its name was last opened on, and reads a version of
that file. -/
structure Placed (name : String) (steps : List (Command × Answer)) (b : Bench) (c : Cursor) :
    Prop where
  opened : ∃ path, openedOn? name steps = some path ∧ c.file = ⟨0, FilePath.key path⟩
  proper : ∀ v, c.current = some v → 1 ≤ v.number
  latest : ∀ v, c.current = some v → v ≤ (b.fileOf c).latest

namespace Placed

variable {name : String} {step : Command × Answer} {c : Cursor}

/-- A cursor stays placed while other things are done. -/
theorem kept (h : Placed name steps b c) (hunopened : opened? name step = none)
    (hgrown : ∀ key, (b.engine.file key).commits <+: (b'.engine.file key).commits) :
    Placed name (steps ++ [step]) b' c where
  opened := by rw [openedOn?_concat, hunopened]; exact h.opened
  proper := h.proper
  latest v hv := Version.le_trans (h.latest v hv) (File.latest_le_latest (hgrown _))

/-- A cursor that is placed can be put at any version of its file. -/
theorem put {v : Version} (h : Placed name steps b c) (hproper : 1 ≤ v.number)
    (hlatest : v ≤ (b.fileOf c).latest) : Placed name steps b { c with current := some v } where
  opened := h.opened
  proper _ hv := Option.some.inj hv ▸ hproper
  latest _ hv := Option.some.inj hv ▸ hlatest

theorem endRead (h : Placed name steps b c) : Placed name steps b c.endRead :=
  ⟨h.opened, nofun, nofun⟩

/-- One more command leaves every cursor placed. -/
theorem next (h : ∀ name c, b.cursors.find? name = some c → Placed name steps b c)
    (heffect : Effect b command answer b') (name : String) (c : Cursor)
    (hfound : b'.cursors.find? name = some c) :
    Placed name (steps ++ [(command, answer)]) b' c := by
  have hgrown : ∀ key, (b.engine.file key).commits <+: (b'.engine.file key).commits :=
    fun key => ⟨_, (heffect.commits key).symm⟩
  -- a command that puts a cursor under one name leaves those of the other names
  have hset : ∀ n c', b'.cursors = b.cursors.set n c' → opened? name (command, answer) = none →
      Placed n steps b c' → Placed name (steps ++ [(command, answer)]) b' c := by
    intro n c' hcursors hunopened hplaced
    rw [hcursors, Directory.find?_set] at hfound
    by_cases hname : name = n
    · rw [if_pos hname] at hfound
      cases hfound
      exact (hname ▸ hplaced).kept hunopened hgrown
    · rw [if_neg hname] at hfound
      exact (h name c hfound).kept hunopened hgrown
  cases heffect with
  | committed commits cursors =>
    rw [cursors] at hfound
    exact (h name c hfound).kept rfl hgrown
  | stuck found same cursors =>
    rw [cursors] at hfound
    exact (h name c hfound).kept rfl hgrown
  | quiet uncommitted unopened notAdvance same cursors =>
    rw [cursors] at hfound
    exact (h name c hfound).kept (unopened name) hgrown
  | begun found proper latest same cursors =>
    exact hset _ _ cursors rfl ((h _ _ found).put proper latest)
  | ended found same cursors => exact hset _ _ cursors rfl (h _ _ found).endRead
  | moved found current le latest target tape same cursors =>
    have hplaced := h _ _ found
    have hproper := hplaced.proper _ current
    refine hset _ _ cursors rfl (hplaced.put ?_ latest)
    rw [Version.le_def] at le
    omega
  | @opened n path b' same cursors =>
    by_cases hname : n = name
    · rw [cursors, Directory.find?_set, if_pos hname.symm] at hfound
      cases hfound
      exact ⟨⟨path, by simp [openedOn?_concat, opened?, hname], rfl⟩, nofun, nofun⟩
    · rw [cursors, Directory.find?_set, if_neg (Ne.symm hname)] at hfound
      exact (h name c hfound).kept (by simp [opened?, hname]) hgrown

end Placed

namespace Placed

variable {name : String} {c moved : Cursor} {σ : Type} [LogReader σ] {reader : σ}
  {asked : Option Version}

/-- A cursor that is placed has a log for every version on its way. -/
theorem logsBetween {u v : Version} (h : Placed name steps b c) (hu : c.current = some u)
    (hv : v ≤ (b.fileOf c).latest) :
    (b.fileOf c).logsBetween u v = logsOnTheWay (b.fileOf c).commits u v :=
  File.logsBetween_eq_onTheWay (h.proper u hu) hv

/-- When an advance of a cursor that is placed fails, by the history of its path. -/
theorem follow_fails_iff (h : Placed name steps b c) :
    (∃ failure, (c.follow (b.fileOf c) asked reader).outcome = .error failure) ↔
      c.Barred (b.fileOf c).latest (asked.getD (b.fileOf c).latest) ∨
        ∃ u failure, c.current = some u ∧ (LogReader.replay reader (logsOnTheWay
          (b.fileOf c).commits u (asked.getD (b.fileOf c).latest)).flatten).2 = some failure := by
  by_cases hbarred : c.Barred (b.fileOf c).latest (asked.getD (b.fileOf c).latest)
  · exact iff_of_true (Cursor.follow_fails_iff.mpr (.inl hbarred)) (.inl hbarred)
  · -- only now is the way known to end at a version that there is
    obtain ⟨u, hu, hle, hlatest⟩ := Cursor.of_not_barred hbarred
    refine Cursor.follow_fails_iff.trans (or_congr Iff.rfl ?_)
    refine exists_congr fun u' => exists_congr fun failure => and_congr_right fun hu' => ?_
    rw [h.logsBetween hu' hlatest]

/-- What an advance of a cursor that is placed feeds, by the history of its path. -/
theorem follow_feeds (h : Placed name steps b c)
    (hmoved : (c.follow (b.fileOf c) asked reader).outcome = .ok moved) :
    moved = { c with current := some (asked.getD (b.fileOf c).latest) } ∧
      ∃ u fed, c.current = some u ∧
        LogReader.feed reader (logsOnTheWay (b.fileOf c).commits u
          (asked.getD (b.fileOf c).latest)).flatten = (fed, none) ∧
        LogReader.finish fed = ((c.follow (b.fileOf c) asked reader).reader, none) := by
  obtain ⟨rfl, u, fed, hu, hle, hlatest, hfed, hfinish⟩ := Cursor.follow_feeds hmoved
  rw [h.logsBetween hu hlatest] at hfed
  exact ⟨rfl, u, fed, hu, hfed, hfinish⟩

end Placed

/-- Every cursor of a row of commands is placed. -/
theorem Plays.placed (h : Plays .fresh steps b) (name : String) (c : Cursor)
    (hfound : b.cursors.find? name = some c) : Placed name steps b c := by
  have hall : ∀ name c, b.cursors.find? name = some c → Placed name steps b c := by
    refine h.preserves (P := fun steps b => ∀ name c, b.cursors.find? name = some c →
      Placed name steps b c) nofun ?_
    intro before b₁ b₂ command answer hbefore hperform
    exact Placed.next hbefore (effect_perform hperform)
  exact hall name c hfound

/-- What has become of a cursor, where no command set the name anew: it is on the same file, and has
only gone forward. If it fed tapes on all its way, these show the logs of that way. -/
structure Since (name : String) (c : Cursor) (more : List (Command × Answer)) (b' : Bench)
    (c' : Cursor) : Prop where
  file : c'.file = c.file
  onward : ∀ v', c'.current = some v' → ∃ v, c.current = some v ∧ v ≤ v' ∧
    ((∀ step ∈ more, step.1.onTape name) →
      more.flatMap (taped name) = ((b'.fileOf c').logsBetween v v').flatten)

namespace Since

variable {name : String} {c c₁ : Cursor} {before : List (Command × Answer)}

/-- A cursor that a command leaves alone stays where it was. -/
theorem kept (h : Since name c before b₁ c₁) (htaped : taped name (command, answer) = [])
    (hlatest : ∀ v, c₁.current = some v → v ≤ (b₁.fileOf c₁).latest)
    (hgrown : (b₁.fileOf c₁).commits <+: (b'.fileOf c₁).commits) :
    Since name c (before ++ [(command, answer)]) b' c₁ := by
  refine ⟨h.file, fun v' hv' => ?_⟩
  obtain ⟨v, hv, hle, hfed⟩ := h.onward v' hv'
  refine ⟨v, hv, hle, fun htapes => ?_⟩
  rw [File.logsBetween_of_grown hgrown (hlatest v' hv'), List.flatMap_append, List.flatMap_singleton,
    htaped, List.append_nil]
  exact hfed fun step hmem => htapes step (List.mem_append_left _ hmem)

/-- A cursor that is advanced has gone forward by the logs that it was advanced over. -/
theorem moved {u v : Version} {asked : Option Version} {reader : Reader} {seen : Seen}
    (h : Since name c before b₁ c₁) (hu : c₁.current = some u) (hle : u ≤ v)
    (hlatest : v ≤ (b₁.fileOf c₁).latest)
    (htape : ∀ failAt failEnd, reader = .tape failAt failEnd →
      seen = .tape ((b₁.fileOf c₁).logsBetween u v).flatten 1)
    (hgrown : (b₁.fileOf c₁).commits <+: (b'.fileOf c₁).commits) :
    Since name c (before ++ [(.advance name asked reader, .cursor (some (.ok v)) seen (some v))]) b'
      { c₁ with current := some v } := by
  refine ⟨h.file, fun v' hv' => ?_⟩
  obtain rfl : v = v' := Option.some.inj hv'
  obtain ⟨v₀, hv₀, hle₀, hfed⟩ := h.onward u hu
  refine ⟨v₀, hv₀, Version.le_trans hle₀ hle, fun htapes => ?_⟩
  have honTape := htapes _ (List.mem_append_right _ List.mem_cons_self)
  obtain ⟨failAt, failEnd, rfl⟩ := Command.eq_tape_of_onTape honTape
  have hbefore := hfed fun step hmem => htapes step (List.mem_append_left _ hmem)
  change _ = ((b'.fileOf c₁).logsBetween v₀ v).flatten
  rw [File.logsBetween_of_grown hgrown hlatest, ← File.logsBetween_append hle₀ hle,
    List.flatten_append, List.flatMap_append, hbefore, htape failAt failEnd rfl]
  simp [taped]

/-- One more command, unless it sets the name anew. -/
theorem next {steps : List (Command × Answer)} (hfound : b₁.cursors.find? name = some c₁)
    (h : Since name c before b₁ c₁) (hplaced : Placed name steps b₁ c₁)
    (heffect : Effect b₁ command answer b') (hstay : command.restarts name = false) :
    ∃ c', b'.cursors.find? name = some c' ∧
      Since name c (before ++ [(command, answer)]) b' c' := by
  have hgrown : (b₁.fileOf c₁).commits <+: (b'.fileOf c₁).commits :=
    ⟨_, (heffect.commits c₁.file.key).symm⟩
  have hkept : b'.cursors.find? name = b₁.cursors.find? name →
      taped name (command, answer) = [] → ∃ c', b'.cursors.find? name = some c' ∧
        Since name c (before ++ [(command, answer)]) b' c' := by
    intro hsame htaped
    exact ⟨c₁, hsame.trans hfound, h.kept htaped hplaced.latest hgrown⟩
  cases heffect with
  | committed commits cursors => exact hkept (by rw [cursors]) rfl
  | stuck found same cursors => exact hkept (by rw [cursors]) rfl
  | quiet uncommitted unopened notAdvance same cursors =>
    refine hkept (by rw [cursors]) ?_
    cases command with
    | advance n asked reader => exact absurd rfl (notAdvance n asked reader)
    | _ => rfl
  -- what sets a cursor anew sets that of another name
  | @opened n path b' same cursors =>
    have hname : name ≠ n := fun heq => by simp [Command.restarts, heq] at hstay
    exact hkept (by rw [cursors, Directory.find?_set, if_neg hname]) rfl
  | @begun n asked c' v b' found proper latest same cursors =>
    have hname : name ≠ n := fun heq => by simp [Command.restarts, heq] at hstay
    exact hkept (by rw [cursors, Directory.find?_set, if_neg hname]) rfl
  | @ended n c' b' found same cursors =>
    by_cases hname : name = n
    · subst hname
      obtain rfl : c₁ = c' := Option.some.inj (hfound.symm.trans found)
      refine ⟨c₁.endRead, by rw [cursors, Directory.find?_set, if_pos rfl], h.file, nofun⟩
    · exact hkept (by rw [cursors, Directory.find?_set, if_neg hname]) rfl
  | @moved n asked reader c' u v seen b' found current le latest target tape same cursors =>
    by_cases hname : name = n
    · subst hname
      obtain rfl : c₁ = c' := Option.some.inj (hfound.symm.trans found)
      refine ⟨_, by rw [cursors, Directory.find?_set, if_pos rfl], ?_⟩
      exact h.moved current le latest tape hgrown
    · refine hkept (by rw [cursors, Directory.find?_set, if_neg hname]) ?_
      cases seen <;> simp [taped, Ne.symm hname]

end Since

/-- What becomes of a cursor of a row of commands, over any further row that does not set its name
anew. -/
theorem Plays.since {name : String} {c : Cursor} (h : Plays .fresh steps b)
    (hfound : b.cursors.find? name = some c) (hmore : Plays b more b')
    (hstay : ∀ step ∈ more, step.1.restarts name = false) :
    ∃ c', b'.cursors.find? name = some c' ∧ Since name c more b' c' := by
  have hall : Plays .fresh (steps ++ more) b' ∧ ((∀ step ∈ more, step.1.restarts name = false) →
      ∃ c', b'.cursors.find? name = some c' ∧ Since name c more b' c') := by
    refine hmore.preserves (P := fun more b' => Plays .fresh (steps ++ more) b' ∧
      ((∀ step ∈ more, step.1.restarts name = false) →
        ∃ c', b'.cursors.find? name = some c' ∧ Since name c more b' c')) ?_ ?_
    -- the row from the fresh bench on is carried along, for it is what places the cursor
    · refine ⟨by simpa using h, fun _ => ⟨c, hfound, rfl, fun v hv => ?_⟩⟩
      exact ⟨v, hv, Version.le_refl v, fun _ => by simp [File.logsBetween_self]⟩
    · intro before b₁ b₂ command answer hbefore hperform
      obtain ⟨hplays, hsince⟩ := hbefore
      constructor
      · rw [← List.append_assoc]
        exact hplays.trans (.step hperform (.refl b₂))
      · intro hstay
        obtain ⟨c₁, hfound₁, hsince⟩ := hsince fun step hmem =>
          hstay step (List.mem_append_left _ hmem)
        exact hsince.next hfound₁ (hplays.placed name c₁ hfound₁) (effect_perform hperform)
          (hstay (command, answer) (by simp))
  exact hall.2 hstay

end Bench

open Bench in
/-- **What cursors read.** Commits, cursors and everything else are used in any order, on any
number of paths of one engine. The history of a path is what was committed under any spelling of it,
in order, and the `n`-th of these commits made version `n + 1`. A cursor is on the path that its name
was last opened on, and reads a version of the history of that path. It can be advanced unless
nothing is read, the target is before the version it reads, or there is no such version, or the
reader refuses what it is fed; an advance that fails leaves it where it was. A reader is fed exactly
the logs of the commits behind the versions after the one it reads up to the target, and then told
once that they are complete. None of these is looked up where there is none. Until its read is begun
anew a cursor only goes forward, and over however many advances it is fed the logs of the whole way. -/
theorem cursors_read_history {steps : List (Command × Answer)} {b : Bench}
    (h : Plays .fresh steps b) :
    (∀ path, (b.engine.file (FilePath.key path)).commits =
      committedTo (FilePath.key path) steps) ∧
    (∀ before path log answer after, steps = before ++ (.commit path log, answer) :: after →
      answer = .version ⟨(committedTo (FilePath.key path) before).length + 2, 0⟩) ∧
    ∀ name c, b.cursors.find? name = some c → ∃ path, openedOn? name steps = some path ∧
      c.file = ⟨0, FilePath.key path⟩ ∧
      let history := committedTo (FilePath.key path) steps
      let latest : Version := ⟨history.length + 1, 0⟩
      (∀ u, c.current = some u → 1 ≤ u.number ∧ u ≤ latest ∧ ∀ target ≤ latest, ∀ n,
        u.number < n → n ≤ target.number → 2 ≤ n ∧ n - 2 < history.length) ∧
      (∀ asked, let target := asked.getD latest
        ((∃ failure, c.advance (b.fileOf c) asked = .error failure) ↔ c.Barred latest target) ∧
        (∀ {σ : Type} [LogReader σ] (reader : σ),
          let replay := c.follow (b.fileOf c) asked reader
          ((∃ failure, replay.outcome = .error failure) ↔
            c.Barred latest target ∨ ∃ u failure, c.current = some u ∧
              (LogReader.replay reader (logsOnTheWay history u target).flatten).2 =
                some failure) ∧
          ∀ moved, replay.outcome = .ok moved → moved = { c with current := some target } ∧
            ∃ u fed, c.current = some u ∧
              LogReader.feed reader (logsOnTheWay history u target).flatten = (fed, none) ∧
              LogReader.finish fed = (replay.reader, none)) ∧
        ∀ reader b' answer, b.perform (.advance name asked reader) = some (b', answer) →
          (∃ failure seen, answer = .cursor (some (.error failure)) seen c.current ∧
            b'.cursors = b.cursors) ∨
          ∃ seen, answer = .cursor (some (.ok target)) seen (some target) ∧
            b'.cursors = b.cursors.set name { c with current := some target }) ∧
      ∀ more b', Plays b more b' → (∀ step ∈ more, step.1.restarts name = false) →
        ∃ c', b'.cursors.find? name = some c' ∧ c'.file = c.file ∧
          ∀ v', c'.current = some v' → ∃ v, c.current = some v ∧ v ≤ v' ∧
            ((∀ step ∈ more, step.1.onTape name) →
              more.flatMap (taped name) = (logsOnTheWay
                (committedTo (FilePath.key path) (steps ++ more)) v v').flatten) := by
  refine ⟨fun path => h.history _, ?_, fun name c hfound => ?_⟩
  · rintro before path log answer after rfl
    exact h.commit_answer
  have hplaced := h.placed name c hfound
  obtain ⟨path, hopened, hfile⟩ := hplaced.opened
  refine ⟨path, hopened, hfile, ?_⟩
  have hhistory : (b.fileOf c).commits = committedTo (FilePath.key path) steps := by
    rw [fileOf, hfile, h.history]
  rw [← hhistory]
  refine ⟨fun u hu => ?_, fun asked => ⟨Cursor.advance_fails_iff, ?_, ?_⟩, ?_⟩
  · refine ⟨hplaced.proper u hu, hplaced.latest u hu, fun target htarget n hn hle => ?_⟩
    have hproper := hplaced.proper u hu
    simp only [Version.le_def] at htarget
    omega
  · intro σ _ reader
    exact ⟨hplaced.follow_fails_iff, fun moved => hplaced.follow_feeds⟩
  · exact fun reader b' answer hperform => advance_outcome hfound hperform
  · intro more b' hmore hstay
    obtain ⟨c', hfound', hsince⟩ := h.since hfound hmore hstay
    refine ⟨c', hfound', hsince.file, fun v' hv' => ?_⟩
    obtain ⟨v, hv, hle, hfed⟩ := hsince.onward v' hv'
    refine ⟨v, hv, hle, fun htapes => ?_⟩
    have hplays := h.trans hmore
    have hhistory' : (b'.fileOf c').commits =
        committedTo (FilePath.key path) (steps ++ more) := by
      rw [fileOf, hsince.file, hfile, hplays.history]
    have hlatest := (hplays.placed name c' hfound').latest v' hv'
    rw [hfed htapes, File.logsBetween_eq_onTheWay (hplaced.proper v hv) hlatest, hhistory']

open Bench in
/-- A cursor begins to read one path. Two commits are made to that path under different spellings,
with one to another path between them. -/
def twoSpellings : List (Command × Answer) :=
  [(.openCursor "x" "/a", .done),
    (.beginRead "x" none, .cursor (some (.ok ⟨1, 0⟩)) .nothing (some ⟨1, 0⟩)),
    (.commit "/b/../a" [.clearTable], .version ⟨2, 0⟩),
    (.commit "/b" [.removePrimaryKey], .version ⟨2, 0⟩),
    (.commit "/a/." [.optimizeTable, .clearTable], .version ⟨3, 0⟩)]

open Bench in
/-- The cursor is then advanced in two steps, with a tape each time. Between them somebody else
looks at the other path, and an advance goes wrong. -/
def twoTapes : List (Command × Answer) :=
  [(.advance "x" (some ⟨2, 0⟩) (.tape none false),
      .cursor (some (.ok ⟨2, 0⟩)) (.tape [.clearTable] 1) (some ⟨2, 0⟩)),
    (.openCursor "y" "/b", .done),
    (.advance "x" none (.tape (some 1) false),
      .cursor (some (.error (.storage (.other "handler refused")))) (.tape [.optimizeTable] 0)
        (some ⟨2, 0⟩)),
    (.advance "x" none (.tape none false),
      .cursor (some (.ok ⟨3, 0⟩)) (.tape [.optimizeTable, .clearTable] 1) (some ⟨3, 0⟩))]

open Bench in
/-- The two tapes show the two commits to the path, and the other path has its own history. -/
theorem cursors_read_history_twoTapes : ∃ b b', Plays .fresh twoSpellings b ∧
    Plays b twoTapes b' ∧
    (b.engine.file "/a").commits = [[.clearTable], [.optimizeTable, .clearTable]] ∧
    (b.engine.file "/b").commits = [[.removePrimaryKey]] ∧
    ∃ c, b'.cursors.find? "x" = some c ∧ c.current = some ⟨3, 0⟩ ∧
      twoTapes.flatMap (taped "x") =
        (logsOnTheWay (b.engine.file "/a").commits ⟨1, 0⟩ ⟨3, 0⟩).flatten := by
  have hplays : ∃ b, Plays .fresh twoSpellings b ∧
      b.cursors.find? "x" = some ⟨⟨0, "/a"⟩, some ⟨1, 0⟩⟩ ∧ ∃ b', Plays b twoTapes b' ∧
      b'.cursors.find? "x" = some ⟨⟨0, "/a"⟩, some ⟨3, 0⟩⟩ :=
    ⟨_, .step rfl (.step rfl (.step rfl (.step rfl (.step rfl (.refl _))))), rfl,
      _, .step rfl (.step rfl (.step rfl (.step rfl (.refl _)))), rfl⟩
  obtain ⟨b, hbefore, hfound, b', hafter, hfound'⟩ := hplays
  obtain ⟨hhistory, -, hcursors⟩ := cursors_read_history hbefore
  have ha : (b.engine.file "/a").commits = [[.clearTable], [.optimizeTable, .clearTable]] :=
    hhistory "/a"
  obtain ⟨path, hopened, -, -, -, hthen⟩ := hcursors "x" _ hfound
  obtain ⟨c', hmoved, -, honward⟩ := hthen twoTapes b' hafter (by decide)
  obtain rfl : path = "/a" := Option.some.inj (hopened.symm.trans rfl)
  obtain rfl := Option.some.inj (hfound'.symm.trans hmoved)
  obtain ⟨v, hv, -, hfed⟩ := honward ⟨3, 0⟩ rfl
  obtain rfl : ⟨1, 0⟩ = v := Option.some.inj hv
  refine ⟨b, b', hbefore, hafter, ha, hhistory "/b", _, hfound', rfl, ?_⟩
  rw [hfed (by decide), ha]
  rfl

end SnapshotCoordination
