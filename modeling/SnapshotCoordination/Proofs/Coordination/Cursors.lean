import SnapshotCoordination.Proofs.Coordination.CleanUp
import SnapshotCoordination.Proofs.Storage.Histories

/-!
# The background cursors

What the two background cursors do when a step of the pipeline moves them. `Steers c` relates two
worlds between which coordinator `c` at most moved its cursors, each on its file, and told its
queries about it; if it left the query cursor alone and counted no replay, it `Leads`. Every step of
this module steers, whether or not it fails. Beside that each has an exact lemma for the case in
which it succeeds (`run_stepAdvancer`, `run_replayQueryCursor`), and one that reads success back
(`stepAdvancer_eq_ok`, `replayQueryCursor_eq_ok`), as do the two ways to start to read
(`openCursorAt_eq_ok`, `beginRead_eq_ok`).
-/

namespace SnapshotCoordination

namespace Version

theorem not_lt_of_le {a b : Version} (h : a ≤ b) : ¬ b < a := not_lt.mpr h

theorem le_total (a b : Version) : a ≤ b ∨ b ≤ a := by
  simp only [le_def]; omega

end Version

namespace Cursor

variable {cursor cursor' : Cursor} {f : File} {asked : Option Version}

/-- A read that is started reads the version asked for, or the latest one. -/
theorem beginRead_eq_ok (h : cursor.beginRead f asked = .ok cursor') :
    cursor' = { cursor with current := some (asked.getD f.latest) } ∧
      asked.getD f.latest ≤ f.latest := by
  unfold beginRead at h
  dsimp only at h
  split at h
  · cases h
  · next hvalid =>
    rw [not_or] at hvalid
    exact ⟨(Except.ok.inj h).symm, Version.not_lt.mp hvalid.2⟩

/-- From the version a cursor reads to a later one there is a way. -/
theorem route_of_le {u : Version} (hu : cursor.current = some u) (hle : u ≤ asked.getD f.latest)
    (hlatest : asked.getD f.latest ≤ f.latest) :
    cursor.route f asked = .ok (u, asked.getD f.latest) := by
  unfold route
  rw [hu]
  dsimp only
  rw [if_neg (Version.not_lt_of_le hle), if_neg (Version.not_lt_of_le hlatest)]

theorem advance_of_le {u : Version} (hu : cursor.current = some u) (hle : u ≤ asked.getD f.latest)
    (hlatest : asked.getD f.latest ≤ f.latest) :
    cursor.advance f asked = .ok { cursor with current := some (asked.getD f.latest) } := by
  unfold advance
  rw [route_of_le hu hle hlatest]

/-- What comes of a replay to a later version: it counts, the reader has read the logs in between,
and the cursor is at the target unless the reader refuses. -/
theorem follow_of_le {σ : Type} [LogReader σ] {u : Version} (reader : σ)
    (hu : cursor.current = some u) (hle : u ≤ asked.getD f.latest)
    (hlatest : asked.getD f.latest ≤ f.latest) :
    let read := LogReader.replay reader (f.logsBetween u (asked.getD f.latest)).flatten
    cursor.follow f asked reader =
      ⟨f.countReplay, read.1,
        match read.2 with
        | none => .ok { cursor with current := some (asked.getD f.latest) }
        | some failure => .error failure⟩ := by
  intro read
  unfold follow
  rw [route_of_le hu hle hlatest]
  dsimp only
  split
  · next reader' hread =>
    have hread : read = (reader', none) := hread
    rw [hread]
  · next reader' failure hread =>
    have hread : read = (reader', some failure) := hread
    rw [hread]

/-- An advance that succeeds reaches the version asked for, or the latest one, and that exists. -/
theorem advance_eq_ok (h : cursor.advance f asked = .ok cursor') :
    cursor' = { cursor with current := some (asked.getD f.latest) } ∧
      asked.getD f.latest ≤ f.latest := by
  unfold advance route at h
  cases hcurrent : cursor.current with
  | none =>
    rw [hcurrent] at h
    cases h
  | some u =>
    rw [hcurrent] at h
    dsimp only at h
    split at h
    · next target hroute =>
      split at hroute
      · cases hroute
      split at hroute
      · cases hroute
      next hmissing =>
        cases hroute
        cases h
        exact ⟨rfl, Version.not_lt.mp hmissing⟩
    · cases h

/-- A replay that succeeds started at the version the cursor read, and the reader took in all logs
from there to the version asked for, or to the latest one. -/
theorem follow_eq_ok {σ : Type} [LogReader σ] {reader : σ}
    (h : (cursor.follow f asked reader).outcome = .ok cursor') :
    ∃ u, cursor.current = some u ∧ u ≤ asked.getD f.latest ∧ asked.getD f.latest ≤ f.latest ∧
      (LogReader.replay reader (f.logsBetween u (asked.getD f.latest)).flatten).2 = none := by
  cases hcurrent : cursor.current with
  | none =>
    unfold follow route at h
    rw [hcurrent] at h
    cases h
  | some u =>
    by_cases hback : asked.getD f.latest < u
    · unfold follow route at h
      rw [hcurrent] at h
      dsimp only at h
      rw [if_pos hback] at h
      cases h
    by_cases hmissing : f.latest < asked.getD f.latest
    · unfold follow route at h
      rw [hcurrent] at h
      dsimp only at h
      rw [if_neg hback, if_pos hmissing] at h
      cases h
    have hle := Version.not_lt.mp hback
    have hlatest := Version.not_lt.mp hmissing
    refine ⟨u, rfl, hle, hlatest, ?_⟩
    rw [follow_of_le reader hcurrent hle hlatest] at h
    dsimp only at h
    split at h
    · next hread => exact hread
    · cases h

/-- A cursor stays on its file. -/
theorem file_of_advance (h : cursor.advance f asked = .ok cursor') :
    cursor'.file = cursor.file := by
  rw [(advance_eq_ok h).1]

theorem file_of_follow {σ : Type} [LogReader σ] {reader : σ}
    (h : (cursor.follow f asked reader).outcome = .ok cursor') : cursor'.file = cursor.file := by
  unfold follow at h
  split at h
  · cases h
  · split at h <;> cases h
    rfl

/-- If the cursor reads a version of the file, there is such a version. -/
def Grounded (cursor : Cursor) (f : File) : Prop := ∀ u, cursor.current = some u → u ≤ f.latest

theorem grounded_endRead (cursor : Cursor) (f : File) : cursor.endRead.Grounded f :=
  fun _ hu => nomatch hu

/-- Versions that exist are not lost. -/
theorem Grounded.grown {f' : File} (h : cursor.Grounded f) (hcommits : f.commits <+: f'.commits) :
    cursor.Grounded f' := fun u hu => Version.le_trans (h u hu) (File.latest_le_latest hcommits)

variable {w : World}

theorem grounded_of_beginRead (h : cursor.beginRead (w.file cursor.file) asked = .ok cursor') :
    cursor'.Grounded (w.file cursor'.file) := by
  obtain ⟨rfl, hle⟩ := beginRead_eq_ok h
  exact fun u hu => Option.some_inj.mp hu ▸ hle

theorem grounded_of_advance (h : cursor.advance (w.file cursor.file) asked = .ok cursor') :
    cursor'.Grounded (w.file cursor'.file) := by
  obtain ⟨rfl, hle⟩ := advance_eq_ok h
  exact fun u hu => Option.some_inj.mp hu ▸ hle

theorem grounded_of_follow {σ : Type} [LogReader σ] {reader : σ}
    (h : (cursor.follow (w.file cursor.file) asked reader).outcome = .ok cursor') :
    cursor'.Grounded (w.file cursor'.file) := by
  obtain ⟨u, hu, hle, hlatest, hread⟩ := follow_eq_ok h
  rw [follow_of_le reader hu hle hlatest] at h
  dsimp only at h
  rw [hread] at h
  cases h
  exact fun v hv => Option.some_inj.mp hv ▸ hlatest

end Cursor

namespace Coordinator

/-- The background cursors that were opened. -/
def cursors (s : Coordinator) : List Cursor := s.queryCursor.toList ++ s.advancer.toList

variable {s : Coordinator} {cursor : Cursor}

theorem mem_cursors : cursor ∈ s.cursors ↔ s.queryCursor = some cursor ∨ s.advancer = some cursor := by
  rw [cursors, List.mem_append, Option.mem_toList, Option.mem_toList]

end Coordinator

/-! ## Moving cursors and telling queries -/

/-- From one world to the other coordinator `c` at most moved its cursors and told its queries. -/
structure Steers (c : CoordinatorId) (w w' : World) : Prop where
  within : Within c w w'
  main : (w'.coordinator c).queries = (w.coordinator c).queries
  waiting : (w'.coordinator c).newQueries = (w.coordinator c).newQueries
  asyncError : (w'.coordinator c).asyncError = (w.coordinator c).asyncError
  queryFile : (w'.coordinator c).queryCursor.map (·.file) =
    (w.coordinator c).queryCursor.map (·.file)
  advancerFile : (w'.coordinator c).advancer.map (·.file) = (w.coordinator c).advancer.map (·.file)

namespace Steers

variable {c : CoordinatorId} {w w' w'' : World}

theorem refl (w : World) : Steers c w w := ⟨.refl w, rfl, rfl, rfl, rfl, rfl⟩

theorem trans (h : Steers c w w') (h' : Steers c w' w'') : Steers c w w'' where
  within := h.within.trans h'.within
  main := h'.main.trans h.main
  waiting := h'.waiting.trans h.waiting
  asyncError := h'.asyncError.trans h.asyncError
  queryFile := h'.queryFile.trans h.queryFile
  advancerFile := h'.advancerFile.trans h.advancerFile

instance : IsPreorder World (Steers c) where
  refl := refl
  trans _ _ _ := trans

theorem notes (w : World) {events : List Event} (h : ∀ e ∈ events, e.run? = none) :
    Steers c w (w.notes events) := ⟨.notes w h, rfl, rfl, rfl, rfl, rfl⟩

theorem setQueryCursor (w : World) {cursor : Option Cursor}
    (h : cursor.map (·.file) = (w.coordinator c).queryCursor.map (·.file)) :
    Steers c w (w.onCoordinator c fun s => { s with queryCursor := cursor }) :=
  ⟨.onCoordinator w rfl, by simp, by simp, by simp, by simpa using h, by simp⟩

theorem setAdvancer (w : World) {cursor : Option Cursor}
    (h : cursor.map (·.file) = (w.coordinator c).advancer.map (·.file)) :
    Steers c w (w.onCoordinator c fun s => { s with advancer := cursor }) :=
  ⟨.onCoordinator w rfl, by simp, by simp, by simp, by simp, by simpa using h⟩

/-- A file of which no commit is touched. -/
theorem setFile (w : World) {f : FileId} {x : File} (h : x.commits = (w.file f).commits) :
    Steers c w (w.setFile f x) := by
  refine ⟨⟨fun _ _ => rfl, rfl, rfl, fun g => ?_, rfl⟩, rfl, rfl, rfl, rfl, rfl⟩
  rw [World.file_setFile]
  split
  · next hg => rw [h, hg]
  · rfl

end Steers

/-- From one world to the other coordinator `c` at most moved its advancer and told its queries. -/
structure Leads (c : CoordinatorId) (w w' : World) : Prop where
  steers : Steers c w w'
  queryCursor : (w'.coordinator c).queryCursor = (w.coordinator c).queryCursor
  engines : w'.engines = w.engines

namespace Leads

variable {c : CoordinatorId} {w w' w'' : World}

theorem refl (w : World) : Leads c w w := ⟨.refl w, rfl, rfl⟩

theorem trans (h : Leads c w w') (h' : Leads c w' w'') : Leads c w w'' where
  steers := h.steers.trans h'.steers
  queryCursor := h'.queryCursor.trans h.queryCursor
  engines := h'.engines.trans h.engines

instance : IsPreorder World (Leads c) where
  refl := refl
  trans _ _ _ := trans

theorem notes (w : World) {events : List Event} (h : ∀ e ∈ events, e.run? = none) :
    Leads c w (w.notes events) := ⟨.notes w h, rfl, rfl⟩

theorem setAdvancer (w : World) {cursor : Option Cursor}
    (h : cursor.map (·.file) = (w.coordinator c).advancer.map (·.file)) :
    Leads c w (w.onCoordinator c fun s => { s with advancer := cursor }) :=
  ⟨.setAdvancer w h, by simp, rfl⟩

end Leads

namespace Step

variable {c : CoordinatorId}

theorem leads_attach (q : QueryId) (version : Option Version) :
    (attach q version).Stays (Leads c) :=
  .update fun w => Leads.notes w (by simp [Event.run?])

theorem leads_detach (q : QueryId) : (detach q).Stays (Leads c) :=
  .update fun w => Leads.notes w (by simp [Event.run?])

theorem leads_coordinator : (coordinator c).Stays (Leads c) := .bind .world fun _ => .pure _

theorem leads_stepAdvancer (asked : Option Version) : (stepAdvancer c asked).Stays (Leads c) := by
  intro w
  unfold stepAdvancer
  rw [run_bind_ok (run_coordinator c w)]
  cases hcursor : (w.coordinator c).advancer with
  | none => exact .refl w
  | some cursor =>
    dsimp only
    rw [run_bind_ok (run_world w)]
    cases hmove : cursor.advance (w.fileOf cursor) asked with
    | error failure => exact .refl w
    | ok moved =>
      refine Leads.setAdvancer w ?_
      rw [hcursor]
      exact congrArg some (Cursor.file_of_advance hmove)

theorem stays_replayQueryCursor (asked : Option Version) (recorder : ChangeRecorder) :
    (replayQueryCursor c asked recorder).Stays (Steers c) := by
  intro w
  unfold replayQueryCursor
  rw [run_bind_ok (run_coordinator c w)]
  cases hcursor : (w.coordinator c).queryCursor with
  | none => exact .refl w
  | some cursor =>
    have hfile := Steers.setFile (c := c) w
      (commits_follow cursor (w.fileOf cursor) asked recorder)
    dsimp only
    rw [run_bind_ok (run_world w), run_bind_ok (run_update _ w)]
    cases hmove : (cursor.follow (w.fileOf cursor) asked recorder).outcome with
    | error failure => exact hfile
    | ok moved =>
      refine hfile.trans (.setQueryCursor _ ?_)
      show some moved.file = (w.coordinator c).queryCursor.map _
      rw [hcursor]
      exact congrArg some (Cursor.file_of_follow hmove)

/-! ## Success -/

/-- The latest version of the file of a configuration. -/
theorem run_latestVersion {config : Config} {f : FileId} (hf : config.file? = some f) (w : World) :
    ∃ w', Looked w w' ∧ (latestVersion config).run w = (w', .ok (w.file f).latest) := by
  have hlooked := stays_latestVersion config w
  obtain ⟨e, he, rfl⟩ := Option.map_eq_some_iff.mp hf
  unfold latestVersion at hlooked ⊢
  rw [run_askEngine he] at hlooked ⊢
  exact ⟨_, hlooked, rfl⟩

theorem run_latestVersion_of_none {config : Config} (hf : config.file? = none) (w : World) :
    (latestVersion config).run w = (w, .error (.invalidConfig (.noEngine config.path))) := by
  have hengine : config.engine? = .error (.invalidConfig (.noEngine config.path)) := by
    rw [Config.engine?, Option.map_eq_none_iff.mp hf]
  unfold latestVersion askEngine
  rw [hengine]
  rfl

/-- A cursor that is opened looks at the file of the configuration and reads the version asked
for, or the latest one. -/
theorem openCursorAt_eq_ok {config : Config} {asked : Option Version} {w w' : World}
    {cursor : Cursor} (h : (openCursorAt config asked).run w = (w', .ok cursor)) :
    config.file? = some cursor.file ∧
      cursor.current = some (asked.getD (w.file cursor.file).latest) ∧
      asked.getD (w.file cursor.file).latest ≤ (w.file cursor.file).latest := by
  obtain ⟨w₁, opened, hopened, hread⟩ := run_bind_eq_ok h
  have hlooked := stays_openCursor config w
  rw [hopened] at hlooked
  have hfile : config.file? = some opened.file := by
    obtain ⟨w₂, answer, hask, hanswer⟩ := run_bind_eq_ok hopened
    cases he : config.engine with
    | none =>
      have hengine : config.engine? = .error (.invalidConfig (.noEngine config.path)) := by
        rw [Config.engine?, he]
      unfold askEngine at hask
      rw [hengine] at hask
      cases hask
    | some e =>
      rw [run_askEngine he] at hask
      cases hask
      replace hanswer : ((w.engine e).openCursor e config.path).2 = .ok opened :=
        congrArg Prod.snd hanswer
      unfold Engine.openCursor at hanswer
      split at hanswer
      · cases hanswer
      · cases hanswer
        rw [Config.file?, he]
        rfl
  replace hread : opened.beginRead (w₁.file opened.file) asked = .ok cursor :=
    congrArg Prod.snd hread
  obtain ⟨rfl, hle⟩ := Cursor.beginRead_eq_ok hread
  have hsame := hlooked.file opened.file
  rw [hsame] at hle
  refine ⟨hfile, ?_, hle⟩
  rw [hsame]

/-- The advancer steps to a version that is not behind it. -/
theorem run_stepAdvancer {w : World} {cursor : Cursor} {u v : Version}
    (hcursor : (w.coordinator c).advancer = some cursor) (hu : cursor.current = some u)
    (hle : u ≤ v) (hlatest : v ≤ (w.file cursor.file).latest) :
    (stepAdvancer c (some v)).run w =
      (w.onCoordinator c fun s => { s with advancer := some { cursor with current := some v } },
        .ok (some v)) := by
  have hadvance : cursor.advance (w.fileOf cursor) (some v) =
      .ok { cursor with current := some v } := Cursor.advance_of_le hu hle hlatest
  unfold stepAdvancer
  rw [run_bind_ok (run_coordinator c w), hcursor]
  dsimp only
  rw [run_bind_ok (run_world w), hadvance]
  rfl

/-- The query cursor replays the logs on its way to a version that is not behind it. -/
theorem run_replayQueryCursor (asked : Option Version) (target : Version)
    (recorder : ChangeRecorder) {w : World} {cursor : Cursor} {u : Version}
    (hcursor : (w.coordinator c).queryCursor = some cursor) (hu : cursor.current = some u)
    (htarget : target = asked.getD (w.file cursor.file).latest) (hle : u ≤ target)
    (hlatest : target ≤ (w.file cursor.file).latest) :
    let read := LogReader.replay recorder ((w.file cursor.file).logsBetween u target).flatten
    let counted := w.setFile cursor.file (w.file cursor.file).countReplay
    (replayQueryCursor c asked recorder).run w =
      match read.2 with
      | none =>
        (counted.onCoordinator c fun s =>
          { s with queryCursor := some { cursor with current := some target } },
          .ok read.1.changes)
      | some failure => (counted, .error failure) := by
  subst htarget
  intro read counted
  have hfollow := Cursor.follow_of_le (f := w.fileOf cursor) recorder hu hle hlatest
  unfold replayQueryCursor
  rw [run_bind_ok (run_coordinator c w), hcursor]
  dsimp only
  rw [run_bind_ok (run_world w), hfollow]
  show (ofExcept (match read.2 with
      | none => .ok _
      | some failure => .error failure) >>= _).run counted = _
  cases read.2 <;> rfl

/-! ## Reading success back -/

/-- An advancer that steps gets where it was sent. -/
theorem stepAdvancer_eq_ok {w w' : World} {v : Version} {reached : Option Version}
    (h : (stepAdvancer c (some v)).run w = (w', .ok reached)) : reached = some v := by
  unfold stepAdvancer at h
  rw [run_bind_ok (run_coordinator c w)] at h
  cases hcursor : (w.coordinator c).advancer with
  | none =>
    rw [hcursor] at h
    cases h
  | some cursor =>
    rw [hcursor] at h
    dsimp only at h
    rw [run_bind_ok (run_world w)] at h
    cases hmove : cursor.advance (w.fileOf cursor) (some v) with
    | error failure =>
      rw [hmove] at h
      cases h
    | ok moved =>
      rw [hmove] at h
      cases h
      rw [(Cursor.advance_eq_ok hmove).1]
      rfl

/-- A replay that fails leaves the query cursor where it is. -/
theorem replayQueryCursor_eq_error {asked : Option Version} {recorder : ChangeRecorder}
    {w w' : World} {failure : Failure}
    (h : (replayQueryCursor c asked recorder).run w = (w', .error failure)) :
    (w'.coordinator c).queryCursor = (w.coordinator c).queryCursor := by
  unfold replayQueryCursor at h
  rw [run_bind_ok (run_coordinator c w)] at h
  cases hcursor : (w.coordinator c).queryCursor with
  | none =>
    rw [hcursor] at h
    cases h
    exact hcursor
  | some cursor =>
    rw [hcursor] at h
    dsimp only at h
    rw [run_bind_ok (run_world w), run_bind_ok (run_update _ w)] at h
    cases hmove : (cursor.follow (w.fileOf cursor) asked recorder).outcome with
    | error refusal =>
      rw [hmove] at h
      cases h
      exact hcursor
    | ok moved =>
      rw [hmove] at h
      cases h

/-- A replay that succeeds fed the recorder all logs from the version the query cursor read. -/
theorem replayQueryCursor_eq_ok {asked : Option Version} {recorder : ChangeRecorder}
    {w w' : World} {changes : Changes} {cursor : Cursor}
    (h : (replayQueryCursor c asked recorder).run w = (w', .ok changes))
    (hcursor : (w.coordinator c).queryCursor = some cursor) :
    let target := asked.getD (w.file cursor.file).latest
    ∃ u, cursor.current = some u ∧ u ≤ target ∧ target ≤ (w.file cursor.file).latest ∧
      let read := LogReader.replay recorder ((w.file cursor.file).logsBetween u target).flatten
      read.2 = none ∧ changes = read.1.changes ∧
        w' = (w.setFile cursor.file (w.file cursor.file).countReplay).onCoordinator c fun s =>
          { s with queryCursor := some { cursor with current := some target } } := by
  intro target
  cases hmove : (cursor.follow (w.fileOf cursor) asked recorder).outcome with
  | error failure =>
    unfold replayQueryCursor at h
    rw [run_bind_ok (run_coordinator c w), hcursor] at h
    dsimp only at h
    rw [run_bind_ok (run_world w), run_bind_ok (run_update _ w), hmove] at h
    cases h
  | ok moved =>
    obtain ⟨u, hu, hle, hlatest, hread⟩ := Cursor.follow_eq_ok hmove
    refine ⟨u, hu, hle, hlatest, hread, ?_⟩
    have hrun := run_replayQueryCursor asked target recorder hcursor hu rfl hle hlatest
    dsimp only at hrun
    rw [h] at hrun
    change (w', Except.ok changes) = match (LogReader.replay recorder
      ((w.file cursor.file).logsBetween u target).flatten).2 with
      | none => _
      | some failure => _ at hrun
    have hnone : (LogReader.replay recorder
        ((w.file cursor.file).logsBetween u target).flatten).2 = none := hread
    rw [hnone] at hrun
    obtain ⟨rfl, hchanges⟩ := Prod.mk.inj hrun
    exact ⟨Except.ok.inj hchanges, rfl⟩

end Step

end SnapshotCoordination
