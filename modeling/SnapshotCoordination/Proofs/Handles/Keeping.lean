import SnapshotCoordination.Proofs.Coordination.Footprint
import SnapshotCoordination.Proofs.Coordination.Recounting
import SnapshotCoordination.Proofs.Storage.Histories

/-!
# What becomes of handles

Once it was made, a handle stays as it is, is closed for good, or moves forward on its file by a way
that the schema guard takes in (`Handle.Onward`). This module shows that of everything that can
happen to a process between two callbacks:

* **`Moment.onward_perform`** — a section takes every handle onward, unless it makes a new one;
* **`Moment.onward_after`** — so a row of sections takes every handle onward that was made before;
* **`Handle.Sound`** — and between any two sections an open handle belongs to a coordinator and
  reads a version that exists, of the file of its configuration.
-/

namespace SnapshotCoordination

/-! ## One handle -/

namespace Handle

/-- What a handle can have become once the files are these. -/
inductive Onward (file : FileId → File) (x x' : Handle) : Prop where
  | closed (hcursor : x'.cursor = none) (hcoordinator : x'.coordinator = none)
  | kept (hconfig : x'.config = x.config) (hcoordinator : x'.coordinator = x.coordinator)
      (hcursor : x'.cursor = x.cursor)
  | moved (f : FileId) (u v : Version) (hconfig : x'.config = x.config)
      (hcoordinator : x'.coordinator = x.coordinator) (hfrom : x.cursor = some ⟨f, some u⟩)
      (hto : x'.cursor = some ⟨f, some v⟩) (hpassable : (file f).Passable u v)

/-- An open handle belongs to a coordinator and reads a version that exists, of the file of its
configuration; a closed one belongs to none. -/
inductive Sound (file : FileId → File) (x : Handle) : Prop where
  | closed (hcursor : x.cursor = none) (hcoordinator : x.coordinator = none)
  | reads (f : FileId) (v : Version) (c : CoordinatorId) (hcursor : x.cursor = some ⟨f, some v⟩)
      (hcoordinator : x.coordinator = some c) (hconfig : x.config.file? = some f)
      (hlatest : v ≤ (file f).latest)

variable {file file' : FileId → File} {x x' x'' : Handle}

namespace Onward

theorem trans (hcommits : ∀ f, (file f).commits <+: (file' f).commits)
    (h : Onward file x x') (h' : Onward file' x' x'') : Onward file' x x'' := by
  cases h' with
  | closed hcursor hcoordinator => exact .closed hcursor hcoordinator
  | kept hconfig' hcoordinator' hcursor' =>
    cases h with
    | closed hcursor hcoordinator =>
      exact .closed (hcursor'.trans hcursor) (hcoordinator'.trans hcoordinator)
    | kept hconfig hcoordinator hcursor =>
      exact .kept (hconfig'.trans hconfig) (hcoordinator'.trans hcoordinator)
        (hcursor'.trans hcursor)
    | moved f u v hconfig hcoordinator hfrom hto hpassable =>
      exact .moved f u v (hconfig'.trans hconfig) (hcoordinator'.trans hcoordinator) hfrom
        (hcursor'.trans hto) (hpassable.mono (hcommits f))
  | moved f u v hconfig' hcoordinator' hfrom' hto' hpassable' =>
    cases h with
    | closed hcursor hcoordinator =>
      rw [hcursor] at hfrom'
      cases hfrom'
    | kept hconfig hcoordinator hcursor =>
      exact .moved f u v (hconfig'.trans hconfig) (hcoordinator'.trans hcoordinator)
        (hcursor.symm.trans hfrom') hto' hpassable'
    | moved g s t hconfig hcoordinator hfrom hto hpassable =>
      -- the second way starts where the first one ended
      rw [hto, Option.some_inj, Cursor.mk.injEq, Option.some_inj] at hfrom'
      obtain ⟨rfl, rfl⟩ := hfrom'
      exact .moved g s v (hconfig'.trans hconfig) (hcoordinator'.trans hcoordinator) hfrom hto'
        ((hpassable.mono (hcommits g)).trans hpassable')

theorem sound (hcommits : ∀ f, (file f).commits <+: (file' f).commits) (h : Onward file' x x')
    (hsound : Sound file x) : Sound file' x' := by
  cases h with
  | closed hcursor hcoordinator => exact .closed hcursor hcoordinator
  | kept hconfig hcoordinator hcursor =>
    cases hsound with
    | closed hcursor' hcoordinator' =>
      exact .closed (hcursor.trans hcursor') (hcoordinator.trans hcoordinator')
    | reads f v c hcursor' hcoordinator' hconfig' hlatest =>
      exact .reads f v c (hcursor.trans hcursor') (hcoordinator.trans hcoordinator')
        (by rw [hconfig]; exact hconfig')
        (Version.le_trans hlatest (File.latest_le_latest (hcommits f)))
  | moved f u v hconfig hcoordinator hfrom hto hpassable =>
    cases hsound with
    | closed hcursor' hcoordinator' =>
      rw [hfrom] at hcursor'
      cases hcursor'
    | reads g t c hcursor' hcoordinator' hconfig' hlatest =>
      rw [hfrom, Option.some_inj, Cursor.mk.injEq] at hcursor'
      obtain ⟨rfl, -⟩ := hcursor'
      exact .reads f v c hto (hcoordinator.trans hcoordinator') (by rw [hconfig]; exact hconfig')
        hpassable.latest

/-- A handle that is still open is on its file, at a version to which there was a way. -/
theorem passable {f : FileId} {u : Version} {cursor : Cursor} (h : Onward file x x')
    (hfrom : x.cursor = some ⟨f, some u⟩) (hlatest : u ≤ (file f).latest)
    (hto : x'.cursor = some cursor) :
    ∃ v, cursor = ⟨f, some v⟩ ∧ (file f).Passable u v := by
  cases h with
  | closed hcursor hcoordinator =>
    rw [hcursor] at hto
    cases hto
  | kept hconfig hcoordinator hcursor =>
    rw [hcursor, hfrom, Option.some_inj] at hto
    exact ⟨u, hto.symm, .refl hlatest⟩
  | moved g s v hconfig hcoordinator hfrom' hto' hpassable =>
    rw [hfrom, Option.some_inj, Cursor.mk.injEq, Option.some_inj] at hfrom'
    obtain ⟨rfl, rfl⟩ := hfrom'
    rw [hto', Option.some_inj] at hto
    exact ⟨v, hto.symm, hpassable⟩

end Onward

end Handle

/-! ## All handles -/

/-- Every handle has gone onward, and nothing that was committed was taken back. -/
structure World.Onward (w w' : World) : Prop where
  made : w.handles.size ≤ w'.handles.size
  commits : ∀ f, (w.file f).commits <+: (w'.file f).commits
  handle : ∀ h, Handle.Onward w'.file (w.handle h) (w'.handle h)

namespace World.Onward

variable {w w' w'' : World}

theorem of_handles (hcommits : ∀ f, (w.file f).commits <+: (w'.file f).commits)
    (h : w'.handles = w.handles) : w.Onward w' :=
  ⟨Nat.le_of_eq (by rw [h]), hcommits, fun i => by rw [handle_congr h]; exact .kept rfl rfl rfl⟩

theorem of_undisturbed (h : Undisturbed w w') (hsame : w'.handles = w.handles) : w.Onward w' :=
  of_handles h.commits hsame

theorem of_recounted (h : Recounted w w') : w.Onward w' :=
  of_handles (fun f => h.commits f ▸ List.prefix_refl _) h.handles

theorem refl (w : World) : w.Onward w := of_handles (fun _ => List.prefix_refl _) rfl

theorem trans (h : w.Onward w') (h' : w'.Onward w'') : w.Onward w'' where
  made := Nat.le_trans h.made h'.made
  commits f := (h.commits f).trans (h'.commits f)
  handle i := (h.handle i).trans h'.commits (h'.handle i)

instance : IsPreorder World World.Onward where
  refl := refl
  trans _ _ _ := trans

theorem onHandle (w : World) (h : HandleId) {f : Handle → Handle}
    (hf : Handle.Onward w.file (w.handle h) (f (w.handle h))) : w.Onward (w.onHandle h f) where
  made := Table.size_le_modify w.handles h f
  commits _ := List.prefix_refl _
  handle i := by
    rw [handle_onHandle]
    split
    · next hi =>
      rw [hi]
      exact hf
    · exact .kept rfl rfl rfl

end World.Onward

theorem covers_onward (c : CoordinatorId) : Covers c World.Onward where
  looked h := .of_undisturbed h.undisturbed (by rw [h.eq])
  file w f x h _ := .of_undisturbed (undisturbed_setFile w (h ▸ List.prefix_refl _)) rfl
  coordinator _ _ _ := .of_handles (fun _ => List.prefix_refl _) rfl
  query _ _ _ := .of_handles (fun _ => List.prefix_refl _) rfl
  told _ _ _ := .of_handles (fun _ => List.prefix_refl _) rfl

/-! ## References -/

namespace World

variable (w : World)

theorem handles_getCoordinator (r : RegistryId) (path : String) :
    (w.getCoordinator r path).1.handles = w.handles := by
  unfold getCoordinator
  split <;> rfl

theorem onward_releaseCoordinator (c : CoordinatorId) : w.Onward (w.releaseCoordinator c) :=
  .of_recounted (recounted_releaseCoordinator w c)

theorem onward_retainHandle (h : HandleId) : w.Onward (w.retainHandle h) :=
  .onHandle w h (.kept rfl rfl rfl)

theorem onward_closeHandle (h : HandleId) : w.Onward (w.closeHandle h) := by
  have hclosed : w.Onward (w.onHandle h fun x => { x with cursor := none, coordinator := none }) :=
    .onHandle w h (.closed rfl rfl)
  unfold closeHandle
  split
  · next c _ =>
    have hforget : ∀ w : World, w.Onward (w.forgetHandle c h) := fun w =>
      .of_undisturbed (undisturbed_forgetHandle w c h) rfl
    exact (hclosed.trans (hforget _)).trans (onward_releaseCoordinator _ c)
  · exact hclosed

theorem onward_releaseHandle (h : HandleId) : w.Onward (w.releaseHandle h) := by
  have hcount : w.Onward (w.onHandle h fun x => { x with refs := x.refs - 1 }) :=
    .onHandle w h (.kept rfl rfl rfl)
  dsimp only [releaseHandle]
  split
  · exact hcount.trans (onward_closeHandle _ h)
  · exact hcount

theorem onward_resetRegistry (r : RegistryId) : w.Onward (w.resetRegistry r) :=
  w.rel_resetRegistry r
    (fun w c =>
      .of_recounted ((recounted_retainCoordinator w c).trans (recounted_dropNotifier _ c)))
    onward_retainHandle (fun w => .of_undisturbed (undisturbed_setRegistry w r .empty) rfl)
    onward_releaseCoordinator
    fun w h => (onward_closeHandle w h).trans (onward_releaseHandle _ h)

end World

/-! ## Moving -/

/-- A cursor that follows the logs behind a schema guard gets where it was sent, by one hop. -/
theorem Cursor.follow_guard_eq_ok {cursor moved : Cursor} {f : File} {asked : Option Version}
    (h : (cursor.follow f asked SchemaGuard.fresh).outcome = .ok moved) :
    ∃ u, cursor.current = some u ∧ moved = ⟨cursor.file, some (asked.getD f.latest)⟩ ∧
      f.Passable u (asked.getD f.latest) := by
  obtain ⟨u, hu, hle, hlatest, hread⟩ := follow_eq_ok h
  rw [follow_of_le SchemaGuard.fresh hu hle hlatest] at h
  dsimp only at h
  rw [hread] at h
  exact ⟨u, hu, (Except.ok.inj h).symm, .hop hle hlatest (SchemaGuard.allows_iff.mpr hread)⟩

namespace Step

/-- What a move of an open handle comes to: the replay counts in any case. -/
theorem run_moveHandle {w : World} {h : HandleId} {cursor : Cursor}
    (hcursor : (w.handle h).cursor = some cursor) (asked : Option Version) :
    let replay := cursor.follow (w.fileOf cursor) asked SchemaGuard.fresh
    let counted := w.setFile cursor.file replay.file
    (moveHandle h asked).run w =
      match replay.outcome with
      | .ok moved =>
        (counted.onHandle h ({ · with cursor := some moved }), .ok (cursor.current, moved.current))
      | .error failure => (counted, .error failure) := by
  intro replay counted
  unfold moveHandle
  rw [run_bind_ok (run_world w)]
  dsimp only
  rw [hcursor]
  dsimp only
  rw [run_bind_ok (run_update _ w)]
  show (ofExcept replay.outcome >>= _).run counted = _
  cases replay.outcome <;> rfl

/-- A move of an open handle to a version it can get to is a matter of the guard alone. -/
theorem run_moveHandle_of_le {w : World} {h : HandleId} {f : FileId} {v target : Version}
    {asked : Option Version} (hcursor : (w.handle h).cursor = some ⟨f, some v⟩)
    (htarget : asked.getD (w.file f).latest = target) (hle : v ≤ target)
    (hlatest : target ≤ (w.file f).latest) :
    (moveHandle h asked).run w =
      if SchemaGuard.allows ((w.file f).logsBetween v target).flatten then
        ((w.setFile f (w.file f).countReplay).onHandle h
          ({ · with cursor := some ⟨f, some target⟩ }), .ok (some v, some target))
      else (w.setFile f (w.file f).countReplay, .error .schemaMismatch) := by
  subst htarget
  rw [run_moveHandle hcursor asked, World.fileOf,
    Cursor.follow_of_le SchemaGuard.fresh rfl hle hlatest]
  cases hread : (LogReader.replay SchemaGuard.fresh
      ((w.file f).logsBetween v (asked.getD (w.file f).latest)).flatten).2 with
  | none => rw [if_pos (SchemaGuard.allows_iff.mpr hread)]
  | some failure =>
    have hrefused : ¬ SchemaGuard.allows
        ((w.file f).logsBetween v (asked.getD (w.file f).latest)).flatten := by
      rw [SchemaGuard.allows_iff, hread]
      exact nofun
    rw [if_neg hrefused, ← SchemaGuard.replay_eq_schemaMismatch hread]

theorem onward_moveHandle (h : HandleId) (asked : Option Version) :
    (moveHandle h asked).Stays World.Onward := by
  intro w
  cases hcursor : (w.handle h).cursor with
  | none =>
    unfold moveHandle
    rw [run_bind_ok (run_world w)]
    dsimp only
    rw [hcursor]
    exact .refl w
  | some cursor =>
    rw [run_moveHandle hcursor asked]
    have hcommits := commits_follow cursor (w.fileOf cursor) asked SchemaGuard.fresh
    have hcounted := (covers_onward 0).file w cursor.file
      (cursor.follow (w.fileOf cursor) asked SchemaGuard.fresh).file hcommits
      (listeners_follow ..)
    cases hmove : (cursor.follow (w.fileOf cursor) asked SchemaGuard.fresh).outcome with
    | error failure => exact hcounted
    | ok moved =>
      obtain ⟨u, hu, rfl, hpassable⟩ := Cursor.follow_guard_eq_ok hmove
      refine hcounted.trans (.onHandle _ h ?_)
      refine .moved cursor.file u _ rfl rfl ?_ rfl (hpassable.mono ?_)
      · show (w.handle h).cursor = _
        rw [hcursor, ← hu]
      · have hsame := congrArg File.commits (w.file_setFile cursor.file cursor.file
          (cursor.follow (w.fileOf cursor) asked SchemaGuard.fresh).file)
        rw [if_pos rfl, hcommits] at hsame
        exact hsame ▸ List.prefix_refl _

end Step

/-! ## Opening -/

/-- A handle was made on the way from one world to the other, which reads the latest version. -/
def World.Opens (c : CoordinatorId) (thread : Thread) (config : Config) (w w' : World) : Prop :=
  ∃ f, config.file? = some f ∧ w'.handles = w.handles.push
    ⟨config, thread, 1, some ⟨f, some (w'.file f).latest⟩, some c, none, false⟩

/-- No handle was touched on the way from one world to the other. -/
def World.SameHandles (w w' : World) : Prop := w'.handles = w.handles

instance : IsPreorder World World.SameHandles where
  refl _ := rfl
  trans _ _ _ h h' := Eq.trans h' h

theorem Looked.handles {w w' : World} (h : Looked w w') : w'.handles = w.handles := by
  rw [h.eq]

namespace Step

theorem sameHandles_prepareAdoption (c : CoordinatorId) (config : Config) :
    (prepareAdoption c config).Stays World.SameHandles := by
  refine Stays.bind .world fun w => .ite (.ite (.bind ?_ fun _ => .pure _) (.pure _)) ?_
  · -- a notifier is made, if the engine listens
    refine .bind (.ofExcept _) fun e => .bind (stays_askEngine config _ fun _ _ => rfl) fun r => ?_
    cases r with
    | ok key => exact .bind .world fun w => .bind (.update fun w => rfl) fun _ => .pure _
    | error failure => exact .fail _
  · split
    · exact .bind (.ofExcept _) fun _ => .pure _
    · exact .pure _

theorem sameHandles_abandonAdoption (adoption : Option Adoption) :
    (abandonAdoption adoption).Stays World.SameHandles := by
  unfold abandonAdoption
  split
  · exact .update fun w => (recounted_releaseNotifier w _).handles
  · exact .pure ()

theorem run_applyAdoption (c : CoordinatorId) (adoption : Option Adoption) (w : World) :
    ∃ w', (applyAdoption c adoption).run w = (w', .ok ()) ∧ w'.handles = w.handles ∧
      w'.engines = w.engines := by
  cases adoption with
  | none => exact ⟨w, rfl, rfl, rfl⟩
  | some adoption => exact ⟨_, rfl, rfl, rfl⟩

/-- **A handle is made** at the end of the table, open at the latest version, unless its file cannot
be opened. -/
theorem run_makeHandle (c : CoordinatorId) (thread : Thread) (config : Config) (w : World) :
    (∃ w₁ failure, (makeHandle c thread config).run w = (w₁, .error failure) ∧ Looked w w₁) ∨
      ∃ w₁ cursor, Looked w w₁ ∧ config.file? = some cursor.file ∧
        cursor.current = some (w.file cursor.file).latest ∧
        (makeHandle c thread config).run w =
          (({ w₁ with
              handles := w.handles.push
                ⟨config, thread, 1, some cursor, some c, none, false⟩ } : World).retainCoordinator c,
            .ok w.handles.size) := by
  have hlooked := stays_openCursorAt config none w
  rcases hopen : (openCursorAt config none).run w with ⟨w₁, failure | cursor⟩ <;>
    rw [hopen] at hlooked <;> change Looked w w₁ at hlooked
  · exact .inl ⟨w₁, failure, run_bind_error hopen _, hlooked⟩
  · obtain ⟨hfile, hcurrent, -⟩ := openCursorAt_eq_ok hopen
    refine .inr ⟨w₁, cursor, hlooked, hfile, hcurrent, ?_⟩
    rw [← hlooked.handles]
    exact run_bind_ok hopen _

/-- Everything that is done to hand out a handle once it is decided what to adopt. -/
def issueHandle (c : CoordinatorId) (thread : Thread) (config : Config)
    (adoption : Option Adoption) : Step HandleId := do
  let w ← world
  match if config.cache then w.reusableHandle c thread else none with
  | some h => do
    update (·.retainHandle h)
    applyAdoption c adoption
    return h
  | none => do
    match ← (makeHandle c thread config).attempt with
    | .ok h => do
      applyAdoption c adoption
      rememberHandle c h thread
      return h
    | .error failure => do
      abandonAdoption adoption
      fail failure

/-- A handle is handed out again, or one is made, or it comes to nothing. -/
theorem handles_issueHandle (c : CoordinatorId) (thread : Thread) (config : Config)
    (adoption : Option Adoption) (w : World) :
    let w' := ((issueHandle c thread config adoption).run w).1
    w'.handles = w.handles ∨ (∃ h, w'.handles = (w.retainHandle h).handles) ∨
      w.Opens c thread config w' := by
  unfold issueHandle
  rw [run_bind_ok (run_world w)]
  cases (if config.cache then w.reusableHandle c thread else none) with
  | some h =>
    obtain ⟨w₁, happly, hhandles, -⟩ := run_applyAdoption c adoption (w.retainHandle h)
    dsimp only
    rw [run_bind_ok (run_update _ w), run_bind_ok happly]
    exact .inr (.inl ⟨h, hhandles⟩)
  | none =>
    dsimp only
    rw [run_bind_ok (run_attempt _ w)]
    rcases run_makeHandle c thread config w with ⟨w₁, failure, hmake, hlooked⟩ |
      ⟨w₁, cursor, hlooked, hfile, hcurrent, hmake⟩ <;> rw [hmake]
    · have hrest : (abandonAdoption adoption >>= fun _ => fail failure : Step HandleId).Stays
          World.SameHandles := .bind (sameHandles_abandonAdoption adoption) fun _ => .fail _
      exact .inl ((hrest w₁).trans hlooked.handles)
    · let x : Handle := ⟨config, thread, 1, some cursor, some c, none, false⟩
      obtain ⟨w₃, happly, hhandles, hengines⟩ := run_applyAdoption c adoption
        (({ w₁ with handles := w.handles.push x } : World).retainCoordinator c)
      dsimp only
      rw [run_bind_ok happly]
      refine .inr (.inr ⟨cursor.file, hfile, ?_⟩)
      show w₃.handles = w.handles.push
        ⟨config, thread, 1, some ⟨cursor.file, some (w₃.file cursor.file).latest⟩, some c, none,
          false⟩
      have hlatest : (w₃.file cursor.file).latest = (w.file cursor.file).latest := by
        rw [World.file_congr hengines]
        exact congrArg File.latest (hlooked.file cursor.file)
      rw [hhandles, hlatest, ← hcurrent]
      rfl

/-- Whoever asks for a handle gets one that is there or a new one, or nothing happens to them. -/
theorem handles_getHandle (c : CoordinatorId) (thread : Thread) (config : Config) (w : World) :
    let w' := ((getHandle c thread config).run w).1
    w'.handles = w.handles ∨ (∃ h, w'.handles = (w.retainHandle h).handles) ∨
      w.Opens c thread config w' := by
  have hprepare := sameHandles_prepareAdoption c config w
  intro w'
  rcases hadopt : (prepareAdoption c config).run w with ⟨w₁, failure | adoption⟩ <;>
    rw [hadopt] at hprepare <;> change w₁.handles = w.handles at hprepare
  · have hw' : w' = w₁ := congrArg Prod.fst (run_bind_error hadopt _)
    exact .inl (by rw [hw']; exact hprepare)
  have hw' : w' = ((issueHandle c thread config adoption).run w₁).1 :=
    congrArg Prod.fst (run_bind_ok hadopt _)
  have hissued := handles_issueHandle c thread config adoption w₁
  rw [← hw'] at hissued
  rcases hissued with hsame | ⟨h, hretained⟩ | ⟨f, hf, hpushed⟩
  · exact .inl (hsame.trans hprepare)
  · refine .inr (.inl ⟨h, ?_⟩)
    rw [hretained]
    unfold World.retainHandle World.onHandle
    rw [hprepare]
  · exact .inr (.inr ⟨f, hf, by rw [hpushed, hprepare]⟩)

/-- To ask for a handle makes at most one, and takes the others onward. -/
theorem onward_getHandle (c : CoordinatorId) (thread : Thread) (config : Config) (w : World) :
    let w' := ((getHandle c thread config).run w).1
    w.Onward w' ∨ w.Opens c thread config w' := by
  have hundisturbed := stays_getHandle c thread config w
  intro w'
  change Undisturbed w w' at hundisturbed
  rcases handles_getHandle c thread config w with hsame | ⟨h, hretained⟩ | hopens
  · exact .inl (.of_undisturbed hundisturbed hsame)
  · exact .inl ((w.onward_retainHandle h).trans (.of_handles hundisturbed.commits hretained))
  · exact .inr hopens

end Step

/-! ## Sections -/

namespace Chore

/-- Every chore takes the handles onward that are there. -/
theorem onward_perform (w : World) (x : Chore) :
    w.Onward (x.perform w) ∨
      ∃ c thread config, x = .getHandle c thread config ∧ w.Opens c thread config (x.perform w) := by
  have hundisturbed := x.undisturbed_perform w
  have hsame : (x.perform w).handles = w.handles → w.Onward (x.perform w) :=
    .of_undisturbed hundisturbed
  cases x with
  | makeEngine => exact .inl (hsame rfl)
  | makeRegistry => exact .inl (hsame rfl)
  | makeQuery config observed version => exact .inl (hsame rfl)
  | setFaults e cursorsFail notifiersFail => exact .inl (hsame rfl)
  | lookAt e key => exact .inl (hsame rfl)
  | getCoordinator r path => exact .inl (hsame (w.handles_getCoordinator r path))
  | retainCoordinator c => exact .inl (hsame rfl)
  | releaseCoordinator c => exact .inl (hsame (recounted_releaseCoordinator w c).handles)
  | retainHandle h => exact .inl (w.onward_retainHandle h)
  | releaseHandle h => exact .inl (w.onward_releaseHandle h)
  | closeHandle h => exact .inl (w.onward_closeHandle h)
  | retainNotifier n => exact .inl (hsame rfl)
  | releaseNotifier n => exact .inl (hsame (recounted_releaseNotifier w n).handles)
  | resetRegistry r => exact .inl (w.onward_resetRegistry r)
  | getHandle c thread config =>
    exact (Step.onward_getHandle c thread config w).imp_right fun h => ⟨c, thread, config, rfl, h⟩
  | commit config log =>
    exact .inl (hsame (Step.stays_askEngine (R := World.SameHandles) config _ (fun _ _ => rfl) w))
  | moveHandle h asked => exact .inl (Step.onward_moveHandle h asked w)
  | settle c h =>
    exact .inl (Step.stays_settle_of (Step.onward_moveHandle h) ((covers_onward c).deliverAll h) c w)
  | deliverHere c h =>
    exact .inl (Step.stays_deliverHere_of ((covers_onward c).deliverAll h) c w)
  | setPending h pending => exact .inl (.onHandle w h (.kept rfl rfl rfl))
  | setContext h context => exact .inl (.onHandle w h (.kept rfl rfl rfl))
  | sweepListeners f => exact .inl (hsame rfl)
  | tellCallbacks q => exact .inl (hsame rfl)
  | tellAvailable context => exact .inl (hsame rfl)
  | tellDidChange context => exact .inl (hsame rfl)
  | concludeRun q => exact .inl ((covers_onward 0).concludeRun q w)

end Chore

namespace Moment

/-- **One section** takes every handle onward, unless it makes a new one. -/
theorem onward_perform (m : Moment) (s : Section) :
    m.world.Onward (m.perform s).world ∨ ∃ c thread config,
      s = .chore (.getHandle c thread config) ∧
        m.world.Opens c thread config (m.perform s).world := by
  by_cases hchore : ∃ x, s = .chore x
  · obtain ⟨x, rfl⟩ := hchore
    refine (x.onward_perform m.world).imp_right ?_
    rintro ⟨c, thread, config, rfl, hopens⟩
    exact ⟨c, thread, config, rfl, hopens⟩
  · exact .inl (m.perform_of_covers covers_onward s fun x hx => absurd ⟨x, hx⟩ hchore)

theorem commits_perform (m : Moment) (s : Section) (f : FileId) :
    (m.world.file f).commits <+: ((m.perform s).world.file f).commits := by
  rcases m.onward_perform s with honward | ⟨c, thread, config, rfl, -⟩
  · exact honward.commits f
  · exact (Chore.undisturbed_perform m.world _).commits f

theorem handle_perform (m : Moment) (s : Section) {h : HandleId}
    (hmade : h < m.world.handles.size) : h < (m.perform s).world.handles.size ∧
      Handle.Onward (m.perform s).world.file (m.world.handle h) ((m.perform s).world.handle h) := by
  rcases m.onward_perform s with honward | ⟨c, thread, config, -, f, -, hpushed⟩
  · exact ⟨Nat.lt_of_lt_of_le hmade honward.made, honward.handle h⟩
  · rw [World.handle_push hpushed, if_neg (Nat.ne_of_lt hmade), hpushed, Table.size_push]
    exact ⟨Nat.lt_add_right 1 hmade, .kept rfl rfl rfl⟩

theorem commits_after (m : Moment) (sections : List Section) (f : FileId) :
    (m.world.file f).commits <+: ((m.after sections).world.file f).commits :=
  preserved_after (I := fun m' => (m.world.file f).commits <+: (m'.world.file f).commits)
    (fun m' s h => h.trans (m'.commits_perform s f)) (List.prefix_refl _) sections

/-- The run lemma: every handle that was made goes onward in a row of sections. -/
theorem handle_after (m : Moment) (sections : List Section) {h : HandleId}
    (hmade : h < m.world.handles.size) :
    Handle.Onward (m.after sections).world.file (m.world.handle h)
      ((m.after sections).world.handle h) := by
  refine (preserved_after (I := fun m' => h < m'.world.handles.size ∧
    Handle.Onward m'.world.file (m.world.handle h) (m'.world.handle h))
    (fun m' s hm' => ?_) ⟨hmade, .kept rfl rfl rfl⟩ sections).2
  obtain ⟨hmade', honward⟩ := m'.handle_perform s hm'.1
  exact ⟨hmade', hm'.2.trans (m'.commits_perform s) honward⟩

/-- **Between any two sections every handle is sound.** -/
theorem sound_after (sections : List Section) (h : HandleId) :
    Handle.Sound (start.after sections).world.file ((start.after sections).world.handle h) := by
  refine preserved_after (I := fun m => ∀ h, Handle.Sound m.world.file (m.world.handle h))
    (fun m s hm i => ?_) (fun _ => .closed rfl rfl) sections h
  rcases m.onward_perform s with honward | ⟨c, thread, config, -, f, hf, hpushed⟩
  · exact (honward.handle i).sound honward.commits (hm i)
  · rw [World.handle_push hpushed]
    split
    · exact .reads f _ c rfl rfl hf (Version.le_refl _)
    · exact Handle.Onward.sound (m.commits_perform s) (.kept rfl rfl rfl) (hm i)

end Moment

end SnapshotCoordination
