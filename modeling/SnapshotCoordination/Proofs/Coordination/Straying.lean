import SnapshotCoordination.Proofs.Coordination.Aiming
import SnapshotCoordination.Proofs.Coordination.Chores
import SnapshotCoordination.Proofs.Handles.Asking

/-!
# Cursors that stray

The background cursors of a coordinator are opened on the file of its canonical configuration. When
nothing holds it to that configuration any more, the next open may have it adopt another one, and the
cursors are not asked: they stay on their files. If the new configuration names another file, from
then on the pipeline asks that file for its latest version and moves the cursors on the old one.

* **`Moment.grounded_after`** — whatever a background cursor reads is a version of its own file;
* **`Moment.adopted_of_config`** — only an open that adopts changes a canonical configuration;
* **`cursors_follow_config`** — a cursor looks at the file of the canonical configuration, unless this
  was replaced since the cursor was opened by one that names another file;
* **`exists_stray_read`** — there is a registration that has the advancer read on another file.
-/

namespace SnapshotCoordination

/-! ## Versions that exist -/

namespace World

/-- Whatever the background cursors read is a version that exists. -/
def Grounded (w : World) : Prop :=
  ∀ c, ∀ cursor ∈ (w.coordinator c).cursors, cursor.Grounded (w.file cursor.file)

/-- If it was so in the one world, it is so in the other. -/
def KeepsGrounded (w w' : World) : Prop := w.Grounded → w'.Grounded

instance : IsPreorder World KeepsGrounded where
  refl _ := id
  trans _ _ _ h h' := h' ∘ h

theorem keepsGrounded_of_grown {w w' : World}
    (hcursors : ∀ c, (w'.coordinator c).cursors = (w.coordinator c).cursors)
    (hcommits : ∀ f, (w.file f).commits <+: (w'.file f).commits) : w.KeepsGrounded w' :=
  fun h c cursor hcursor => (h c cursor (hcursors c ▸ hcursor)).grown (hcommits cursor.file)

end World

theorem covers_keepsGrounded (c : CoordinatorId) : Covers c World.KeepsGrounded where
  looked h := World.keepsGrounded_of_grown (fun d => by rw [h.coordinator])
    fun f => congrArg File.commits (h.file f) ▸ List.prefix_refl _
  file w f x hcommits _ := by
    refine World.keepsGrounded_of_grown (fun _ => rfl) fun g => ?_
    rw [World.file_setFile]
    split
    · next hg => exact hg ▸ hcommits ▸ List.prefix_refl _
    · exact List.prefix_refl _
  coordinator w g hg h d cursor hcursor := by
    rw [World.coordinator_onCoordinator] at hcursor
    split at hcursor
    · -- the cursors of this coordinator may have been moved
      rcases (hg (w.coordinator c)).grounded cursor hcursor with hold | hmoved
      · exact h c cursor hold
      · exact hmoved
    · exact h d cursor hcursor
  query _ _ _ := World.keepsGrounded_of_grown (fun _ => rfl) fun _ => List.prefix_refl _
  told _ _ _ := World.keepsGrounded_of_grown (fun _ => rfl) fun _ => List.prefix_refl _

namespace Moment

/-- The step lemma. -/
theorem grounded_perform (m : Moment) (s : Section) :
    m.world.Grounded → (m.perform s).world.Grounded := by
  refine m.perform_of_covers (R := World.KeepsGrounded) covers_keepsGrounded s fun x _ => ?_
  have hundisturbed := x.undisturbed_perform m.world
  refine World.keepsGrounded_of_grown (fun c => ?_) hundisturbed.commits
  exact congrArg (fun b => b.queryCursor.toList ++ b.advancer.toList) (hundisturbed.background c)

/-- The run lemma. -/
theorem grounded_after (sections : List Section) : (start.after sections).world.Grounded :=
  preserved_after (I := fun m => m.world.Grounded) (fun m s => m.grounded_perform s)
    (fun _ _ hcursor => absurd hcursor List.not_mem_nil) sections

end Moment

/-! ## Adoptions -/

namespace World

/-- Coordinator `c` keeps its configuration, or takes on the next one. -/
def Reconfigures (c : CoordinatorId) (next : Option Config) (w w' : World) : Prop :=
  (w'.coordinator c).config = (w.coordinator c).config ∨
    ∃ config ∈ next, (w'.coordinator c).config = some config

variable {c : CoordinatorId} {next : Option Config}

instance : IsPreorder World (Reconfigures c next) where
  refl _ := .inl rfl
  trans _ _ _ h h' := by
    rcases h' with hsame | hnext
    · exact h.imp hsame.trans fun ⟨config, hmem, hadopted⟩ => ⟨config, hmem, hsame.trans hadopted⟩
    · exact .inr hnext

theorem reconfigures_onCoordinator (w : World) (d : CoordinatorId) {f : Coordinator → Coordinator}
    (hf : c = d → (f (w.coordinator c)).config = (w.coordinator c).config ∨
      ∃ config ∈ next, (f (w.coordinator c)).config = some config) :
    w.Reconfigures c next (w.onCoordinator d f) := by
  unfold Reconfigures
  rw [coordinator_onCoordinator]
  split
  · next hd =>
    subst hd
    exact hf rfl
  · exact .inl rfl

end World

theorem tends_reconfigures (c : CoordinatorId) (next : Option Config) :
    Tends (World.Reconfigures c next) where
  elsewhere h _ := .inl (by rw [World.coordinator, World.coordinator, h])
  changed w d f hf := w.reconfigures_onCoordinator d fun _ => .inl (hf _)
  made w key r := by
    have hafter : ({ w with coordinators := w.coordinators.push (.made key r) } : World).coordinator c =
        if c = w.coordinators.size then .made key r else w.coordinator c :=
      w.coordinators.get_push (.made key r) c
    left
    rw [hafter]
    split
    · next hc =>
      -- nothing was there before
      subst hc
      exact (congrArg Coordinator.config w.coordinators.get_size).symm
    · rfl

theorem covers_reconfigures (c : CoordinatorId) (next : Option Config) (d : CoordinatorId) :
    Covers d (World.Reconfigures c next) where
  looked h := .inl (by rw [h.coordinator])
  file _ _ _ _ _ := .inl rfl
  coordinator w f hf := w.reconfigures_onCoordinator d fun _ =>
    .inl (congrArg Foreground.config (hf _).foreground)
  query _ _ _ := .inl rfl
  told _ _ _ := .inl rfl

theorem Prepared.adopts {c : CoordinatorId} {config : Config} {w w' : World} {adoption : Adoption}
    (h : Prepared c config w w' (some adoption)) :
    (w.coordinator c).adoptsNext ∧ adoption.config = config := by
  cases h with
  | plain hadopts hplain => exact ⟨hadopts, rfl⟩
  | heard f hf hadopts hwritable hnone => exact ⟨hadopts, rfl⟩

/-- To ask for a handle leaves the configuration of a coordinator as it is, or has the one that is
asked adopt that of the request, if it may. -/
theorem Step.reconfigures_getHandle (c d : CoordinatorId) (thread : Thread) (config : Config)
    (w : World) :
    w.Reconfigures c (if c = d ∧ (w.coordinator c).adoptsNext then some config else none)
      ((getHandle d thread config).run w).1 := by
  rcases run_prepareAdoption d config w with ⟨w₁, failure, hrun, hlooked⟩ |
    ⟨w₁, adoption, hrun, hprepared⟩
  · have hfailed : (getHandle d thread config).run w = (w₁, .error failure) := run_bind_error hrun _
    rw [hfailed]
    exact .inl (by rw [hlooked.coordinator])
  · have hissue : (getHandle d thread config).run w =
        (issueHandle d thread config adoption).run w₁ := run_bind_ok hrun _
    let next := if c = d ∧ (w.coordinator c).adoptsNext then some config else none
    have hadopts : (applyAdoption d adoption).Stays (World.Reconfigures c next) := by
      cases adoption with
      | none => exact .pure ()
      | some adoption =>
        refine .update fun w₂ => w₂.reconfigures_onCoordinator d fun hd => .inr ?_
        obtain ⟨hmay, hconfig⟩ := hprepared.adopts
        subst hd
        exact ⟨config, Option.mem_ite_none_right.mpr ⟨⟨rfl, hmay⟩, rfl⟩, congrArg some hconfig⟩
    have hissued := (tends_reconfigures c next).issueHandle hadopts thread config w₁
    unfold World.Reconfigures at hissued
    rw [hprepared.coordinator] at hissued
    rw [hissue]
    exact hissued

namespace Moment

variable {m : Moment} {s : Section} {c : CoordinatorId} {f : FileId}

/-- **Only an open that adopts** changes the configuration of a coordinator. -/
theorem adopted_of_config
    (h : ((m.perform s).world.coordinator c).config ≠ (m.world.coordinator c).config) :
    ∃ thread config, s = .chore (.getHandle c thread config) ∧
      (m.world.coordinator c).adoptsNext ∧
      ((m.perform s).world.coordinator c).config = some config := by
  -- were it not so, there would be nothing to adopt, and the configuration would be kept
  by_contra hnone
  have hcovers := covers_reconfigures c none
  have hnote : ∀ (w : World) e, w.Reconfigures c none (w.note e) := fun _ _ => .inl rfl
  have hkept : m.world.Reconfigures c none (m.perform s).world := by
    refine m.perform_of_covers hcovers s fun x hs => ?_
    refine x.perform_of_tends hcovers hnote (tends_reconfigures c none) m.world
      fun d thread config hx => ?_
    refine (Step.reconfigures_getHandle c d thread config m.world).imp_right
      fun ⟨adopted, hmem, hadopted⟩ => absurd ?_ hnone
    obtain ⟨⟨rfl, hmay⟩, hsame⟩ := Option.mem_ite_none_right.mp hmem
    obtain rfl : config = adopted := Option.some_inj.mp hsame
    subst hs hx
    exact ⟨thread, config, rfl, hmay, hadopted⟩
  rcases hkept with hsame | ⟨config, hmem, -⟩
  · exact h hsame
  · cases hmem

/-! ## Straying -/

/-- A background cursor of coordinator `c` looks at file `f`, and that is not the file of the
canonical configuration. -/
def Strays (c : CoordinatorId) (f : FileId) (m : Moment) : Prop :=
  f ∈ (m.world.coordinator c).sights ∧ (m.world.coordinator c).file? ≠ some f

/-- The section has coordinator `c` adopt a configuration that names another file than `f`, at which
a background cursor looks. -/
def Abandons (c : CoordinatorId) (f : FileId) (m : Moment) (s : Section) : Prop :=
  ∃ thread config, s = .chore (.getHandle c thread config) ∧
    (m.world.coordinator c).adoptsNext ∧
    f ∈ (m.world.coordinator c).sights ∧ (m.world.coordinator c).file? = some f ∧
    config.file? ≠ some f

/-- A cursor that strays did so before, or its file has just been abandoned. -/
theorem abandons_of_strays (h : Strays c f (m.perform s)) : Strays c f m ∨ Abandons c f m s := by
  obtain ⟨hsight, hoff⟩ := h
  by_cases hfile : (m.world.coordinator c).file? = some f
  · -- the cursor is where it was, so the configuration went elsewhere
    right
    have hchanged : ((m.perform s).world.coordinator c).config ≠ (m.world.coordinator c).config := by
      intro hsame
      rw [Coordinator.file?, hsame] at hoff
      exact hoff hfile
    obtain ⟨thread, config, rfl, hmay, hadopted⟩ := adopted_of_config hchanged
    have hbackground := (Chore.undisturbed_perform m.world (.getHandle c thread config)).background c
    rw [Coordinator.file?, hadopted] at hoff
    exact ⟨thread, config, rfl, hmay, Coordinator.sights_of_background hbackground hsight, hfile, hoff⟩
  · exact .inl ⟨(m.sights_perform s hsight).resolve_right hfile, hfile⟩

end Moment

/-- **Background cursors follow the canonical configuration** as long as it names the same file.
Whatever went on in a process: a background cursor of a coordinator reads, if it reads at all, a
version of its file that exists. It looks at the file of the canonical configuration, unless an open
has replaced that configuration by one that names another file while the cursor was open; the
coordinator may adopt another configuration once no handle of a read-only one is remembered, or when
the notifier of a writable one was given up. Since then the cursor strays. -/
theorem cursors_follow_config (c : CoordinatorId) (sections : List Section) :
    let m := Moment.start.after sections
    let s := m.world.coordinator c
    ∀ cursor ∈ s.cursors, cursor.Grounded (m.world.file cursor.file) ∧
      (s.file? = some cursor.file ∨
        ∃ before adoption since, sections = before ++ adoption :: since ∧
          (Moment.start.after before).Abandons c cursor.file adoption ∧
          ∀ more, more <+: since →
            (Moment.start.after (before ++ adoption :: more)).Strays c cursor.file) := by
  intro m s cursor hcursor
  refine ⟨Moment.grounded_after sections c cursor hcursor, ?_⟩
  have hsight : cursor.file ∈ s.sights := List.mem_map_of_mem hcursor
  refine or_iff_not_imp_left.mpr fun hoff => ?_
  exact Moment.exists_onset (P := Moment.Strays c cursor.file) (fun h => nomatch h.1)
    (fun _ _ => Moment.abandons_of_strays) ⟨hsight, hoff⟩

/-- A file is opened read-only, and a query is registered and imported. Then the query dies and the
handle is closed, while a reference to the coordinator is held. -/
def leftBehind : List Section :=
  [.chore .makeEngine, .chore .makeEngine, .chore .makeRegistry, .chore (.getCoordinator 0 "/a"),
    .chore (.getHandle 0 none { Config.forFile "/a" 0 with readOnly := true }),
    .chore (.makeQuery none [] ⟨1, 0⟩), .register 0 0, .beginCycle 0, .kill 0,
    .chore (.closeHandle 0)]

/-- The same path is then opened with another engine, and a query is made. -/
def openedAnew : List Section :=
  leftBehind ++ [.chore (.getHandle 0 none (.forFile "/a" 1)), .chore (.makeQuery none [] ⟨1, 0⟩)]

/-- Before it was opened anew the query cursor was on the file of the canonical configuration, and
read a version that exists; it is this open that has it stray. -/
theorem cursors_follow_config_openedAnew :
    let cursor : Cursor := ⟨⟨0, "/a"⟩, some ⟨1, 0⟩⟩
    let m := Moment.start.after leftBehind
    let m' := Moment.start.after openedAnew
    (cursor ∈ (m.world.coordinator 0).cursors ∧ cursor.Grounded (m.world.file ⟨0, "/a"⟩) ∧
      (m.world.coordinator 0).file? = some ⟨0, "/a"⟩) ∧
    cursor ∈ (m'.world.coordinator 0).cursors ∧ (m'.world.coordinator 0).file? = some ⟨1, "/a"⟩ ∧
      ∃ before adoption since, openedAnew = before ++ adoption :: since ∧
        (Moment.start.after before).Abandons 0 ⟨0, "/a"⟩ adoption := by
  intro cursor m m'
  have hopen : cursor ∈ (m.world.coordinator 0).cursors := by decide +kernel
  have hopen' : cursor ∈ (m'.world.coordinator 0).cursors := by decide +kernel
  obtain ⟨hgrounded, -⟩ := cursors_follow_config 0 leftBehind cursor hopen
  obtain ⟨-, hfile | ⟨before, adoption, since, hsplit, habandons, -⟩⟩ :=
    cursors_follow_config 0 openedAnew cursor hopen'
  · exact absurd hfile (by decide +kernel)
  · exact ⟨⟨hopen, hgrounded, by decide +kernel⟩, hopen', by decide +kernel, before, adoption, since,
      hsplit, habandons⟩

/-- A registration may have the advancer start to read on a file that the canonical configuration
does not name; once something is committed to the file it does name, the next cycle fails. -/
theorem exists_stray_read :
    (¬ ∀ (sections : List Section) (c : CoordinatorId) (s : Section),
      Moment.start.Follows Moment.Allows (sections ++ [s]) →
      (s = .beginCycle c ∨ ∃ q, s = .register c q) →
      let old := (Moment.start.after sections).world.coordinator c
      let new := (Moment.start.after (sections ++ [s])).world.coordinator c
      ∀ cursor : Cursor,
        (new.queryCursor = some cursor ∧ old.queryCursor ≠ some cursor) ∨
          (new.advancer = some cursor ∧ old.advancer ≠ some cursor) →
        new.file? = some cursor.file) ∧
    ((Moment.start.after (openedAnew ++ [.register 0 1, .chore (.commit (.forFile "/a" 1) []),
      .beginCycle 0])).world.coordinator 0).asyncError.isSome := by
  refine ⟨fun hall => ?_, by decide +kernel⟩
  have hfile := hall openedAnew 0 (.register 0 1) (by decide +kernel) (.inr ⟨1, rfl⟩)
    ⟨⟨0, "/a"⟩, some ⟨1, 0⟩⟩ (.inr (by decide +kernel))
  exact absurd hfile (by decide +kernel)

end SnapshotCoordination
