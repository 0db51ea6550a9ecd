import SnapshotCoordination.Proofs.Handles.Holdings

/-!
# What asking for a handle comes to

To ask a coordinator for a handle is first to prepare an adoption, for which a notifier may be made
(`Prepared`), and then to hand out a handle that is there or to make one. Whether or not that goes
well, there are four ways in which it can end (`Asked`):

* nothing happened;
* a notifier was made and is given up again;
* a handle is handed out again, and nothing is adopted;
* a handle was made, and with it the adoption is in effect.

* **`Step.run_prepareAdoption`** — what the preparation comes to;
* **`Step.run_getHandle`** — what the whole comes to, if nothing is adopted while a handle is
  remembered.
-/

namespace SnapshotCoordination

/-! ## Preparing an adoption -/

/-- A notifier was made for coordinator `c`, which listens on file `f` from now on. -/
def World.listening (w : World) (c : CoordinatorId) (f : FileId) : World :=
  { w.setFile f ((w.file f).listen c) with notifiers := w.notifiers.push ⟨f, c, 1⟩ }

/-- How a preparation can end in a world from which a handle may be made. -/
inductive Prepared (c : CoordinatorId) (config : Config) (w : World) :
    World → Option Adoption → Prop where
  /-- The configuration agrees with the canonical one, which stays. -/
  | agreed (canonical : Config) (hcanonical : (w.coordinator c).config = some canonical)
      (hkept : (w.coordinator c).adoptsNext = false)
      (hagrees : canonical.conflict? config = none) : Prepared c config w w none
  /-- The configuration is to be adopted, and no notifier is made for it. -/
  | plain (hadopts : (w.coordinator c).adoptsNext)
      (hplain : config.readOnly ∨ (w.coordinator c).notifier.isSome) :
      Prepared c config w w (some ⟨config, none⟩)
  /-- The configuration is to be adopted together with a notifier. -/
  | heard (f : FileId) (hf : config.file? = some f) (hadopts : (w.coordinator c).adoptsNext)
      (hwritable : config.readOnly = false) (hnone : (w.coordinator c).notifier = none) :
      Prepared c config w (w.listening c f) (some ⟨config, some w.notifiers.size⟩)

namespace Step

variable {c : CoordinatorId} {config : Config}

/-- A notifier is made, or nothing happened. -/
theorem run_makeNotifier (c : CoordinatorId) (config : Config) (w : World) :
    (∃ w' failure, (makeNotifier c config).run w = (w', .error failure) ∧ Looked w w') ∨
      ∃ f, config.file? = some f ∧
        (makeNotifier c config).run w = (w.listening c f, .ok w.notifiers.size) := by
  unfold makeNotifier
  cases he : config.engine with
  | none =>
    have hengine : config.engine? = .error (.invalidConfig (.noEngine config.path)) := by
      rw [Config.engine?, he]
    rw [hengine]
    exact .inl ⟨w, _, rfl, .refl w⟩
  | some e =>
    have hengine : config.engine? = .ok e := by rw [Config.engine?, he]
    rw [run_bind_ok (show (ofExcept config.engine?).run w = (w, .ok e) by rw [hengine]; rfl),
      run_bind_ok (run_askEngine he w)]
    by_cases hfail : (w.engine e).notifiersFail
    · left
      have hrefused : (w.engine e).listen config.path c =
          (w.engine e, .error (.storage .noNotificationPipe)) := by
        simp [Engine.listen, hfail]
      rw [hrefused]
      exact ⟨_, _, rfl, .of_setEngine w fun _ => rfl⟩
    · right
      have hlistens : (w.engine e).listen config.path c =
          ((w.engine e).setFile (FilePath.key config.path)
            (((w.engine e).file (FilePath.key config.path)).listen c),
            .ok (FilePath.key config.path)) := by
        simp [Engine.listen, hfail]
      rw [hlistens]
      exact ⟨⟨e, FilePath.key config.path⟩, by rw [Config.file?, he]; rfl, rfl⟩

/-- **The preparation** is refused, and then nothing happened, or an adoption is prepared. -/
theorem run_prepareAdoption (c : CoordinatorId) (config : Config) (w : World) :
    (∃ w' failure, (prepareAdoption c config).run w = (w', .error failure) ∧ Looked w w') ∨
      ∃ w' adoption, (prepareAdoption c config).run w = (w', .ok adoption) ∧
        Prepared c config w w' adoption := by
  unfold prepareAdoption
  rw [run_bind_ok (run_world w)]
  dsimp only
  cases hadopts : (w.coordinator c).adoptsNext with
  | true =>
    rw [if_pos rfl]
    by_cases hnew : !config.readOnly && (w.coordinator c).notifier.isNone
    · rw [if_pos hnew]
      simp only [Bool.and_eq_true, Bool.not_eq_true', Option.isNone_iff_eq_none] at hnew
      rcases run_makeNotifier c config w with ⟨w', failure, hrun, hlooked⟩ | ⟨f, hf, hrun⟩
      · exact .inl ⟨w', failure, run_bind_error hrun _, hlooked⟩
      · exact .inr ⟨_, _, run_bind_ok hrun _, .heard f hf hadopts hnew.1 hnew.2⟩
    · rw [if_neg hnew]
      refine .inr ⟨w, _, rfl, .plain hadopts ?_⟩
      cases hreadOnly : config.readOnly with
      | true => exact .inl rfl
      | false =>
        simp only [hreadOnly, Bool.not_false, Bool.true_and] at hnew
        exact .inr (by simpa [Option.isSome_iff_ne_none] using hnew)
  | false =>
    rw [if_neg Bool.false_ne_true]
    cases hcanonical : (w.coordinator c).config with
    | none =>
      -- without a canonical configuration the next open decides it
      rw [Coordinator.adoptsNext, hcanonical] at hadopts
      cases hadopts
    | some canonical =>
      dsimp only
      cases hconflict : canonical.conflict? config with
      | none =>
        have hchecked : canonical.checkCompatible config = .ok () := by
          rw [Config.checkCompatible, hconflict]
        rw [hchecked]
        exact .inr ⟨w, none, rfl, .agreed canonical hcanonical hadopts hconflict⟩
      | some field =>
        have hchecked : canonical.checkCompatible config =
            .error (.mismatchedConfig canonical.path field field.conflict) := by
          rw [Config.checkCompatible, hconflict]
        rw [hchecked]
        exact .inl ⟨w, _, rfl, .refl w⟩

end Step

/-! ## Handing out a handle -/

/-- What an adoption makes of a coordinator. -/
def Coordinator.adopting (s : Coordinator) : Option Adoption → Coordinator
  | some adoption => s.adopt adoption.config adoption.notifier
  | none => s

/-- A new handle was made for coordinator `c`, which put an adoption into effect and remembers the
handle. -/
structure Admitted (c : CoordinatorId) (x : Handle) (adoption : Option Adoption) (w w' : World) :
    Prop where
  handles : w'.handles = w.handles.push x
  self : ∃ reusable, w'.coordinator c =
    { (w.coordinator c).adopting adoption with
      refs := (w.coordinator c).refs + 1
      cached := (w.coordinator c).cached ++ [⟨w.handles.size, x.thread, reusable⟩] }
  others : ∀ d, d ≠ c → w'.coordinator d = w.coordinator d
  notifiers : w'.notifiers = w.notifiers
  registries : w'.registries = w.registries
  file : ∀ f, w'.file f = w.file f

theorem Admitted.handle {c : CoordinatorId} {x : Handle} {adoption : Option Adoption} {w w' : World}
    (h : Admitted c x adoption w w') (i : HandleId) :
    w'.handle i = if i = w.handles.size then x else w.handle i := World.handle_push h.handles i

/-- How asking coordinator `c` for a handle can end. -/
inductive Asked (c : CoordinatorId) (thread : Thread) (config : Config) (w : World) :
    World → Except Failure HandleId → Prop where
  /-- Nothing happened. -/
  | refused (w' : World) (failure : Failure) (hlooked : Looked w w') :
      Asked c thread config w w' (.error failure)
  /-- A notifier was made for nothing, and is given up. -/
  | abandoned (f : FileId) (w₁ : World) (failure : Failure) (hf : config.file? = some f)
      (hnone : (w.coordinator c).notifier = none) (hlooked : Looked (w.listening c f) w₁) :
      Asked c thread config w (w₁.releaseNotifier w.notifiers.size) (.error failure)
  /-- A handle is handed out again. -/
  | reused (h : HandleId) (canonical : Config) (hmem : h ∈ (w.coordinator c).cached.map (·.handle))
      (halive : w.isAliveHandle h) (hcanonical : (w.coordinator c).config = some canonical)
      (hkept : (w.coordinator c).adoptsNext = false) :
      Asked c thread config w (w.retainHandle h) (.ok h)
  /-- A handle was made. -/
  | made (adoption : Option Adoption) (cursor : Cursor) (w₁ w' : World)
      (hprepared : Prepared c config w w₁ adoption) (hf : config.file? = some cursor.file)
      (hadmitted : Admitted c ⟨config, thread, 1, some cursor, some c, none, false⟩ adoption
        w₁ w') :
      Asked c thread config w w' (.ok w.handles.size)

namespace World

theorem mem_of_reusableHandle {w : World} {c : CoordinatorId} {thread : Thread} {h : HandleId}
    (hfound : w.reusableHandle c thread = some h) :
    h ∈ (w.coordinator c).cached.map (·.handle) ∧ w.isAliveHandle h := by
  unfold reusableHandle at hfound
  obtain ⟨entry, hentry, rfl⟩ := List.mem_map.mp (List.mem_of_find?_eq_some hfound)
  exact ⟨List.mem_map_of_mem (List.mem_of_mem_filter hentry), List.find?_some hfound⟩

end World

namespace Prepared

variable {c : CoordinatorId} {config : Config} {w w' : World} {adoption : Option Adoption}

theorem handles (h : Prepared c config w w' adoption) : w'.handles = w.handles := by
  cases h <;> rfl

theorem coordinators (h : Prepared c config w w' adoption) : w'.coordinators = w.coordinators := by
  cases h <;> rfl

theorem coordinator (h : Prepared c config w w' adoption) (d : CoordinatorId) :
    w'.coordinator d = w.coordinator d := by
  simp only [World.coordinator, h.coordinators]

end Prepared

namespace Step

variable {c : CoordinatorId} {thread : Thread} {config : Config}

/-- Once a handle is made, an adoption is put into effect and the handle is remembered. -/
theorem admitted_of_made (c : CoordinatorId) {w w₁ : World} (hlooked : Looked w w₁) (x : Handle)
    (adoption : Option Adoption) :
    ∃ w', (do
        applyAdoption c adoption
        rememberHandle c w.handles.size x.thread
        return w.handles.size : Step HandleId).run
          (({ w₁ with handles := w.handles.push x } : World).retainCoordinator c) =
        (w', .ok w.handles.size) ∧
      Admitted c x adoption w w' := by
  let w₂ : World := { w₁ with handles := w.handles.push x }
  -- with or without an adoption, the rest changes the coordinator only
  have hrest : ∃ w', (do
        applyAdoption c adoption
        rememberHandle c w.handles.size x.thread
        return w.handles.size : Step HandleId).run (w₂.retainCoordinator c) =
          (w', .ok w.handles.size) ∧
      w' = { w₂ with coordinators := w'.coordinators } ∧
      (∃ reusable, w'.coordinator c =
        { (w₂.coordinator c).adopting adoption with
          refs := (w₂.coordinator c).refs + 1
          cached := (w₂.coordinator c).cached ++ [⟨w.handles.size, x.thread, reusable⟩] }) ∧
      ∀ d, d ≠ c → w'.coordinator d = w₂.coordinator d := by
    cases adoption with
    | none =>
      refine ⟨_, rfl, rfl, ⟨(w₂.coordinator c).config.elim true (·.cache), ?_⟩, fun d hd => ?_⟩
      · rw [World.coordinator_onCoordinator_self, World.retainCoordinator,
          World.coordinator_onCoordinator_self]
        rfl
      · simp only [World.retainCoordinator, World.coordinator_onCoordinator, if_neg hd]
    | some adoption =>
      refine ⟨_, rfl, rfl, ⟨adoption.config.cache, ?_⟩, fun d hd => ?_⟩
      · rw [World.coordinator_onCoordinator_self, World.coordinator_onCoordinator_self,
          World.retainCoordinator, World.coordinator_onCoordinator_self]
        rfl
      · simp only [World.retainCoordinator, World.coordinator_onCoordinator, if_neg hd]
  obtain ⟨w', hrun, heq, hself, hothers⟩ := hrest
  have hsame : ∀ d, w₂.coordinator d = w.coordinator d := hlooked.coordinator
  simp only [hsame] at hself hothers
  refine ⟨w', hrun, ?_, hself, hothers, ?_, ?_, fun f => ?_⟩
  · rw [heq]
  · rw [heq]
    show w₁.notifiers = _
    rw [hlooked.eq]
  · rw [heq]
    show w₁.registries = _
    rw [hlooked.eq]
  · rw [← hlooked.file f, heq]
    rfl

/-- **To ask for a handle** comes to one of four things, if nothing is adopted while a handle is
remembered. -/
theorem run_getHandle (thread : Thread) (config : Config) {w : World}
    (hidle : (w.coordinator c).adoptsNext → (w.coordinator c).cached = []) :
    ∃ w' outcome, (getHandle c thread config).run w = (w', outcome) ∧
      Asked c thread config w w' outcome := by
  rcases run_prepareAdoption c config w with ⟨w', failure, hrun, hlooked⟩ |
    ⟨w₁, adoption, hrun, hprepared⟩
  · exact ⟨w', _, run_bind_error hrun _, .refused w' failure hlooked⟩
  have hissue : (getHandle c thread config).run w =
      (issueHandle c thread config adoption).run w₁ := run_bind_ok hrun _
  rw [hissue]
  unfold issueHandle
  rw [run_bind_ok (run_world w₁)]
  cases hfound : (if config.cache then w₁.reusableHandle c thread else none) with
  | some h =>
    dsimp only
    have hreusable : w₁.reusableHandle c thread = some h := by
      split at hfound
      · exact hfound
      · cases hfound
    obtain ⟨hmem, halive⟩ := World.mem_of_reusableHandle hreusable
    rw [hprepared.coordinator] at hmem
    -- a handle is remembered, so nothing is adopted
    have hkept : (w.coordinator c).adoptsNext = false := by
      rw [Bool.eq_false_iff]
      intro hadopts
      rw [hidle hadopts] at hmem
      cases hmem
    cases hprepared with
    | agreed canonical hcanonical _ hagrees =>
      exact ⟨_, _, rfl, .reused h canonical hmem halive hcanonical hkept⟩
    | plain hadopts => rw [hkept] at hadopts; cases hadopts
    | heard f hf hadopts => rw [hkept] at hadopts; cases hadopts
  | none =>
    dsimp only
    rw [run_bind_ok (run_attempt _ w₁)]
    rcases run_makeHandle c thread config w₁ with ⟨w₂, failure, hmake, hlooked⟩ |
      ⟨w₂, cursor, hlooked, hfile, -, hmake⟩ <;> rw [hmake]
    · cases hprepared with
      | agreed => exact ⟨_, _, rfl, .refused w₂ failure hlooked⟩
      | plain => exact ⟨_, _, rfl, .refused w₂ failure hlooked⟩
      | heard f hf hadopts hwritable hnone =>
        exact ⟨_, _, rfl, .abandoned f w₂ failure hf hnone hlooked⟩
    · obtain ⟨w', hrun, hadmitted⟩ := admitted_of_made c hlooked
        ⟨config, thread, 1, some cursor, some c, none, false⟩ adoption
      refine ⟨w', _, ?_, .made adoption cursor w₁ w' hprepared hfile hadmitted⟩
      rw [← hprepared.handles]
      exact hrun

end Step

end SnapshotCoordination
