import SnapshotCoordination.Proofs.Coordination.Accounting

/-!
# Cursors stay on their file

A background cursor is opened on the file of the canonical configuration, and stays on that file. So
as long as a coordinator keeps the configuration it has adopted, its cursors look at the file of that
configuration, and it has no queries before it has a file.

* **`Moment.sights_perform`** — a section leaves the cursors on their files, or opens one on the file
  of the canonical configuration;
* **`Aimed`** — the invariant of one coordinator;
* **`Moment.AllowsKept`** — the rule under which it holds;
* **`Aimed.after`** — it holds between any two sections.
-/

namespace SnapshotCoordination

/-! ## What the cursors look at -/

namespace Coordinator

variable {s s' : Coordinator} {f : FileId}

/-- The files that the background cursors look at. -/
def sights (s : Coordinator) : List FileId := s.cursors.map (·.file)

theorem mem_sights : f ∈ s.sights ↔
    s.queryCursor.map (·.file) = some f ∨ s.advancer.map (·.file) = some f := by
  simp only [sights, List.mem_map, mem_cursors, or_and_right, exists_or, Option.map_eq_some_iff]

theorem sights_congr (hf : f ∈ s'.sights)
    (hquery : s'.queryCursor.map (·.file) = s.queryCursor.map (·.file))
    (hadvancer : s'.advancer.map (·.file) = s.advancer.map (·.file)) : f ∈ s.sights := by
  rw [mem_sights] at hf ⊢
  rwa [hquery, hadvancer] at hf

theorem sights_of_background (h : s'.background = s.background) (hf : f ∈ s'.sights) :
    f ∈ s.sights :=
  sights_congr hf (congrArg (fun x => x.queryCursor.map (·.file)) h)
    (congrArg (fun x => x.advancer.map (·.file)) h)

/-- A cursor that stops reading stays on its file. -/
theorem sights_swept {dead : QueryId → Bool} (hf : f ∈ (s.swept dead).sights) : f ∈ s.sights := by
  have hstopped : ∀ {p : Prop} [Decidable p] (cursor : Option Cursor),
      (if p then cursor.map (·.endRead) else cursor).map (·.file) = cursor.map (·.file) := by
    intro p _ cursor
    split
    · rw [Option.map_map]
      rfl
    · rfl
  exact sights_congr hf (hstopped _) (hstopped _)

end Coordinator

/-- A registration opens the advancer on the file of the configuration, or moves it on its file. -/
theorem PinOutcome.sights {w : World} {config : Config} {version : Version} {s s' : Coordinator}
    {f : FileId} (h : PinOutcome w config version s s') (hf : f ∈ s'.sights) :
    f ∈ s.sights ∨ config.file? = some f := by
  cases h with
  | skipped hfailed => exact .inl hf
  | captured advancer failure hsame => exact .inl (Coordinator.sights_congr hf rfl hsame)
  | held cursor u hnone hu hle hcursor hlatest hother =>
    rcases Coordinator.mem_sights.mp hf with hquery | hadvancer
    · exact .inl (Coordinator.mem_sights.mpr (.inl hquery))
    · obtain rfl : cursor.file = f := Option.some_inj.mp hadvancer
      exact hcursor.symm.imp_left fun hsame => Coordinator.mem_sights.mpr (.inr hsame)

/-- The query cursor is opened on the file of the configuration, or starts again on its file. -/
theorem ReadyOutcome.sights {w : World} {config : Config} {s s' : Coordinator} {f : FileId}
    (h : ReadyOutcome w config s s') (hf : f ∈ s'.sights) :
    f ∈ s.sights ∨ config.file? = some f := by
  cases h with
  | captured failure => exact .inl hf
  | kept cursor u hcursor hu hmain => exact .inl hf
  | started cursor hcursor hu hmain =>
    rcases Coordinator.mem_sights.mp hf with hquery | hadvancer
    · obtain rfl : cursor.file = f := Option.some_inj.mp hquery
      exact hcursor.symm.imp_left fun hsame => Coordinator.mem_sights.mpr (.inl hsame)
    · exact .inl (Coordinator.mem_sights.mpr (.inr hadvancer))

theorem Opened.file? {c : CoordinatorId} {config : Config} {w w₁ : World}
    (h : Opened c config w w₁) : (w₁.coordinator c).file? = config.file? := by
  rw [Coordinator.file?, h.within.config, h.configured]
  rfl

theorem Opened.sights {c : CoordinatorId} {config : Config} {w w₁ : World} {f : FileId}
    (h : Opened c config w w₁) (hf : f ∈ (w₁.coordinator c).sights) :
    f ∈ (w.coordinator c).sights ∨ (w.coordinator c).file? = some f := by
  refine (h.ready.sights hf).imp Coordinator.sights_swept fun hopened => ?_
  rw [Coordinator.file?, h.configured]
  exact hopened

theorem CycleOutcome.sights {c : CoordinatorId} {w w' : World}
    {outcome : Except Failure (Option Step.Cycle)} {f : FileId} (h : CycleOutcome c w w' outcome)
    (hf : f ∈ (w'.coordinator c).sights) :
    f ∈ (w.coordinator c).sights ∨ (w.coordinator c).file? = some f := by
  cases h with
  | unconfigured hconfig hsame => exact .inl (hsame ▸ hf)
  | idle hwithin hself hmain hwaiting => exact .inl (Coordinator.sights_swept (hself ▸ hf))
  | abandoned hwithin hleft hmain hwaiting hquery hadvancer hfailed =>
    have hswept : f ∈ (w.sweptCoordinator c).sights :=
      Coordinator.sights_congr hf (by rw [hquery]) (by rw [hadvancer])
    exact .inl (Coordinator.sights_swept hswept)
  | refused config w₁ w₂ failure captured hopened himport hcaptured hbecomes =>
    have hfailed := Step.importAndReplay_eq_error hopened.isOpen himport
    rw [hbecomes.self] at hf
    exact hopened.sights
      (Coordinator.sights_congr hf (congrArg _ hfailed.queryCursor) hfailed.advancerFile)
  | begun config w₁ changes hopened himport =>
    have himported := Step.importAndReplay_eq_ok himport
    exact hopened.sights (Coordinator.sights_congr hf himported.queryFile himported.advancerFile)

/-- **Every section** leaves the cursors of a coordinator on their files, or opens one on the file of
the canonical configuration. -/
theorem Moment.sights_perform (m : Moment) (s : Section) {c : CoordinatorId} {f : FileId}
    (hf : f ∈ ((m.perform s).world.coordinator c).sights) :
    f ∈ (m.world.coordinator c).sights ∨ (m.world.coordinator c).file? = some f := by
  have htouched := m.touched_perform s c
  generalize (m.perform s).world = w' at hf htouched
  cases htouched with
  | spared s hsame => exact .inl (Coordinator.sights_of_background hsame hf)
  | registered q config s hpin hself hconfig =>
    rw [hself] at hf
    refine (hpin.sights hf).imp Coordinator.sights_swept fun hopened => ?_
    rw [Coordinator.file?, hconfig]
    exact hopened
  | cycled outcome hrun houtcome => exact houtcome.sights hf
  | concluded queries hself => exact .inl (Coordinator.sights_swept (hself ▸ hf))

/-- A coordinator without a configuration is given no queries. -/
theorem Moment.configured_of_lists (m : Moment) (s : Section) {c : CoordinatorId}
    (h : ((m.perform s).world.coordinator c).lists ≠ []) :
    (m.world.coordinator c).lists ≠ [] ∨ (m.world.coordinator c).config.isSome := by
  have hswept : (m.world.sweptCoordinator c).lists ≠ [] → (m.world.coordinator c).lists ≠ [] := by
    intro hne
    obtain ⟨q, hq⟩ := List.exists_mem_of_ne_nil _ hne
    exact List.ne_nil_of_mem (Coordinator.mem_lists_swept.mp hq).1
  have htouched := m.touched_perform s c
  generalize (m.perform s).world = w' at h htouched
  cases htouched with
  | spared s hsame =>
    have hlists : (w'.coordinator c).lists = (m.world.coordinator c).lists :=
      congrArg (fun x => x.queries ++ x.newQueries) hsame
    exact .inl (hlists ▸ h)
  | registered q config s hpin hself hconfig => exact .inr (by rw [hconfig]; rfl)
  | cycled outcome hrun houtcome =>
    cases houtcome with
    | unconfigured hconfig hsame => exact .inl (hsame ▸ h)
    | idle hwithin hself hmain hwaiting => exact .inl (hswept (hself ▸ h))
    | abandoned hwithin hleft hmain hwaiting hquery hadvancer hfailed =>
      rw [Coordinator.lists, hmain, hwaiting, List.append_nil] at h
      exact .inl (hswept h)
    | refused config w₁ w₂ failure captured hopened himport hcaptured hbecomes =>
      exact .inr (by rw [hopened.configured]; rfl)
    | begun config w₁ changes hopened himport => exact .inr (by rw [hopened.configured]; rfl)
  | concluded queries hself => exact .inl (hswept (hself ▸ h))

/-! ## The invariant -/

/-- Both cursors of a coordinator look at its file, and it has one if it has queries. -/
structure Aimed (s : Coordinator) : Prop where
  configured : s.lists ≠ [] → s.config.isSome
  query : ∀ f, s.queryCursor.map (·.file) = some f → s.file? = some f
  advancer : ∀ f, s.advancer.map (·.file) = some f → s.file? = some f

namespace Aimed

variable {s s' : Coordinator} {f : FileId}

theorem aims (h : Aimed s) (hf : f ∈ s.sights) : s.file? = some f :=
  (Coordinator.mem_sights.mp hf).elim (h.query f) (h.advancer f)

theorem of_aims (hconfigured : s.lists ≠ [] → s.config.isSome)
    (haims : ∀ f ∈ s.sights, s.file? = some f) : Aimed s :=
  ⟨hconfigured, fun f hf => haims f (Coordinator.mem_sights.mpr (.inl hf)),
    fun f hf => haims f (Coordinator.mem_sights.mpr (.inr hf))⟩

end Aimed

/-- The invariant reaches the import. -/
theorem Opened.aimed {c : CoordinatorId} {config : Config} {w w₁ : World}
    (h : Opened c config w w₁) (haimed : Aimed (w.coordinator c)) : Aimed (w₁.coordinator c) := by
  have hconfig : (w₁.coordinator c).config = (w.coordinator c).config := h.within.config
  refine .of_aims (fun _ => ?_) fun f hf => ?_
  · rw [hconfig, h.configured]
    rfl
  · rw [Coordinator.file?, hconfig]
    exact (h.sights hf).elim haimed.aims id

/-! ## Between any two sections -/

namespace Moment

/-- The rule `Moment.Allows`, and beside it: coordinator `c` keeps the configuration it has
adopted. -/
def AllowsKept (c : CoordinatorId) (m : Moment) (s : Section) : Prop :=
  m.Allows s ∧ ((m.world.coordinator c).config = none ∨
    ((m.perform s).world.coordinator c).config = (m.world.coordinator c).config)

instance (c : CoordinatorId) (m : Moment) (s : Section) : Decidable (m.AllowsKept c s) := by
  unfold AllowsKept
  infer_instance

end Moment

namespace Aimed

/-- The step lemma. -/
theorem perform {c : CoordinatorId} {m : Moment} {s : Section} (hallowed : m.AllowsKept c s)
    (h : Aimed (m.world.coordinator c)) : Aimed ((m.perform s).world.coordinator c) := by
  have hkept : ∀ config, (m.world.coordinator c).config = some config →
      ((m.perform s).world.coordinator c).config = some config := by
    intro config hconfig
    rcases hallowed.2 with hnone | hsame
    · rw [hnone] at hconfig
      cases hconfig
    · exact hsame.trans hconfig
  refine .of_aims (fun hlists => ?_) fun f hf => ?_
  · have hsome := (m.configured_of_lists s hlists).elim h.configured id
    obtain ⟨config, hconfig⟩ := Option.isSome_iff_exists.mp hsome
    rw [hkept config hconfig]
    rfl
  · have hfile := (m.sights_perform s hf).elim h.aims id
    obtain ⟨config, hconfig, hf⟩ := Option.bind_eq_some_iff.mp hfile
    rw [Coordinator.file?, hkept config hconfig]
    exact hf

/-- The run lemma. -/
theorem after {c : CoordinatorId} {sections : List Section}
    (hallowed : Moment.start.Follows (Moment.AllowsKept c) sections) :
    Aimed ((Moment.start.after sections).world.coordinator c) :=
  hallowed.preserves (I := fun m => Aimed (m.world.coordinator c)) (fun _ _ => perform)
    ⟨fun hne => absurd rfl hne, nofun, nofun⟩

end Aimed

end SnapshotCoordination
