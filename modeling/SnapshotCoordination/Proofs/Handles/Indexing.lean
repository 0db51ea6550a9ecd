import SnapshotCoordination.Proofs.Handles.FailedOpens
import SnapshotCoordination.Proofs.Handles.Lasting

/-!
# Where registries lead

If it is written down which coordinator was made through which registry and for which path, and
struck out when the registry is reset, then a registry leads to exactly those of them that are
alive, each under the key of its path (`Indexed`). A registry is swept whenever references are given
up, wherever that happens (`Thins`), and a coordinator that was made for a path after a reset is not
swept with the one that was made before.

* **`thins_releaseCoordinator`**, **`thins_closeHandle`**, **`thins_releaseHandle`** — references are
  given up, and also by a reset (**`exists_thins_resetRegistry`**);
* **`Indexed.thins`**, **`Indexed.getCoordinator`**, **`Indexed.asked`**, **`Indexed.resetRegistry`** —
  the register is kept;
* **`Indexed.getCoordinator_eq_iff`** — the way from a path leads to a coordinator if both paths have
  the same key, and only then.
-/

namespace SnapshotCoordination

namespace Directory

variable {α : Type} {name : String} {a : α}

theorem filter_eq_self {d : Directory α} {keep : α → Bool} (h : ∀ e ∈ d.entries, keep e.2) :
    d.filter keep = d := by
  unfold filter
  rw [List.filter_eq_self.mpr h]

/-- Where every name is there once, so it is with one that was not there. -/
theorem nodup_names_append {entries : List (String × α)} (h : (entries.map (·.1)).Nodup)
    (hfresh : entries.lookup name = none) : ((entries ++ [(name, a)]).map (·.1)).Nodup := by
  rw [List.map_append, List.nodup_append]
  refine ⟨h, List.nodup_singleton _, fun k hk k' hk' heq => ?_⟩
  obtain ⟨e, he, rfl⟩ := List.mem_map.mp hk
  have hne := List.lookup_eq_none_iff.mp hfresh e he
  rw [heq, List.mem_singleton.mp hk'] at hne
  exact absurd rfl (bne_iff_ne.mp hne)

/-- Where every name is there once, an entry is what a look-up of its name finds. -/
theorem lookup_eq_some_iff {entries : List (String × α)} (h : (entries.map (·.1)).Nodup) :
    entries.lookup name = some a ↔ (name, a) ∈ entries := by
  constructor
  · intro hfound
    obtain ⟨before, after, hentries, -⟩ := List.lookup_eq_some_iff.mp hfound
    rw [hentries]
    exact List.mem_append_right _ List.mem_cons_self
  · intro hmem
    obtain ⟨before, after, rfl⟩ := List.append_of_mem hmem
    rw [List.map_append, List.map_cons, List.nodup_append] at h
    refine List.lookup_eq_some_iff.mpr ⟨before, after, rfl, fun p hp => ?_⟩
    have hne := h.2.2 p.1 (List.mem_map_of_mem hp) name List.mem_cons_self
    simpa using Ne.symm hne

end Directory

/-! ## Registries are swept -/

/-- From one world to the other coordinators may have gone, and the registries were swept. -/
structure Thins (w w' : World) : Prop where
  lasts : w.Lasts w'
  alive : ∀ c, w'.isAliveCoordinator c → w.isAliveCoordinator c
  registry : ∀ r, w'.registry r = (w.registry r).filter w'.isAliveCoordinator

namespace Thins

variable {w w' w'' : World}

theorem trans (h : Thins w w') (h' : Thins w' w'') : Thins w w'' where
  lasts := trans_of World.Lasts h.lasts h'.lasts
  alive c halive := h.alive c (h'.alive c halive)
  registry r := by
    rw [h'.registry, h.registry]
    unfold Directory.filter
    rw [List.filter_filter]
    congr 1
    apply List.filter_congr
    intro e _
    cases halive : w''.isAliveCoordinator e.2 with
    | false => rfl
    | true => rw [h'.alive e.2 halive, Bool.true_and]

/-- Nobody is gone, so nobody is swept. -/
theorem of_same (h : Linked w) (hlasts : w.Lasts w')
    (halive : w'.isAliveCoordinator = w.isAliveCoordinator)
    (hregistry : ∀ r, w'.registry r = w.registry r) : Thins w w' where
  lasts := hlasts
  alive c := by rw [halive]; exact id
  registry r := by
    rw [hregistry, halive]
    exact (Directory.filter_eq_self fun e he => (h.indexed r e he).1).symm

end Thins

section References

variable {w : World}

/-- **A reference to a coordinator is given up**, and if it was the last one, the registry of the
coordinator is swept. No other registry leads there. -/
theorem thins_releaseCoordinator (h : Linked w) (c : CoordinatorId) :
    Thins w (w.releaseCoordinator c) := by
  let w₁ := w.onCoordinator c fun s => { s with refs := s.refs - 1 }
  have hfewer : ∀ d, w₁.isAliveCoordinator d → w.isAliveCoordinator d := by
    intro d
    unfold World.isAliveCoordinator
    rw [World.coordinator_onCoordinator]
    split
    · next hd =>
      rw [hd, decide_eq_true_eq, decide_eq_true_eq]
      exact fun hpos => Nat.lt_of_lt_of_le hpos (Nat.sub_le _ _)
    · exact id
  have hothers : ∀ d, d ≠ c → w.isAliveCoordinator d → w₁.isAliveCoordinator d := by
    intro d hd halive
    unfold World.isAliveCoordinator
    rw [World.coordinator_onCoordinator_of_ne w hd]
    exact halive
  have hlasts := bears_lasts.releaseCoordinator w c
  by_cases hlast : (w₁.coordinator c).refs = 0
  · have hrelease : w.releaseCoordinator c = w₁.retireCoordinator c := if_pos hlast
    rw [hrelease] at hlasts ⊢
    have hhome : (w₁.coordinator c).registry = (w.coordinator c).registry := by
      rw [World.coordinator_onCoordinator_self]
    have hgone : (w₁.retireCoordinator c).isAliveCoordinator = w₁.isAliveCoordinator :=
      World.isAliveCoordinator_dropNotifier _ c
    refine ⟨hlasts, fun d => by rw [hgone]; exact hfewer d, fun r => ?_⟩
    rw [hgone, World.retireCoordinator, World.registry_dropNotifier, World.sweepRegistry,
      World.registry_setRegistry]
    split
    · next hr => rw [hr]; rfl
    · next hr =>
      refine (Directory.filter_eq_self fun e he => ?_).symm
      obtain ⟨halive, hregistry⟩ := h.indexed r e he
      refine hothers e.2 (fun heq => hr ?_) halive
      rw [hhome, ← heq, hregistry]
  · have hrelease : w.releaseCoordinator c = w₁ := if_neg hlast
    rw [hrelease] at hlasts ⊢
    refine .of_same h hlasts ?_ fun _ => rfl
    funext d
    by_cases hd : d = c
    · subst hd
      have hpos := Nat.pos_of_ne_zero hlast
      have halive : w₁.isAliveCoordinator d = true := decide_eq_true hpos
      rw [halive, hfewer d halive]
    · unfold World.isAliveCoordinator
      rw [World.coordinator_onCoordinator_of_ne w hd]

theorem thins_closeHandle (h : Linked w) (i : HandleId) : Thins w (w.closeHandle i) := by
  have hclosed : Linked (w.onHandle i Handle.closed) := h.of_handles rfl
  unfold World.closeHandle
  split
  · next c _ =>
    let w₁ := World.forgetHandle (w.onHandle i Handle.closed) c i
    have hforgot : Linked w₁ :=
      hclosed.onCoordinator c (fun _ => rfl) (fun _ => rfl) (fun _ => rfl) of_decide_eq_true
    have halive : w₁.isAliveCoordinator = w.isAliveCoordinator := by
      funext d
      exact w.read_onCoordinator (fun s => decide (0 < s.refs)) (fun _ => by rfl) c d
    have hforgets : Thins w w₁ := .of_same h (w.lasts_onCoordinator c _) halive fun _ => rfl
    exact hforgets.trans (thins_releaseCoordinator hforgot c)
  · exact .of_same h (World.lasts_of_eq rfl) rfl fun _ => rfl

theorem thins_releaseHandle (h : Linked w) (i : HandleId) : Thins w (w.releaseHandle i) := by
  let w₁ := w.onHandle i fun x => { x with refs := x.refs - 1 }
  have hcount : Thins w w₁ := .of_same h (World.lasts_of_eq rfl) rfl fun _ => rfl
  show Thins w (if (w₁.handle i).refs = 0 then w₁.closeHandle i else w₁)
  split
  · exact hcount.trans (thins_closeHandle (h.of_handles rfl) i)
  · exact hcount

theorem thins_foldl {α : Type} {f : World → α → World} (hf : ∀ w a, Linked w → Thins w (f w a))
    (hlinks : ∀ w a, Linked w → Linked (f w a)) (as : List α) (h : Linked w) :
    Thins w (as.foldl f w) ∧ Linked (as.foldl f w) := by
  induction as generalizing w with
  | nil => exact ⟨.of_same h (refl_of World.Lasts w) rfl fun _ => rfl, h⟩
  | cons a as ih =>
    obtain ⟨hrest, hlinked⟩ := ih (hlinks w a h)
    exact ⟨(hf w a h).trans hrest, hlinked⟩

theorem World.registry_foldl_dropNotifier (cs : List CoordinatorId) (w : World) (r : RegistryId) :
    (cs.foldl (fun w c => (w.retainCoordinator c).dropNotifier c) w).registry r = w.registry r := by
  induction cs generalizing w with
  | nil => rfl
  | cons c cs ih =>
    rw [List.foldl_cons, ih, registry_dropNotifier]
    rfl

/-- **A reset** empties its registry first, and then it gives references up. -/
theorem exists_thins_resetRegistry (h : Linked w) (r : RegistryId) :
    ∃ w₁, w.Lasts w₁ ∧ w₁.isAliveCoordinator = w.isAliveCoordinator ∧
      (∀ s, w₁.registry s = if s = r then .empty else w.registry s) ∧
      Thins w₁ (w.resetRegistry r) := by
  let dropped := (w.listed r).foldl (fun w c => (w.retainCoordinator c).dropNotifier c) w
  let retained := ((w.listed r).flatMap w.liveHandles).foldl World.retainHandle dropped
  have hretained : retained = { dropped with handles := retained.handles } :=
    List.foldlRecOn (motive := fun w' : World => w' = { dropped with handles := w'.handles }) _ _ rfl
      fun w' hw' i _ => by rw [hw']; rfl
  have hdropped : Linked dropped :=
    List.foldlRecOn _ _ h fun w hw c _ => (hw.retainCoordinator c).dropNotifier c
  have halive : dropped.isAliveCoordinator = w.isAliveCoordinator := by
    -- only who was alive got another reference
    funext d
    unfold World.isAliveCoordinator
    rw [w.coordinator_foldl_dropNotifier]
    by_cases hd : d ∈ w.listed r
    · have halive : w.isAliveCoordinator d := (List.mem_filter.mp hd).2
      rw [show decide (0 < (w.coordinator d).refs) = true from halive]
      exact decide_eq_true (Nat.add_pos_left (of_decide_eq_true halive) _)
    · rw [List.count_eq_zero.mpr hd]
      rfl
  have hemptied : Linked (retained.setRegistry r .empty) :=
    (hdropped.of_handles hretained).setRegistry r nofun
  obtain ⟨hreleased, hlinked⟩ := thins_foldl (fun _ c hw => thins_releaseCoordinator hw c)
    (fun _ c hw => hw.releaseCoordinator c) (w.listed r) hemptied
  obtain ⟨hclosed, -⟩ := thins_foldl (f := fun w i => (w.closeHandle i).releaseHandle i)
    (fun _ i hw => (thins_closeHandle hw i).trans (thins_releaseHandle (hw.closeHandle i) i))
    (fun _ i hw => (hw.closeHandle i).releaseHandle i) ((w.listed r).flatMap w.liveHandles) hlinked
  refine ⟨retained.setRegistry r .empty, ?_, ?_, fun s => ?_, hreleased.trans hclosed⟩
  · have hlasts : w.Lasts dropped := World.rel_foldl (fun w c =>
      trans_of World.Lasts (bears_lasts.retainCoordinator w c) (bears_lasts.dropNotifier _ c))
      (w.listed r) w
    show w.coordinators.size ≤ retained.coordinators.size
    rw [hretained]
    exact hlasts
  · rw [← halive]
    show retained.isAliveCoordinator = _
    rw [hretained]
    rfl
  · rw [World.registry_setRegistry]
    split
    · rfl
    · rw [hretained]
      exact World.registry_foldl_dropNotifier _ w s

end References

/-! ## The register -/

/-- A coordinator was made through a registry for a path. -/
structure Creation where
  registry : RegistryId
  path : String
  coordinator : CoordinatorId
  deriving DecidableEq

/-- What is made when somebody asks for the coordinator of a path: that coordinator, unless it was
there before. -/
def World.making (w : World) (r : RegistryId) (path : String) : List Creation :=
  if (w.getCoordinator r path).2 < w.coordinators.size then []
  else [⟨r, path, (w.getCoordinator r path).2⟩]

/-- What was made is written down in `made`, and registries lead to those of them that are alive. -/
structure Indexed (made : List Creation) (w : World) : Prop where
  entry : ∀ r key c, (key, c) ∈ (w.registry r).entries ↔
    w.isAliveCoordinator c ∧ ∃ path, ⟨r, path, c⟩ ∈ made ∧ FilePath.key path = key
  once : ∀ r, ((w.registry r).entries.map (·.1)).Nodup
  /-- All that was made was made before. -/
  past : ∀ e ∈ made, e.coordinator < w.coordinators.size
  distinct : ∀ e ∈ made, ∀ e' ∈ made, e.coordinator = e'.coordinator → e = e'

namespace Indexed

variable {made : List Creation} {w w' : World}

theorem start : Indexed [] .start where
  entry _ _ _ := ⟨nofun, nofun⟩
  once _ := .nil
  past _ h := nomatch h
  distinct _ h := nomatch h

/-- The same coordinators are alive, and registries lead there. -/
theorem congr (h : Indexed made w) (hlasts : w.Lasts w')
    (halive : w'.isAliveCoordinator = w.isAliveCoordinator)
    (hregistry : ∀ r, w'.registry r = w.registry r) : Indexed made w' where
  entry r key c := by
    rw [hregistry, halive]
    exact h.entry r key c
  once r := by
    rw [hregistry]
    exact h.once r
  past e he := Nat.lt_of_lt_of_le (h.past e he) hlasts
  distinct := h.distinct

theorem sameHoldings (h : Indexed made w) (hlasts : w.Lasts w') (hsame : SameHoldings w w') :
    Indexed made w' := h.congr hlasts hsame.isAliveCoordinator hsame.registry

theorem thins (h : Indexed made w) (hthins : Thins w w') : Indexed made w' where
  entry r key c := by
    rw [hthins.registry, Directory.filter, List.mem_filter, h.entry]
    constructor
    · rintro ⟨⟨-, hmade⟩, halive⟩
      exact ⟨halive, hmade⟩
    · rintro ⟨halive, hmade⟩
      exact ⟨⟨hthins.alive c halive, hmade⟩, halive⟩
  once r := by
    rw [hthins.registry]
    exact (h.once r).sublist (List.filter_sublist.map _)
  past e he := Nat.lt_of_lt_of_le (h.past e he) hthins.lasts
  distinct := h.distinct

theorem retainCoordinator (h : Indexed made w) {c : CoordinatorId}
    (halive : w.isAliveCoordinator c) : Indexed made (w.retainCoordinator c) := by
  refine h.congr (w.lasts_onCoordinator c _) ?_ fun _ => rfl
  funext d
  unfold World.isAliveCoordinator at halive ⊢
  rw [World.coordinator_retainCoordinator]
  split
  · next hd =>
    rw [hd, halive]
    exact decide_eq_true (Nat.succ_pos _)
  · rfl

theorem ne_size (h : Indexed made w) {e : Creation} (he : e ∈ made) :
    e.coordinator ≠ w.coordinators.size := Nat.ne_of_lt (h.past e he)

/-- Nobody was led to a coordinator that was not there yet, so whether it is alive now makes no
difference to who is led where. -/
theorem entry_of_others (h : Indexed made w)
    (hothers : ∀ d, d ≠ w.coordinators.size → w'.isAliveCoordinator d = w.isAliveCoordinator d)
    (r : RegistryId) (key : String) (c : CoordinatorId) :
    (key, c) ∈ (w.registry r).entries ↔
      w'.isAliveCoordinator c ∧ ∃ path, ⟨r, path, c⟩ ∈ made ∧ FilePath.key path = key := by
  rw [h.entry]
  by_cases hc : c = w.coordinators.size
  · have hnone : ¬ ∃ path, (⟨r, path, c⟩ : Creation) ∈ made ∧ FilePath.key path = key :=
      fun ⟨_, hmade, _⟩ => h.ne_size hmade hc
    exact ⟨fun hboth => absurd hboth.2 hnone, fun hboth => absurd hboth.2 hnone⟩
  · rw [hothers c hc]

/-- What is new is unlike all that was made before. -/
theorem distinct_append (h : Indexed made w) {x : Creation}
    (hx : x.coordinator = w.coordinators.size) :
    ∀ e ∈ made ++ [x], ∀ e' ∈ made ++ [x], e.coordinator = e'.coordinator → e = e' := by
  intro e he e' he' heq
  rcases List.mem_append.mp he with he | he <;> rcases List.mem_append.mp he' with he' | he'
  · exact h.distinct e he e' he' heq
  · rw [List.mem_singleton.mp he', hx] at heq
    exact absurd heq (h.ne_size he)
  · rw [List.mem_singleton.mp he, hx] at heq
    exact absurd heq.symm (h.ne_size he')
  · rw [List.mem_singleton.mp he, List.mem_singleton.mp he']

/-- A coordinator is made for a path under whose key there is none. It is unlike all that were made
before. -/
theorem create (h : Indexed made w) {r : RegistryId} {path : String}
    (hfresh : (w.registry r).find? (FilePath.key path) = none) :
    let s := Coordinator.made (FilePath.key path) r
    Indexed (made ++ [⟨r, path, w.coordinators.size⟩])
      (({ w with coordinators := w.coordinators.push s } : World).setRegistry r
        ((w.registry r).set (FilePath.key path) w.coordinators.size)) := by
  intro s
  let c := w.coordinators.size
  let key := FilePath.key path
  let w₁ : World := { w with coordinators := w.coordinators.push s }
  have hcoordinator : ∀ d, w₁.coordinator d = if d = c then s else w.coordinator d :=
    w.coordinators.get_push _
  have hnew : w₁.isAliveCoordinator c := by
    rw [World.isAliveCoordinator, hcoordinator, if_pos rfl]
    rfl
  have hothers : ∀ d, d ≠ c → w₁.isAliveCoordinator d = w.isAliveCoordinator d := by
    intro d hd
    rw [World.isAliveCoordinator, hcoordinator, if_neg hd]
    rfl
  have hentries : ((w.registry r).set key c).entries = (w.registry r).entries ++ [(key, c)] :=
    Directory.place_of_fresh hfresh
  constructor
  case entry =>
    intro t k d
    have hbefore := h.entry_of_others hothers t k d
    rw [World.registry_setRegistry]
    by_cases ht : t = r
    · -- the old entries are as before, and the new one is that of the new coordinator
      rw [if_pos ht, hentries, List.mem_append, List.mem_singleton, ← ht, hbefore]
      constructor
      · rintro (⟨halive, p, hp, hkey⟩ | hself)
        · exact ⟨halive, p, List.mem_append_left _ hp, hkey⟩
        · obtain ⟨rfl, rfl⟩ := Prod.mk.inj hself
          exact ⟨hnew, path, List.mem_append_right _ List.mem_cons_self, rfl⟩
      · rintro ⟨halive, p, hp, hkey⟩
        rcases List.mem_append.mp hp with hp | hp
        · exact .inl ⟨halive, p, hp, hkey⟩
        · obtain ⟨-, rfl, rfl⟩ := Creation.mk.inj (List.mem_singleton.mp hp)
          exact .inr (by rw [← hkey])
    · rw [if_neg ht]
      refine hbefore.trans (and_congr_right fun _ => exists_congr fun p => and_congr_left fun _ => ?_)
      rw [List.mem_append, List.mem_singleton, Creation.mk.injEq]
      exact ⟨.inl, fun hp => hp.elim id fun hp => absurd hp.1 ht⟩
  case once =>
    intro t
    rw [World.registry_setRegistry]
    split
    · rw [hentries]
      exact Directory.nodup_names_append (h.once r) hfresh
    · exact h.once t
  case past =>
    intro e he
    have hsize : c < (w.coordinators.push s).size := by
      rw [Table.size_push]
      exact Nat.lt_succ_self _
    rcases List.mem_append.mp he with he | he
    · exact Nat.lt_trans (h.past e he) hsize
    · rw [List.mem_singleton.mp he]
      exact hsize
  case distinct => exact h.distinct_append rfl

/-- **A coordinator is found or made.** -/
theorem getCoordinator (h : Indexed made w) (horderly : Orderly w) (r : RegistryId) (path : String) :
    Indexed (made ++ w.making r path) (w.getCoordinator r path).1 := by
  cases hfind : w.findCoordinator r path with
  | some c =>
    have halive : w.isAliveCoordinator c := (Option.filter_eq_some_iff.mp hfind).2
    have hget : w.getCoordinator r path = (w.retainCoordinator c, c) := by
      rw [World.getCoordinator, hfind]
    have hmade : c < w.coordinators.size :=
      Table.lt_size_of_ne Coordinator.refs (Nat.ne_of_gt (of_decide_eq_true halive))
    rw [World.making, hget, if_pos hmade, List.append_nil]
    exact h.retainCoordinator halive
  | none =>
    let s := Coordinator.made (FilePath.key path) r
    have hget : w.getCoordinator r path =
        (({ w with coordinators := w.coordinators.push s } : World).setRegistry r
          ((w.registry r).set (FilePath.key path) w.coordinators.size), w.coordinators.size) := by
      rw [World.getCoordinator, hfind]
      rfl
    rw [World.making, hget, if_neg (Nat.lt_irrefl _)]
    exact h.create (horderly.find?_of_findCoordinator hfind)

/-- A coordinator that is asked for a handle stays alive, and registries are none of its business. -/
theorem asked (h : Indexed made w) (hlinked : Linked w) (hlasts : w.Lasts w') {c : CoordinatorId}
    (hc : w.isAliveCoordinator c) {thread : Thread} {config : Config}
    {outcome : Except Failure HandleId} (hasked : Asked c thread config w w' outcome) :
    Indexed made w' := by
  cases hasked with
  | refused _ failure hlooked => exact h.sameHoldings hlasts (.of_looked hlooked)
  | abandoned f w₁ failure hf hnone hlooked =>
    exact h.sameHoldings hlasts (hlinked.abandoned hnone hlooked)
  | reused i canonical hmem halive hcanonical hkept => exact h.congr hlasts rfl fun _ => rfl
  | made adoption cursor w₁ _ hprepared hf hadmitted =>
    have hregistries : w₁.registries = w.registries := by cases hprepared <;> rfl
    refine h.congr hlasts ?_ fun r => ?_
    · funext d
      unfold World.isAliveCoordinator at hc ⊢
      by_cases hd : d = c
      · obtain ⟨reusable, hself⟩ := hadmitted.self
        rw [hd, hself, hc]
        exact decide_eq_true (Nat.succ_pos _)
      · rw [hadmitted.others d hd, hprepared.coordinator]
    · rw [World.registry, hadmitted.registries, hregistries]
      rfl

/-! ## Resetting a registry -/

/-- **A reset** strikes out what was made through the registry, alive or not. -/
theorem resetRegistry (h : Indexed made w) (hlinked : Linked w) (r : RegistryId) :
    Indexed (made.filter (·.registry != r)) (w.resetRegistry r) := by
  obtain ⟨w₁, hlasts, halive, hregistry, hthins⟩ := exists_thins_resetRegistry hlinked r
  have hmem : ∀ e, e ∈ made.filter (·.registry != r) ↔ e ∈ made ∧ e.registry ≠ r := fun e => by
    rw [List.mem_filter, bne_iff_ne]
  refine Indexed.thins (w := w₁) ?_ hthins
  refine ⟨fun s key c => ?_, fun s => ?_, fun e he => ?_, fun e he e' he' => ?_⟩
  · simp only [hmem, hregistry]
    split
    · next hs =>
      refine ⟨nofun, ?_⟩
      rintro ⟨-, p, ⟨-, hne⟩, -⟩
      exact absurd hs hne
    · next hs =>
      rw [h.entry, halive]
      simp only [ne_eq, hs, not_false_eq_true, and_true]
  · rw [hregistry]
    split
    · exact List.nodup_nil
    · exact h.once s
  · exact Nat.lt_of_lt_of_le (h.past e ((hmem e).mp he).1) hlasts
  · exact h.distinct e ((hmem e).mp he).1 e' ((hmem e').mp he').1

/-! ## The way from a path -/

/-- **Where a path leads.** It leads to a coordinator that was made before and is alive if that was
made for a path with the same key, and only then. -/
theorem getCoordinator_eq_iff (h : Indexed made w) {e : Creation} (he : e ∈ made)
    (halive : w.isAliveCoordinator e.coordinator) (path : String) :
    (w.getCoordinator e.registry path).2 = e.coordinator ↔
      FilePath.key path = FilePath.key e.path := by
  have hfind : w.findCoordinator e.registry path = some e.coordinator ↔
      FilePath.key path = FilePath.key e.path := by
    rw [World.findCoordinator, Option.filter_eq_some_iff, Directory.find?,
      Directory.lookup_eq_some_iff (h.once e.registry), h.entry]
    constructor
    · rintro ⟨⟨-, p, hp, hkey⟩, -⟩
      rw [← hkey, ← h.distinct _ hp e he rfl]
    · intro hkey
      exact ⟨⟨halive, e.path, he, hkey.symm⟩, halive⟩
  rw [← hfind, World.getCoordinator]
  cases hfound : w.findCoordinator e.registry path with
  | some c => exact Option.some_inj.symm
  | none =>
    constructor
    · intro heq
      exact absurd heq (Nat.ne_of_gt (h.past e he))
    · intro hnone
      cases hnone

end Indexed

end SnapshotCoordination
