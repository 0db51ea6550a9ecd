import SnapshotCoordination.Proofs.Handles.HandingOut

/-!
# Which handles are handed out again

An entry of a cache says on which thread its handle is, and whether the canonical configuration has
handles handed out again (`Filed`). So a thread that asks for a handle gets one that is open on this
thread, if both configurations agree to that and there is one, and else it gets a new one. While
everybody agrees, a thread needs only one (`OnePerThread`).

* **`Filed.perform`**, **`OnePerThread.perform`** — every call keeps it so;
* **`Filed.after`**, **`OnePerThread.after`** — so does every row of calls;
* **`HandedOut.openOn`** — which handle is handed out;
* **`handles_reused`** — all of this, wherever calls were made one at a time.
-/

namespace SnapshotCoordination

/-- Handle `h` is open with coordinator `c`, and is on this thread. -/
def World.OpenOn (w : World) (c : CoordinatorId) (thread : Thread) (h : HandleId) : Prop :=
  (w.handle h).isOpen ∧ (w.handle h).coordinator = some c ∧ (w.handle h).thread = thread

instance (w : World) (c : CoordinatorId) (thread : Thread) (h : HandleId) :
    Decidable (w.OpenOn c thread h) := by
  unfold World.OpenOn
  infer_instance

/-- The canonical configuration of a coordinator has handles handed out again. -/
def World.Reuses (w : World) (c : CoordinatorId) : Prop :=
  ∃ canonical, (w.coordinator c).config = some canonical ∧ canonical.cache

namespace Counted

variable {cs : List CoordinatorId} {w : World} {c : CoordinatorId}

theorem coordinator_of_mem (h : Counted cs w) {e : CacheEntry}
    (he : e ∈ (w.coordinator c).cached) : (w.handle e.handle).coordinator = some c :=
  (h.member c e.handle).mp (List.mem_map_of_mem he)

/-- **A cache lists every open handle once**, and no other. -/
theorem count_remembered (h : Counted cs w) (c : CoordinatorId) (i : HandleId) :
    (w.remembered c).count i =
      if (w.handle i).isOpen ∧ (w.handle i).coordinator = some c then 1 else 0 := by
  rw [(h.once c).count, h.isOpen]
  by_cases hopen : (w.handle i).coordinator = some c
  · rw [if_pos ((h.member c i).mpr hopen), if_pos ⟨by rw [hopen]; rfl, hopen⟩]
  · rw [if_neg fun hmem => hopen ((h.member c i).mp hmem), if_neg fun hboth => hopen hboth.2]

/-- A handle that has a coordinator is open with it. -/
theorem openOn (h : Counted cs w) {i : HandleId} (hopen : (w.handle i).coordinator = some c) :
    w.OpenOn c (w.handle i).thread i :=
  ⟨by rw [h.isOpen, hopen]; rfl, hopen, rfl⟩

end Counted

/-- Whoever is open after entries were lost was open before. -/
theorem Sheds.openOn {cs ds : List CoordinatorId} {w w' : World} (h : Sheds w w')
    (hcounted : Counted cs w) (hcounted' : Counted ds w') {c : CoordinatorId} {thread : Thread}
    {i : HandleId} (hopen : w'.OpenOn c thread i) : w.OpenOn c thread i := by
  obtain ⟨-, hcoordinator, rfl⟩ := hopen
  have hmem : i ∈ w.remembered c :=
    List.map_subset _ (h.forgets c) ((hcounted'.member c i).mpr hcoordinator)
  have hbefore := (hcounted.member c i).mp hmem
  rw [(h.threads i (World.lt_size_of_coordinator hbefore)).2]
  exact hcounted.openOn hbefore

/-! ## What entries say -/

/-- Every entry of a cache says on which thread its handle is, and what the canonical configuration
says about handing handles out again. -/
structure Filed (w : World) : Prop where
  thread : ∀ c, ∀ e ∈ (w.coordinator c).cached, e.thread = (w.handle e.handle).thread
  reusable : ∀ c canonical, (w.coordinator c).config = some canonical →
    ∀ e ∈ (w.coordinator c).cached, e.reusable = canonical.cache

namespace Filed

variable {cs : List CoordinatorId} {c : CoordinatorId} {thread : Thread} {config : Config}
  {w w' : World} {h : HandleId}

theorem start : Filed .start := ⟨fun _ => nofun, fun _ _ _ => nofun⟩

theorem sheds (hfiled : Filed w) (hcounted : Counted cs w) (hsheds : Sheds w w') : Filed w' where
  thread d e he := by
    have hold := hsheds.forgets d he
    have hmade := World.lt_size_of_coordinator (hcounted.coordinator_of_mem hold)
    rw [(hsheds.threads e.handle hmade).2]
    exact hfiled.thread d e hold
  reusable d canonical hcanonical e he :=
    hfiled.reusable d canonical (hsheds.config d ▸ hcanonical) e (hsheds.forgets d he)

theorem handedOut (hfiled : Filed w) (hcounted : Counted cs w)
    (hhanded : HandedOut c thread config w w' h) : Filed w' := by
  cases hhanded with
  | again _ hcache hfound =>
    exact hfiled.sheds hcounted (Chore.sheds_perform w (x := .retainHandle h) (by rintro _ _ _ ⟨⟩))
  | anew x canonical _ hnone hthread hcoordinator hopen hhandles hcanonical hkept hcached hothers =>
    have hhandle := World.handle_push hhandles
    have hold : ∀ d, ∀ e ∈ (w.coordinator d).cached, e.thread = (w'.handle e.handle).thread := by
      intro d e he
      have hmade := World.lt_size_of_coordinator (hcounted.coordinator_of_mem he)
      rw [hhandle, if_neg (Nat.ne_of_lt hmade)]
      exact hfiled.thread d e he
    constructor
    case thread =>
      intro d e he
      by_cases hd : d = c
      · rw [hd, hcached, List.mem_append, List.mem_singleton] at he
        rcases he with he | rfl
        · exact hold c e he
        · rw [hhandle, if_pos rfl]
          exact hthread.symm
      · rw [hothers d hd] at he
        exact hold d e he
    case reusable =>
      intro d other hother e he
      by_cases hd : d = c
      · rw [hd] at he hother
        obtain rfl : canonical = other := Option.some_inj.mp (hcanonical.symm.trans hother)
        rw [hcached, List.mem_append, List.mem_singleton] at he
        rcases he with he | rfl
        · rcases hkept with hsame | ⟨-, hnil⟩
          · exact hfiled.reusable c canonical hsame e he
          · rw [hnil] at he
            cases he
        · rfl
      · rw [hothers d hd] at he hother
        exact hfiled.reusable d other hother e he

/-- The step lemma. -/
theorem perform (hfiled : Filed w) (horderly : Orderly w) (x : Call) : Filed (x.perform w) := by
  have hcounted := horderly.concord.counted
  cases horderly.filing x with
  | sheds hsheds => exact hfiled.sheds hcounted hsheds
  | hands _ c thread config w₁ w₂ i _ hbefore hconcord hhanded hconcord' hafter =>
    exact ((hfiled.sheds hcounted hbefore).handedOut hconcord.counted hhanded).sheds
      hconcord'.counted hafter

/-- The run lemma. -/
theorem after {calls : List Call} (hfiled : Filed w) (horderly : Orderly w)
    (hallowed : Call.AllAllowed w calls) : Filed (w.afterCalls calls) := by
  induction calls generalizing w with
  | nil => exact hfiled
  | cons x calls ih =>
    exact ih (hfiled.perform horderly x) (horderly.perform hallowed.1) hallowed.2

/-! ### Handing out -/

/-- What is handed out again is open on the thread that asks. -/
theorem openOn_of_reusable (hfiled : Filed w) (hconcord : Concord cs w)
    (hfound : w.reusableHandle c thread = some h) : w.Reuses c ∧ w.OpenOn c thread h := by
  unfold World.reusableHandle at hfound
  obtain ⟨e, hmem, rfl⟩ := List.mem_map.mp (List.mem_of_find?_eq_some hfound)
  simp only [List.mem_filter, Bool.and_eq_true, beq_iff_eq] at hmem
  obtain ⟨he, hreusable, rfl⟩ := hmem
  have hcoordinator := hconcord.counted.coordinator_of_mem he
  obtain ⟨canonical, hcanonical, -⟩ := hconcord.agreed.suits e.handle c hcoordinator
  refine ⟨⟨canonical, hcanonical, ?_⟩, ?_⟩
  · rw [← hfiled.reusable c canonical hcanonical e he]
    exact hreusable
  · rw [hfiled.thread c e he]
    exact hconcord.counted.openOn hcoordinator

/-- Where handles are handed out again, there is one if any is open on this thread. -/
theorem reusable_of_openOn (hfiled : Filed w) (hcounted : Counted cs w) (hreuses : w.Reuses c)
    (hopen : w.OpenOn c thread h) : (w.reusableHandle c thread).isSome := by
  obtain ⟨canonical, hcanonical, hcache⟩ := hreuses
  obtain ⟨-, hcoordinator, hthread⟩ := hopen
  obtain ⟨e, he, rfl⟩ := List.mem_map.mp ((hcounted.member c h).mpr hcoordinator)
  unfold World.reusableHandle
  rw [List.find?_isSome]
  refine ⟨e.handle, List.mem_map_of_mem (List.mem_filter.mpr ⟨he, ?_⟩),
    hcounted.alive e.handle (by rw [hcoordinator]; rfl)⟩
  rw [hfiled.reusable c canonical hcanonical e he, hcache, hfiled.thread c e he, hthread]
  simp

end Filed

namespace HandedOut

variable {cs : List CoordinatorId} {c : CoordinatorId} {thread : Thread} {config : Config}
  {w w' : World} {h : HandleId}

/-- Whoever is open afterwards was open before, or has just been made. -/
theorem openOn_before (hhanded : HandedOut c thread config w w' h) {d : CoordinatorId}
    {other : Thread} {i : HandleId} (hopen : w'.OpenOn d other i) :
    w.OpenOn d other i ∨ ((config.cache → w.reusableHandle c thread = none) ∧
      d = c ∧ other = thread ∧ i = h) := by
  cases hhanded with
  | again _ hcache hfound =>
    left
    unfold World.OpenOn at hopen ⊢
    rw [World.handle_retainHandle] at hopen
    split at hopen
    · next hi =>
      rw [hi]
      exact hopen
    · exact hopen
  | anew x canonical _ hnone hthread hcoordinator hx hhandles =>
    unfold World.OpenOn at hopen ⊢
    rw [World.handle_push hhandles] at hopen
    split at hopen
    · next hi =>
      obtain ⟨-, hd, hother⟩ := hopen
      rw [hcoordinator, Option.some_inj] at hd
      exact .inr ⟨hnone, hd.symm, hother.symm.trans hthread, hi⟩
    · exact .inl hopen

/-- **Which handle is handed out**: one that is open on this thread if there is one and both
configurations have it handed out again, and else a new one. -/
theorem openOn (hhanded : HandedOut c thread config w w' h) (hfiled : Filed w)
    (hconcord : Concord cs w) :
    (w.OpenOn c thread h ↔ w.Reuses c ∧ config.cache ∧ ∃ i, w.OpenOn c thread i) ∧
      (¬ w.OpenOn c thread h → h = w.handles.size) ∧ w'.OpenOn c thread h := by
  cases hhanded with
  | again _ hcache hfound =>
    obtain ⟨hreuses, hopen⟩ := hfiled.openOn_of_reusable hconcord hfound
    refine ⟨⟨fun _ => ⟨hreuses, hcache, h, hopen⟩, fun _ => hopen⟩,
      fun hnot => absurd hopen hnot, ?_⟩
    unfold World.OpenOn
    rw [World.handle_retainHandle, if_pos rfl]
    exact hopen
  | anew x canonical _ hnone hthread hcoordinator hx hhandles =>
    have hnew : ¬ w.OpenOn c thread w.handles.size := by
      rintro ⟨hopen, -, -⟩
      rw [show w.handle w.handles.size = default from w.handles.get_size] at hopen
      cases hopen
    refine ⟨⟨fun hopen => absurd hopen hnew, ?_⟩, fun _ => rfl, ?_⟩
    · rintro ⟨hreuses, hcache, i, hopen⟩
      have hsome := hfiled.reusable_of_openOn hconcord.counted hreuses hopen
      rw [hnone hcache] at hsome
      cases hsome
    · unfold World.OpenOn
      rw [World.handle_push hhandles, if_pos rfl]
      exact ⟨hx, hcoordinator, hthread⟩

end HandedOut

/-- A handle that may be handed out again is, if the configurations agree: no file is needed for
it. -/
theorem Step.run_getHandle_of_reusable {cs : List CoordinatorId} {c : CoordinatorId}
    {thread : Thread} {config canonical : Config} {w : World} {h : HandleId}
    (hconcord : Concord cs w) (hcanonical : (w.coordinator c).config = some canonical)
    (hchecked : canonical.checkCompatible config = .ok ()) (hcache : config.cache)
    (hfound : w.reusableHandle c thread = some h) :
    (getHandle c thread config).run w = (w.retainHandle h, .ok h) := by
  have hkept : (w.coordinator c).adoptsNext = false := by
    rw [Bool.eq_false_iff]
    intro hadopts
    have hmem := (World.mem_of_reusableHandle hfound).1
    rw [hconcord.agreed.idle hconcord.counted hadopts] at hmem
    cases hmem
  have hprepare : (prepareAdoption c config).run w = (w, .ok none) := by
    unfold prepareAdoption
    rw [run_bind_ok (run_world w)]
    dsimp only
    rw [hkept, if_neg Bool.false_ne_true, hcanonical]
    dsimp only
    rw [hchecked]
    rfl
  have hissue : (getHandle c thread config).run w = (issueHandle c thread config none).run w :=
    run_bind_ok hprepare _
  rw [hissue]
  unfold issueHandle
  rw [run_bind_ok (run_world w), if_pos hcache, hfound]
  rfl

/-! ## One handle for each thread -/

namespace Call

/-- If the call has coordinator `c` asked for a handle, it asks for one that may be handed out
again. -/
def Caches (c : CoordinatorId) (w : World) (x : Call) : Prop :=
  ∀ asked ∈ x.asked? w, asked.1 = c → asked.2.cache

instance (c : CoordinatorId) (w : World) (x : Call) : Decidable (x.Caches c w) := by
  unfold Caches
  infer_instance

/-- Whether every call of a row does. -/
def AllCaching (c : CoordinatorId) : World → List Call → Prop
  | _, [] => True
  | w, x :: calls => x.Caches c w ∧ AllCaching c (x.perform w) calls

instance decideAllCaching (c : CoordinatorId) :
    ∀ (w : World) (calls : List Call), Decidable (AllCaching c w calls)
  | _, [] => .isTrue trivial
  | w, x :: calls =>
    have := decideAllCaching c (x.perform w) calls
    inferInstanceAs (Decidable (_ ∧ _))

end Call

/-- The canonical configuration of coordinator `c`, once it is decided, has handles handed out
again, and no two open handles are on the same thread. -/
structure OnePerThread (c : CoordinatorId) (w : World) : Prop where
  caches : ∀ canonical, (w.coordinator c).config = some canonical → canonical.cache
  unique : ∀ thread h i, w.OpenOn c thread h → w.OpenOn c thread i → h = i

namespace OnePerThread

variable {cs ds : List CoordinatorId} {c d : CoordinatorId} {thread : Thread} {config : Config}
  {w w' : World} {h : HandleId}

theorem start (c : CoordinatorId) : OnePerThread c .start := ⟨fun _ => nofun, fun _ _ _ => nofun⟩

theorem sheds (hone : OnePerThread c w) (hsheds : Sheds w w') (hcounted : Counted cs w)
    (hcounted' : Counted ds w') : OnePerThread c w' where
  caches canonical hcanonical := hone.caches canonical (hsheds.config c ▸ hcanonical)
  unique thread h i hopen hopen' := hone.unique thread h i
    (hsheds.openOn hcounted hcounted' hopen) (hsheds.openOn hcounted hcounted' hopen')

/-- A handle is made only for a thread that has none. -/
theorem handedOut (hone : OnePerThread c w) (hfiled : Filed w) (hconcord : Concord cs w)
    (hhanded : HandedOut d thread config w w' h) (hcache : d = c → config.cache) :
    OnePerThread c w' := by
  -- whoever was open on this thread would be handed out again
  have hfirst : (config.cache → w.reusableHandle d thread = none) → d = c →
      ∀ i, ¬ w.OpenOn c thread i := by
    rintro hnone rfl i hopen
    obtain ⟨canonical, hcanonical, -⟩ := hconcord.agreed.suits i d hopen.2.1
    have hsome := hfiled.reusable_of_openOn hconcord.counted
      ⟨canonical, hcanonical, hone.caches canonical hcanonical⟩ hopen
    rw [hnone (hcache rfl)] at hsome
    cases hsome
  constructor
  case caches =>
    intro canonical hcanonical
    cases hhanded with
    | again _ _ _ => exact hone.caches canonical hcanonical
    | anew x other _ hnone hthread hcoordinator hopen hhandles hother hkept hcached hothers =>
      by_cases hd : c = d
      · rw [hd, hother, Option.some_inj] at hcanonical
        subst hcanonical
        rcases hkept with hsame | ⟨rfl, -⟩
        · exact hone.caches other (hd ▸ hsame)
        · exact hcache hd.symm
      · rw [hothers c hd] at hcanonical
        exact hone.caches canonical hcanonical
  case unique =>
    intro other i j hi hj
    rcases hhanded.openOn_before hi with hold | ⟨hnone, hd, rfl, rfl⟩
    · rcases hhanded.openOn_before hj with hold' | ⟨hnone, hd, rfl, rfl⟩
      · exact hone.unique other i j hold hold'
      · exact absurd hold (hfirst hnone hd.symm i)
    · rcases hhanded.openOn_before hj with hold' | ⟨-, -, -, rfl⟩
      · exact absurd hold' (hfirst hnone hd.symm j)
      · rfl

/-- The step lemma. -/
theorem perform (hone : OnePerThread c w) (hfiled : Filed w) (horderly : Orderly w) {x : Call}
    (hallowed : x.Allowed w) (hcaches : x.Caches c w) : OnePerThread c (x.perform w) := by
  have hcounted := horderly.concord.counted
  have hcounted' := (horderly.perform hallowed).concord.counted
  cases horderly.filing x with
  | sheds hsheds => exact hone.sheds hsheds hcounted hcounted'
  | hands _ d thread config w₁ w₂ i hasked hbefore hconcord hhanded hconcord' hafter =>
    have hcache : d = c → config.cache := by
      rintro rfl
      rcases hasked with hasked | hcanonical
      · exact hcaches (d, config) hasked rfl
      · exact hone.caches config hcanonical
    exact ((hone.sheds hbefore hcounted hconcord.counted).handedOut
      (hfiled.sheds hcounted hbefore) hconcord hhanded hcache).sheds hafter hconcord'.counted
        hcounted'

/-- The run lemma. -/
theorem after {calls : List Call} (hone : OnePerThread c w) (hfiled : Filed w)
    (horderly : Orderly w) (hallowed : Call.AllAllowed w calls)
    (hcaching : Call.AllCaching c w calls) :
    OnePerThread c (w.afterCalls calls) := by
  induction calls generalizing w with
  | nil => exact hone
  | cons x calls ih =>
    exact ih (hone.perform hfiled horderly hallowed.1 hcaching.1)
      (hfiled.perform horderly x) (horderly.perform hallowed.1) hallowed.2 hcaching.2

end OnePerThread

/-! ## Handles are handed out again -/

/-- **Which handle a thread gets**, wherever calls were made one at a time. A coordinator hands out
a handle that is open on the thread exactly if there is one, it is asked for one that may be handed
out again, and its canonical configuration agrees to that; else it hands out a new one. The handle
is open then and on this thread, whichever it is. Where one can be handed out again nothing can fail
but the check of the configuration. A cache lists every open handle of its coordinator once, and no
handle that is closed or gone. So as long as everybody asks for handles that may be handed out
again, no thread has two of one coordinator. To open a file is to find its coordinator, a call of
its own, and to ask that one. -/
theorem handles_reused {calls : List Call} (hallowed : Call.AllAllowed .start calls) :
    let w := World.start.afterCalls calls
    (∀ c thread config w' h, (Step.getHandle c thread config).run w = (w', .ok h) →
      (w.OpenOn c thread h ↔ w.Reuses c ∧ config.cache ∧ ∃ i, w.OpenOn c thread i) ∧
        (¬ w.OpenOn c thread h → h = w.handles.size) ∧ w'.OpenOn c thread h) ∧
    (∀ c thread config canonical i, (w.coordinator c).config = some canonical → canonical.cache →
      config.cache → canonical.checkCompatible config = .ok () → w.OpenOn c thread i →
      ∃ h, (Step.getHandle c thread config).run w = (w.retainHandle h, .ok h)) ∧
    (∀ c h, (w.remembered c).count h =
      if (w.handle h).isOpen ∧ (w.handle h).coordinator = some c then 1 else 0) ∧
    (∀ c, ∀ h ∈ w.remembered c, w.isAliveHandle h) ∧
    ∀ c, Call.AllCaching c .start calls →
      ∀ thread h i, w.OpenOn c thread h → w.OpenOn c thread i → h = i := by
  intro w
  have horderly : Orderly w := Orderly.start.after hallowed
  have hfiled : Filed w := Filed.start.after .start hallowed
  have hconcord := horderly.concord
  refine ⟨fun c thread config w' h hrun => ?_, fun c thread config canonical i hcanonical hcaches
    hcache hchecked hopen => ?_, hconcord.counted.count_remembered, fun c h hmem => ?_,
    fun c hcaching => ?_⟩
  · exact (Step.handedOut_getHandle hconcord hrun).openOn hfiled hconcord
  · obtain ⟨h, hfound⟩ := Option.isSome_iff_exists.mp
      (hfiled.reusable_of_openOn hconcord.counted ⟨canonical, hcanonical, hcaches⟩ hopen)
    exact ⟨h, Step.run_getHandle_of_reusable hconcord hcanonical hchecked hcache hfound⟩
  · exact hconcord.counted.alive h (by rw [(hconcord.counted.member c h).mp hmem]; rfl)
  · exact ((OnePerThread.start c).after .start .start hallowed hcaching).unique

/-- Two threads open a file, the main thread twice, and then it closes its handle. -/
def twoThreads : List Call :=
  [.chore .makeEngine, .chore .makeRegistry, .openFile 0 none (.forFile "/a" 0),
    .openFile 0 (some "worker") (.forFile "/a" 0), .openFile 0 none (.forFile "//a/" 0),
    .chore (.closeHandle 0)]

/-- The other thread gets its handle again if it asks for that, and the main thread gets a new
one. -/
theorem handles_reused_twoThreads :
    let w := World.start.afterCalls twoThreads
    let config := Config.forFile "/a" 0
    let again := (Step.getHandle 0 (some "worker") config).run w
    let distinct := (Step.getHandle 0 (some "worker") { config with cache := false }).run w
    let fresh := (Step.getHandle 0 none config).run w
    Call.AllAllowed .start twoThreads ∧ Call.AllCaching 0 .start twoThreads ∧
      again.2 = .ok 1 ∧ w.OpenOn 0 (some "worker") 1 ∧ again.1.OpenOn 0 (some "worker") 1 ∧
      distinct.2 = .ok 2 ∧ distinct.1.OpenOn 0 (some "worker") 2 ∧
      fresh.2 = .ok 2 ∧ (¬ ∃ i, w.OpenOn 0 none i) ∧ fresh.1.OpenOn 0 none 2 ∧
      w.remembered 0 = [1] ∧ (w.remembered 0).count 1 = 1 ∧
      ∀ i, w.OpenOn 0 (some "worker") i → i = 1 := by
  intro w config again distinct fresh
  have hallowed : Call.AllAllowed .start twoThreads := by decide +kernel
  have hcaching : Call.AllCaching 0 .start twoThreads := by decide +kernel
  have hagain : again.2 = .ok 1 := by decide +kernel
  have hdistinct : distinct.2 = .ok 2 := by decide +kernel
  have hfresh : fresh.2 = .ok 2 := by decide +kernel
  have hopen : w.OpenOn 0 (some "worker") 1 := by decide +kernel
  have hnew : ¬ w.OpenOn 0 none 2 := by decide +kernel
  have hcanonical : (w.coordinator 0).config = some config := by decide +kernel
  have hremembered : w.remembered 0 = [1] := by decide +kernel
  obtain ⟨hhanded, -, hcount, -, hone⟩ := handles_reused hallowed
  have hnow : ∀ {thread : Thread} {config : Config} {h : HandleId},
      ((Step.getHandle 0 thread config).run w).2 = .ok h →
      (w.OpenOn 0 thread h ↔ w.Reuses 0 ∧ config.cache ∧ ∃ i, w.OpenOn 0 thread i) ∧
        ((Step.getHandle 0 thread config).run w).1.OpenOn 0 thread h := fun hok =>
    have hhanded := hhanded 0 _ _ _ _ (Prod.ext rfl hok)
    ⟨hhanded.1, hhanded.2.2⟩
  exact ⟨hallowed, hcaching, hagain, hopen, (hnow hagain).2, hdistinct, (hnow hdistinct).2, hfresh,
    fun hex => hnew ((hnow hfresh).1.mpr ⟨⟨config, hcanonical, rfl⟩, rfl, hex⟩), (hnow hfresh).2,
    hremembered, (hcount 0 1).trans (if_pos ⟨hopen.1, hopen.2.1⟩),
    fun i hi => hone 0 hcaching _ i 1 hi hopen⟩

end SnapshotCoordination
