import SnapshotCoordination.Proofs.Storage.Directories
import SnapshotCoordination.Proofs.Storage.Readings

/-!
# Whom a notifier wakes

Notifiers come and go at a bench, several of them for one listener on one file, and listeners go.
A notifier that goes takes every registration of its listener on its file with it, those of the
notifiers that stay included. So a listener is woken once for each of its notifiers on the file
that was made since one of them last went (`heard`). That is never more than are there, and it is
all of them unless one went and left another (`LeftBehind`).

* **the notifiers** — `Change`: what a command does to them, `Tallied`, `Stocked`: how many there
  are;
* **the registrations** — `Enrolled`: who is registered on which file, and the names of the
  listeners that are still there;
* **whom a notifier wakes** — `listeners_woken`, `deaf_notifier`.
-/

namespace SnapshotCoordination

namespace Bench

/-! ## The notifiers -/

/-- A notifier is made, or it goes. -/
inductive Change
  | made (n : Notifier)
  | gone (n : Notifier)
  deriving DecidableEq

/-- What a command does to the notifiers, if it is answered so. One that is put under a name is
made before the one that had the name goes. -/
def changes (b : Bench) : Command × Answer → List Change
  | (.listen listener name path, .done) =>
    .made ⟨FilePath.key path, (b.listenerFor listener).2⟩ ::
      (b.notifiers.find? name).toList.map .gone
  | (.dropNotifier name, _) => (b.notifiers.find? name).toList.map .gone
  | _ => []

/-- What a row of commands does to them. -/
def changesOf (b : Bench) : List (Command × Answer) → List Change
  | [] => []
  | step :: steps =>
    b.changes step ++ (b.perform step.1).elim [] fun next => next.1.changesOf steps

/-- How many notifiers like `n`, for the same file and listener, have been made since one last
went, one change later. -/
def Change.hear (n : Notifier) (heard : Nat) (c : Change) : Nat :=
  if c = .made n then heard + 1 else if c = .gone n then 0 else heard

/-- How many notifiers like `n` have been made since one last went. -/
def heard (n : Notifier) (cs : List Change) : Nat := cs.foldl (Change.hear n) 0

/-- A notifier like `n` went while there was another. -/
def LeftBehind (n : Notifier) (cs : List Change) : Prop :=
  ∃ before after, cs = before ++ .gone n :: after ∧
    before.count (.gone n) + 1 < before.count (.made n)

section

variable {n m : Notifier} {cs : List Change} {c : Change} {old : Option Notifier}

theorem heard_concat (n : Notifier) (cs : List Change) (c : Change) :
    heard n (cs ++ [c]) = c.hear n (heard n cs) := List.foldl_concat ..

theorem heard_made : heard n (cs ++ [.made m]) = heard n cs + if m = n then 1 else 0 := by
  rw [heard_concat, Change.hear]
  by_cases h : m = n <;> simp [h]

theorem heard_gone : heard n (cs ++ [.gone m]) = if m = n then 0 else heard n cs := by
  rw [heard_concat, Change.hear]
  by_cases h : m = n <;> simp [h]

theorem heard_old : heard n (cs ++ old.toList.map .gone) =
    if old = some n then 0 else heard n cs := by
  cases old with
  | none => simp
  | some m => simp [heard_gone]

theorem count_gone_old : (old.toList.map Change.gone).count (.gone n) =
    if old = some n then 1 else 0 := by
  cases old with
  | none => rfl
  | some m => simp [List.count_singleton]

theorem count_made_old : (old.toList.map Change.gone).count (.made n) = 0 := by
  cases old with
  | none => rfl
  | some m => rfl

theorem LeftBehind.append (h : LeftBehind n cs) (more : List Change) :
    LeftBehind n (cs ++ more) := by
  obtain ⟨before, after, rfl, hcount⟩ := h
  exact ⟨before, after ++ more, by simp, hcount⟩

/-- If none is left behind, one that goes is the only one. -/
theorem not_leftBehind_gone (h : ¬ LeftBehind n (cs ++ old.toList.map .gone))
    (hold : old = some n) :
    cs.count (.made n) ≤ cs.count (.gone n) + 1 := by
  subst hold
  exact Nat.le_of_not_lt fun hlt => h ⟨cs, [], rfl, hlt⟩

end

variable {b b₁ b' : Bench} {cs : List Change} {command : Command} {answer : Answer}
  {steps : List (Command × Answer)}

/-- How many notifiers of each kind there are after some changes: those that were made and have not
gone. Those that were made since one last went are among them, and are all of them if none was left
behind. -/
structure Tallied (cs : List Change) (there : Notifier → Nat) : Prop where
  held : ∀ n, there n + cs.count (.gone n) = cs.count (.made n)
  heard_le : ∀ n, heard n cs ≤ there n
  all : ∀ n, ¬ LeftBehind n cs → heard n cs = there n

namespace Tallied

variable {there there' : Notifier → Nat}

theorem made (h : Tallied cs there) (m : Notifier) :
    Tallied (cs ++ [.made m]) fun n => there n + if m = n then 1 else 0 where
  held n := by
    have hheld := h.held n
    rw [List.count_append, List.count_append, List.count_singleton, List.count_singleton]
    simp only [beq_iff_eq, reduceCtorEq, if_false, Change.made.injEq]
    omega
  heard_le n := by
    rw [heard_made]
    exact Nat.add_le_add_right (h.heard_le n) _
  all n hnone := by rw [heard_made, h.all n fun hleft => hnone (hleft.append _)]

/-- The notifier goes that had a name, if there was one. -/
theorem gone (h : Tallied cs there) (old : Option Notifier)
    (hgone : ∀ n, there' n + (if old = some n then 1 else 0) = there n) :
    Tallied (cs ++ old.toList.map .gone) there' where
  held n := by
    have hheld := h.held n
    have hcount := hgone n
    rw [List.count_append, List.count_append, count_gone_old, count_made_old]
    omega
  heard_le n := by
    have hle := h.heard_le n
    have hcount := hgone n
    rw [heard_old]
    split
    · exact Nat.zero_le _
    · next hold =>
      rw [if_neg hold] at hcount
      omega
  all n hnone := by
    have hheld := h.held n
    have hcount := hgone n
    have hall := h.all n fun hleft => hnone (hleft.append _)
    rw [heard_old]
    split
    · next hold =>
      have honly := not_leftBehind_gone hnone hold
      rw [if_pos hold] at hcount
      omega
    · next hold =>
      rw [if_neg hold] at hcount
      omega

end Tallied

/-- How many notifiers there are, by file and listener, after some changes. -/
structure Stocked (cs : List Change) (b : Bench) : Prop where
  distinct : b.notifiers.Distinct
  tallied : Tallied cs b.notifiers.countOf

namespace Stocked

theorem keep (h : Stocked cs b) (same : b'.notifiers = b.notifiers) : Stocked (cs ++ []) b' := by
  rw [List.append_nil]
  exact ⟨same ▸ h.distinct, same ▸ h.tallied⟩

/-- A notifier is put under a name. -/
theorem set {name : String} {m : Notifier} (h : Stocked cs b)
    (hset : b'.notifiers = b.notifiers.set name m) :
    Stocked (cs ++ (.made m :: (b.notifiers.find? name).toList.map .gone)) b' where
  distinct := hset ▸ h.distinct.set name m
  tallied := by
    rw [List.append_cons, hset]
    exact (h.tallied.made m).gone _ fun n => Directory.countOf_set b.notifiers name m n

/-- A notifier is taken out, if it is there. -/
theorem erase {name : String} (h : Stocked cs b)
    (herase : b'.notifiers = b.notifiers.erase name) :
    Stocked (cs ++ (b.notifiers.find? name).toList.map .gone) b' where
  distinct := herase ▸ h.distinct.erase name
  tallied := by
    rw [herase]
    exact h.tallied.gone _ fun n => Directory.countOf_erase h.distinct name n

end Stocked

/-! ## The registrations -/

theorem alive_iff {l : ListenerId} :
    b.alive l = true ↔ ∃ name, b.listeners[l]? = some ⟨name, true⟩ := by
  unfold alive
  constructor
  · intro h
    cases hl : b.listeners[l]? with
    | none => rw [hl] at h; cases h
    | some x =>
      rw [hl] at h
      exact ⟨x.name, congrArg some (Listener.mk.injEq .. ▸ ⟨rfl, h⟩)⟩
  · rintro ⟨name, hl⟩
    rw [hl]
    rfl

theorem alive_congr (h : b'.listeners = b.listeners) : b'.alive = b.alive := by
  funext l
  rw [alive, alive, h]

theorem length_gt {l : ListenerId} (h : b.alive l = true) : l < b.listeners.length := by
  obtain ⟨name, hl⟩ := alive_iff.mp h
  exact (List.getElem?_eq_some_iff.mp hl).1

/-- The listeners registered on a file. -/
def registeredOn (b : Bench) (key : String) : List ListenerId := (b.engine.file key).listeners

theorem registeredOn_setFile {key : String} {f : File}
    (h : b'.engine = b.engine.setFile key f) (k : String) :
    b'.registeredOn k = if k = key then f.listeners else b.registeredOn k := by
  rw [registeredOn, h, Engine.file_setFile]
  split <;> rfl

/-- A file that is put back with the same listeners. -/
theorem registeredOn_setFile_same {key : String} {f : File}
    (h : b'.engine = b.engine.setFile key f) (hf : f.listeners = b.registeredOn key) (k : String) :
    b'.registeredOn k = b.registeredOn k := by
  rw [registeredOn_setFile h, hf]
  split
  · next hk => rw [hk]
  · rfl

/-- Who is registered on which file after some changes to the notifiers, and which listeners there
are: those that are still there have a name each. -/
structure Enrolled (cs : List Change) (b : Bench) : Prop where
  names : ∀ name l, b.listenerNames.find? name = some l ↔ b.listeners[l]? = some ⟨name, true⟩
  registered : ∀ n : Notifier, b.alive n.listener = true →
    (b.registeredOn n.key).count n.listener = heard n cs
  unborn : ∀ n : Notifier, b.listeners.length ≤ n.listener →
    heard n cs = 0 ∧ n.listener ∉ b.registeredOn n.key

namespace Enrolled

/-- The listeners stay, and so do the registrations. -/
theorem keep (h : Enrolled cs b) (hnames : b'.listenerNames = b.listenerNames)
    (hlisteners : b'.listeners = b.listeners)
    (hregistered : ∀ key, b'.registeredOn key = b.registeredOn key) :
    Enrolled (cs ++ []) b' := by
  have halive := alive_congr hlisteners
  rw [List.append_nil]
  refine ⟨fun name l => ?_, fun n hn => ?_, fun n hn => ?_⟩
  · rw [hnames, hlisteners]
    exact h.names name l
  · rw [hregistered]
    exact h.registered n (halive ▸ hn)
  · rw [hregistered]
    exact h.unborn n (hlisteners ▸ hn)

/-- A name stands for a listener that is there. -/
theorem alive (h : Enrolled cs b) {name : String} {l : ListenerId}
    (hfound : b.listenerNames.find? name = some l) : b.alive l = true :=
  alive_iff.mpr ⟨name, (h.names name l).mp hfound⟩

theorem listenerFor (h : Enrolled cs b) (name : String) :
    Enrolled cs (b.listenerFor name).1 ∧
      (b.listenerFor name).1.alive (b.listenerFor name).2 = true := by
  unfold Bench.listenerFor
  split
  · next l hfound => exact ⟨h, h.alive hfound⟩
  · next hnone =>
    -- the new listener comes behind all there were
    have hget : ∀ l, (b.listeners ++ [⟨name, true⟩])[l]? =
        if l = b.listeners.length then some ⟨name, true⟩ else b.listeners[l]? := fun l => by
      rw [List.getElem?_append]
      split
      · next hlt => rw [if_neg (Nat.ne_of_lt hlt)]
      · next hge =>
        by_cases heq : l = b.listeners.length
        · simp [heq]
        · rw [if_neg heq, List.getElem?_eq_none (by simp; omega),
            List.getElem?_eq_none (by omega)]
    refine ⟨⟨fun name' l => ?_, fun n hn => ?_, fun n hn => ?_⟩, ?_⟩
    · dsimp only
      rw [Directory.find?_set, hget]
      by_cases hname : name' = name
      · subst hname
        rw [if_pos rfl]
        by_cases hl : l = b.listeners.length
        · simp [hl]
        · rw [if_neg hl, ← h.names, hnone]
          simp [Ne.symm hl]
      · rw [if_neg hname, h.names]
        by_cases hl : l = b.listeners.length
        · subst hl
          simp [Ne.symm hname]
        · rw [if_neg hl]
    · by_cases hl : n.listener = b.listeners.length
      · obtain ⟨hheard, hnot⟩ := h.unborn n (Nat.le_of_eq hl.symm)
        rw [hheard]
        exact List.count_eq_zero.mpr hnot
      · refine h.registered n ?_
        obtain ⟨name', hname'⟩ := alive_iff.mp hn
        rw [hget, if_neg hl] at hname'
        exact alive_iff.mpr ⟨name', hname'⟩
    · refine h.unborn n ?_
      dsimp only at hn
      rw [List.length_append] at hn
      omega
    · exact alive_iff.mpr ⟨name, (hget _).trans (if_pos rfl)⟩

/-- A listener is registered on a file for a notifier that is made. -/
theorem listen {key : String} {l : ListenerId} (h : Enrolled cs b) (hl : b.alive l = true)
    (hnames : b'.listenerNames = b.listenerNames) (hlisteners : b'.listeners = b.listeners)
    (hengine : b'.engine = b.engine.setFile key ((b.engine.file key).listen l)) :
    Enrolled (cs ++ [.made ⟨key, l⟩]) b' := by
  have halive := alive_congr hlisteners
  have hregistered : ∀ k, b'.registeredOn k =
      if k = key then b.registeredOn key ++ [l] else b.registeredOn k :=
    registeredOn_setFile hengine
  refine ⟨fun name l => ?_, fun n hn => ?_, fun n hn => ?_⟩
  · rw [hnames, hlisteners]
    exact h.names name l
  · rw [heard_made, ← h.registered n (halive ▸ hn), hregistered]
    obtain ⟨k, l'⟩ := n
    by_cases hk : k = key
    · subst hk
      rw [if_pos rfl, List.count_append, List.count_singleton]
      simp
    · rw [if_neg hk]
      simp [Ne.symm hk]
  · obtain ⟨hheard, hnot⟩ := h.unborn n (hlisteners ▸ hn)
    have hne : l ≠ n.listener :=
      Nat.ne_of_lt (Nat.lt_of_lt_of_le (length_gt hl) (hlisteners ▸ hn))
    have hmade : (⟨key, l⟩ : Notifier) ≠ n := fun heq => hne (congrArg Notifier.listener heq)
    rw [heard_made, hregistered, hheard, if_neg hmade]
    refine ⟨rfl, ?_⟩
    split
    · next hk =>
      rw [List.mem_append, List.mem_singleton, not_or]
      exact ⟨hk ▸ hnot, Ne.symm hne⟩
    · exact hnot

/-- A notifier goes, with every registration of its listener on its file. -/
theorem dropNotifier (h : Enrolled cs b) (old : Notifier) :
    Enrolled (cs ++ [.gone old]) (b.dropNotifier old) := by
  have hengine : (b.dropNotifier old).engine = b.engine.setFile old.key
      ((b.engine.file old.key).unlisten b.alive old.listener) := rfl
  have hregistered : ∀ k, (b.dropNotifier old).registeredOn k =
      if k = old.key then (b.registeredOn old.key).filter fun x => b.alive x && x != old.listener
      else b.registeredOn k := registeredOn_setFile hengine
  refine ⟨h.names, fun n hn => ?_, fun n hn => ?_⟩
  · have hn : b.alive n.listener = true := hn
    rw [heard_gone, hregistered, ← h.registered n hn]
    by_cases hk : n.key = old.key
    · rw [if_pos hk, ← hk]
      by_cases hl : n.listener = old.listener
      · have hsame : old = n := Notifier.mk.injEq .. ▸ ⟨hk.symm, hl.symm⟩
        rw [if_pos hsame]
        exact List.count_eq_zero.mpr fun hmem => by simp [hl] at hmem
      · rw [if_neg fun heq => hl (congrArg Notifier.listener heq).symm]
        exact List.count_filter (by simp [hn, hl])
    · rw [if_neg hk, if_neg fun heq => hk (congrArg Notifier.key heq).symm]
  · obtain ⟨hheard, hnot⟩ := h.unborn n hn
    rw [heard_gone, hregistered, hheard]
    refine ⟨ite_self 0, ?_⟩
    split
    · next hk => exact fun hmem => hnot (hk ▸ List.mem_of_mem_filter hmem)
    · exact hnot

/-- The notifier that had a name goes, if there was one. -/
theorem dropOld (h : Enrolled cs b) (old : Option Notifier) :
    Enrolled (cs ++ old.toList.map .gone) (old.elim b b.dropNotifier) := by
  cases old with
  | none => exact h.keep rfl rfl fun _ => rfl
  | some n => exact h.dropNotifier n

/-- Registrations of listeners that are gone are taken out. -/
theorem sweep {key : String} (h : Enrolled cs b) (hnames : b'.listenerNames = b.listenerNames)
    (hlisteners : b'.listeners = b.listeners)
    (hengine : b'.engine = b.engine.setFile key ((b.engine.file key).sweepListeners b.alive)) :
    Enrolled (cs ++ []) b' := by
  have halive := alive_congr hlisteners
  have hregistered : ∀ k, b'.registeredOn k =
      if k = key then (b.registeredOn key).filter b.alive else b.registeredOn k :=
    registeredOn_setFile hengine
  rw [List.append_nil]
  refine ⟨fun name l => ?_, fun n hn => ?_, fun n hn => ?_⟩
  · rw [hnames, hlisteners]
    exact h.names name l
  · have hn : b.alive n.listener = true := halive ▸ hn
    rw [hregistered, ← h.registered n hn]
    split
    · next hk => rw [hk, List.count_filter hn]
    · rfl
  · obtain ⟨hheard, hnot⟩ := h.unborn n (hlisteners ▸ hn)
    rw [hregistered]
    refine ⟨hheard, ?_⟩
    split
    · next hk => exact fun hmem => hnot (hk ▸ List.mem_of_mem_filter hmem)
    · exact hnot

/-- A listener goes, and its name with it. -/
theorem dropListener {name : String} {l : ListenerId} (h : Enrolled cs b)
    (hfound : b.listenerNames.find? name = some l)
    (hnames : b'.listenerNames = b.listenerNames.erase name)
    (hlisteners : b'.listeners = b.listeners.modify l fun x => { x with alive := false })
    (hengine : b'.engine = b.engine) : Enrolled (cs ++ []) b' := by
  have hl := (h.names name l).mp hfound
  have hget : ∀ l' name', b'.listeners[l']? = some ⟨name', true⟩ ↔
      l' ≠ l ∧ b.listeners[l']? = some ⟨name', true⟩ := fun l' name' => by
    rw [hlisteners, List.getElem?_modify]
    by_cases heq : l' = l
    · subst heq
      simp [hl]
    · simp [heq, Ne.symm heq]
  rw [List.append_nil]
  refine ⟨fun name' l' => ?_, fun n hn => ?_, fun n hn => ?_⟩
  · rw [hnames, Directory.find?_erase, hget]
    by_cases hname : name' = name
    · subst hname
      rw [if_pos rfl, ← h.names, hfound]
      simp [eq_comm]
    · rw [if_neg hname, h.names]
      refine ⟨fun hl' => ⟨?_, hl'⟩, And.right⟩
      rintro rfl
      rw [hl] at hl'
      exact hname (congrArg Listener.name (Option.some.inj hl')).symm
  · obtain ⟨name', hname'⟩ := alive_iff.mp hn
    have hregistered := h.registered n (alive_iff.mpr ⟨name', ((hget _ _).mp hname').2⟩)
    rwa [registeredOn, hengine]
  · rw [hlisteners, List.length_modify] at hn
    rw [registeredOn, hengine]
    exact h.unborn n hn

end Enrolled

/-! ## One command -/

/-- The notifiers and the registrations after some changes. -/
structure Booked (cs : List Change) (b : Bench) : Prop where
  stocked : Stocked cs b
  enrolled : Enrolled cs b

/-- The files keep their listeners, and nothing happens to notifiers and listeners. -/
structure Quiet (b b' : Bench) : Prop where
  notifiers : b'.notifiers = b.notifiers
  names : b'.listenerNames = b.listenerNames
  listeners : b'.listeners = b.listeners
  registered : ∀ key, b'.registeredOn key = b.registeredOn key

namespace Quiet

theorem refl (b : Bench) : Quiet b b := ⟨rfl, rfl, rfl, fun _ => rfl⟩

theorem openCursor (b : Bench) (name path : String) : Quiet b (b.openCursor name path).1 := by
  unfold Bench.openCursor Engine.openCursor
  by_cases hfail : b.engine.cursorsFail
  · rw [if_pos hfail]
    exact .refl b
  · rw [if_neg hfail]
    exact ⟨rfl, rfl, rfl, registeredOn_setFile_same rfl rfl⟩

theorem beginRead (b : Bench) (name : String) (c : Cursor) (asked : Option Version) :
    Quiet b (b.beginRead name c asked).1 := by
  unfold Bench.beginRead
  split <;> exact ⟨rfl, rfl, rfl, fun _ => rfl⟩

theorem follow {σ : Type} [LogReader σ] (b : Bench) (name : String) (c : Cursor)
    (asked : Option Version) (reader : σ) (shown : σ → Seen) :
    Quiet b (b.follow name c asked reader shown).1 := by
  have hfile : (c.follow (b.fileOf c) asked reader).file.listeners = b.registeredOn c.file.key := by
    unfold Cursor.follow
    split
    · rfl
    · split <;> rfl
  unfold Bench.follow
  dsimp only
  split <;> exact ⟨rfl, rfl, rfl, registeredOn_setFile_same rfl hfile⟩

theorem advance (b : Bench) (name : String) (c : Cursor) (asked : Option Version)
    (reader : Reader) : Quiet b (b.advance name c asked reader).1 := by
  cases reader with
  | nobody =>
    unfold Bench.advance
    dsimp only
    split <;> exact ⟨rfl, rfl, rfl, fun _ => rfl⟩
  | counter => exact follow b name c asked _ _
  | tape failAt failEnd => exact follow b name c asked _ _
  | guard => exact follow b name c asked _ _
  | recorder observed => exact follow b name c asked _ _

end Quiet

namespace Booked

theorem quiet (h : Booked cs b) (hquiet : Quiet b b') : Booked (cs ++ []) b' :=
  ⟨h.stocked.keep hquiet.notifiers,
    h.enrolled.keep hquiet.names hquiet.listeners hquiet.registered⟩

theorem notifiers_listenerFor (b : Bench) (name : String) :
    (b.listenerFor name).1.notifiers = b.notifiers := by
  unfold listenerFor
  split <;> rfl

theorem notifiers_dropOld (b : Bench) (old : Option Notifier) :
    (old.elim b b.dropNotifier).notifiers = b.notifiers := by
  cases old <;> rfl

/-- A registration is refused, or a notifier is made, and the one that had its name goes. -/
theorem listen (h : Booked cs b) (listener notifier path : String) :
    Booked (cs ++ b.changes (.listen listener notifier path, (b.listen listener notifier path).2))
      (b.listen listener notifier path).1 := by
  have henrolled := h.enrolled.listenerFor listener
  have hnotifiers := notifiers_listenerFor b listener
  unfold Bench.listen Engine.listen
  cases hfor : b.listenerFor listener with
  | mk b₁ l =>
    rw [hfor] at henrolled hnotifiers
    dsimp only at henrolled hnotifiers ⊢
    by_cases hfail : b₁.engine.notifiersFail
    · rw [if_pos hfail]
      exact ⟨h.stocked.keep hnotifiers, henrolled.1.keep rfl rfl fun _ => rfl⟩
    · rw [if_neg hfail]
      dsimp only [changes]
      rw [hfor, hnotifiers]
      refine ⟨h.stocked.set (notifiers_dropOld _ _), ?_⟩
      rw [List.append_cons]
      refine Enrolled.dropOld ?_ _
      exact henrolled.1.listen henrolled.2 rfl rfl rfl

/-- What a command does to the notifiers and the registrations. -/
theorem perform (h : Booked cs b) (hperform : b.perform command = some (b', answer)) :
    Booked (cs ++ b.changes (command, answer)) b' := by
  cases command with
  | commit path log | latest path | stats path =>
    cases hperform
    exact h.quiet ⟨rfl, rfl, rfl, registeredOn_setFile_same rfl rfl⟩
  | failCursors on | failNotifiers on | describe =>
    cases hperform
    exact h.quiet ⟨rfl, rfl, rfl, fun _ => rfl⟩
  | openCursor name path =>
    have hquiet := Quiet.openCursor b name path
    rw [Option.some.inj hperform] at hquiet
    exact h.quiet hquiet
  | beginRead name asked =>
    obtain ⟨c, -, hperform⟩ := Option.map_eq_some_iff.mp hperform
    have hquiet := Quiet.beginRead b name c asked
    rw [hperform] at hquiet
    exact h.quiet hquiet
  | endRead name | look name =>
    obtain ⟨c, -, hperform⟩ := Option.map_eq_some_iff.mp hperform
    cases hperform
    exact h.quiet ⟨rfl, rfl, rfl, fun _ => rfl⟩
  | advance name asked reader =>
    obtain ⟨c, -, hperform⟩ := Option.map_eq_some_iff.mp hperform
    have hquiet := Quiet.advance b name c asked reader
    rw [hperform] at hquiet
    exact h.quiet hquiet
  | listen listener notifier path =>
    have hlisten := h.listen listener notifier path
    rwa [Option.some.inj hperform] at hlisten
  | dropListener name =>
    unfold Bench.perform at hperform
    dsimp only at hperform
    split at hperform
    · cases hperform
      exact h.quiet (.refl b)
    · next l hfound =>
      cases hperform
      exact ⟨h.stocked.keep rfl, h.enrolled.dropListener hfound rfl rfl rfl⟩
  | dropNotifier name =>
    unfold Bench.perform at hperform
    dsimp only at hperform
    split at hperform
    · next hnone =>
      cases hperform
      rw [changes, hnone]
      exact h.quiet (.refl b)
    · next n hfound =>
      cases hperform
      refine ⟨h.stocked.erase rfl, ?_⟩
      rw [changes, hfound]
      have henrolled := h.enrolled.dropNotifier n
      exact ⟨henrolled.names, henrolled.registered, henrolled.unborn⟩
  | notify name =>
    obtain ⟨n, -, hperform⟩ := Option.map_eq_some_iff.mp hperform
    cases hperform
    exact ⟨h.stocked.keep rfl, h.enrolled.sweep rfl rfl rfl⟩

end Booked

/-! ## Rows of commands -/

theorem enrolled_fresh : Enrolled [] fresh where
  names name l := by simp [fresh, Directory.find?, Directory.empty]
  registered n hn := Bool.noConfusion hn
  unborn n _ := ⟨rfl, List.not_mem_nil⟩

theorem stocked_fresh : Stocked [] fresh :=
  ⟨Directory.distinct_empty, fun _ => rfl, fun _ => Nat.le_refl 0, fun _ _ => rfl⟩

/-- The changes of a row of commands, one command longer. -/
theorem Plays.changesOf_concat (h : Plays b steps b₁) (step : Command × Answer) :
    b.changesOf (steps ++ [step]) = b.changesOf steps ++ b₁.changes step := by
  induction h with
  | refl b =>
    rw [List.nil_append, changesOf, changesOf, List.nil_append]
    cases b.perform step.1 <;> simp [changesOf]
  | step first rest ih =>
    simp only [List.cons_append, changesOf, first, Option.elim, ih, List.append_assoc]

/-- The notifiers and the registrations after any row of commands. -/
theorem Plays.booked (h : Plays .fresh steps b) : Booked (fresh.changesOf steps) b := by
  have hrow := h.preserves (P := fun steps b =>
      Plays fresh steps b ∧ Booked (fresh.changesOf steps) b)
    ⟨.refl fresh, stocked_fresh, enrolled_fresh⟩
    fun before b₁ b₂ command answer hbefore hperform => by
      refine ⟨hbefore.1.trans (.step hperform (.refl b₂)), ?_⟩
      rw [hbefore.1.changesOf_concat]
      exact hbefore.2.perform hperform
  exact hrow.2

/-! ## Whom a notifier wakes -/

/-- The listeners that are woken on a file, in the order of their registrations. -/
def woken (b : Bench) (key : String) : List ListenerId := (b.registeredOn key).filter b.alive

/-- A notifier answers the names of the listeners woken on its file. -/
theorem perform_notify {name : String} {n : Notifier} (h : b.notifiers.find? name = some n) :
    ∃ b', b.perform (.notify name) = some (b',
      .names ((b.woken n.key).filterMap fun l => b.listeners[l]?.map (·.name))) :=
  ⟨_, Option.map_eq_some_iff.mpr ⟨n, h, rfl⟩⟩

/-- A name is among the names of the woken as often as its listener is among them, -/
theorem Enrolled.count_names (h : Enrolled cs b) {name : String} {l : ListenerId}
    (hfound : b.listenerNames.find? name = some l) (key : String) :
    ((b.woken key).filterMap fun l => b.listeners[l]?.map (·.name)).count name =
      heard ⟨key, l⟩ cs := by
  have halive := h.alive hfound
  have hwoken : (b.woken key).count l = heard ⟨key, l⟩ cs :=
    (List.count_filter halive).trans (h.registered ⟨key, l⟩ halive)
  rw [← hwoken, List.count_filterMap, List.count_eq_countP]
  refine List.countP_congr fun l' hl' => ?_
  obtain ⟨name', hname'⟩ := alive_iff.mp (List.mem_filter.mp hl').2
  rw [hname', beq_iff_eq, beq_iff_eq, Option.map_some, Option.some.injEq]
  constructor
  · rintro rfl
    exact Option.some.inj (((h.names name' l').mpr hname').symm.trans hfound)
  · rintro rfl
    rw [(h.names name l').mp hfound] at hname'
    exact (congrArg Listener.name (Option.some.inj hname')).symm

/-- and a name that stands for no listener is not. -/
theorem Enrolled.notMem_names (h : Enrolled cs b) {name : String}
    (hnone : b.listenerNames.find? name = none) (key : String) :
    name ∉ (b.woken key).filterMap fun l => b.listeners[l]?.map (·.name) := by
  intro hmem
  obtain ⟨l, hl, hname⟩ := List.mem_filterMap.mp hmem
  obtain ⟨name', hname'⟩ := alive_iff.mp (List.mem_filter.mp hl).2
  rw [hname'] at hname
  obtain rfl : name' = name := Option.some.inj hname
  rw [(h.names name' l).mpr hname'] at hnone
  cases hnone

end Bench

open Bench in
/-- **Whom a notifier wakes.** After any row of commands a notifier that is there answers the names
of the listeners it wakes on its file. No name stands for a listener that is gone. A listener that
is there is woken once for each of its notifiers on the file that was made since one of them last
went. Those are never more than are there, so a listener whose notifiers on the file have all gone
is not woken; and they are all that are there, unless one of them went while there was another. -/
theorem listeners_woken {steps : List (Command × Answer)} {b : Bench} (h : Plays .fresh steps b)
    {notifier : String} {m : Bench.Notifier} (hthere : b.notifiers.find? notifier = some m) :
    ∃ b' names, b.perform (.notify notifier) = some (b', .names names) ∧
      (∀ name, b.listenerNames.find? name = none → name ∉ names) ∧
      ∀ name l, b.listenerNames.find? name = some l →
        let changes := fresh.changesOf steps
        names.count name = heard ⟨m.key, l⟩ changes ∧
        names.count name ≤ b.notifiers.countOf ⟨m.key, l⟩ ∧
        (name ∈ names → ∃ other, b.notifiers.find? other = some ⟨m.key, l⟩) ∧
        (¬ LeftBehind ⟨m.key, l⟩ changes →
          names.count name = b.notifiers.countOf ⟨m.key, l⟩ ∧
          (name ∈ names ↔ ∃ other, b.notifiers.find? other = some ⟨m.key, l⟩)) := by
  have hbooked := h.booked
  obtain ⟨b', hperform⟩ := perform_notify hthere
  refine ⟨b', _, hperform, fun name hnone => hbooked.enrolled.notMem_names hnone m.key,
    fun name l hfound => ?_⟩
  have hcount := hbooked.enrolled.count_names hfound m.key
  have hle := hbooked.stocked.tallied.heard_le ⟨m.key, l⟩
  have hsome := Directory.countOf_pos (x := ⟨m.key, l⟩) hbooked.stocked.distinct
  dsimp only
  rw [← List.count_pos_iff, hcount, ← hsome]
  refine ⟨rfl, hle, fun hpos => Nat.lt_of_lt_of_le hpos hle, fun halone => ?_⟩
  have hall := hbooked.stocked.tallied.all _ halone
  exact ⟨hall, by rw [hall]⟩

open Bench in
/-- Two notifiers for one listener, under two spellings of a path, and one for a listener that
goes. -/
def twoNotifiers : List (Command × Answer) :=
  [(.listen "reader" "first" "/a", .done), (.listen "leaver" "other" "/a", .done),
    (.listen "reader" "second" "/a/.", .done), (.dropListener "leaver", .flag true)]

open Bench in
/-- The one is woken twice, and the other not at all. -/
theorem listeners_woken_twoNotifiers : ∃ b, Plays .fresh twoNotifiers b ∧
    ∃ b' names, b.perform (.notify "first") = some (b', .names names) ∧
      names.count "reader" = 2 ∧ "leaver" ∉ names := by
  have hplays : ∃ b, Plays .fresh twoNotifiers b ∧
      b.notifiers.find? "first" = some ⟨"/a", 0⟩ ∧ b.notifiers.countOf ⟨"/a", 0⟩ = 2 ∧
      b.listenerNames.find? "reader" = some 0 ∧ b.listenerNames.find? "leaver" = none :=
    ⟨_, .step rfl (.step rfl (.step rfl (.step rfl (.refl _)))), by decide +kernel⟩
  obtain ⟨b, hplays, hthere, htwo, hreader, hleaver⟩ := hplays
  obtain ⟨b', names, hperform, hgone, hwoken⟩ := listeners_woken hplays hthere
  -- no notifier went, so none is left behind
  have hstay : Change.gone ⟨"/a", 0⟩ ∉ fresh.changesOf twoNotifiers := by decide +kernel
  have halone : ¬ LeftBehind ⟨"/a", 0⟩ (fresh.changesOf twoNotifiers) := by
    rintro ⟨before, after, heq, -⟩
    exact hstay (heq ▸ List.mem_append_right _ List.mem_cons_self)
  refine ⟨b, hplays, b', names, hperform, ?_, hgone "leaver" hleaver⟩
  exact ((hwoken "reader" 0 hreader).2.2.2 halone).1.trans htwo

open Bench in
/-- Of two notifiers for one listener on one file, the first goes. -/
def firstGone : List (Command × Answer) :=
  [(.listen "reader" "first" "/a", .done), (.listen "reader" "second" "/a", .done),
    (.dropNotifier "first", .flag true)]

open Bench in
/-- The second is still there, and so is the listener, but nobody is woken. -/
theorem deaf_notifier : ∃ b b', Plays .fresh firstGone b ∧
    b.notifiers.find? "second" = some ⟨"/a", 0⟩ ∧
    b.listenerNames.find? "reader" = some 0 ∧ b.alive 0 = true ∧
    b.perform (.notify "second") = some (b', .names []) :=
  ⟨_, _, .step rfl (.step rfl (.step rfl (.refl _))), rfl, rfl, rfl, rfl⟩

end SnapshotCoordination
