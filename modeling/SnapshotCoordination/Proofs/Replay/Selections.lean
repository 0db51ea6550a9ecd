import Mathlib.Data.List.Induction
import SnapshotCoordination.Proofs.Replay.Recording

/-!
# What falls to a table and to a list

A log selects a table, and in it a list, and what it does next it does to these, until it selects
others. A `Selection` is what is selected at a point of a log. The share of a table in a log is what
the log writes and erases while the table is selected (`Log.rowWork`), and the share of a list is how
the log edits it while the list is selected (`Log.listWork`).

* **`ChangeRecorder.Recorded`** — what a recorder adds to each diff along a log is the share of its
  table or of its list (`Recorded.read`, for every instruction that is taken in; `Recorded.feed`,
  for every log that is);
* **`changes_by_share`** — so the changes of a log fall into tables and lists, and each diff is
  determined by its share alone.
-/

namespace SnapshotCoordination

/-- What a log has selected: a table, by its number, and the list it selected last, if any. -/
structure Selection where
  table : Nat
  list : Option ListKey
  deriving DecidableEq

namespace Selection

/-- At the start of a log number 0 counts as selected, and no list. -/
def initial : Selection := ⟨0, none⟩

/-- What is selected after an instruction. A list is one of the table selected when the list is. -/
def follow (s : Selection) : Instruction → Selection
  | .selectTable table => { s with table := table }
  | .selectLinkList col row => { s with list := some ⟨s.table, row, col⟩ }
  | _ => s

/-- What is selected after a log. -/
def after (s : Selection) (log : Log) : Selection := log.foldl follow s

theorem after_append (s : Selection) (a b : Log) : s.after (a ++ b) = (s.after a).after b :=
  List.foldl_append

end Selection

/-! ## Shares of a log -/

namespace Log

/-- Of a log that begins where `s` is selected, the instructions that come while what is selected
satisfies `p`. -/
def under (p : Selection → Bool) : Selection → Log → Log
  | _, [] => []
  | s, i :: rest => if p s then i :: under p (s.follow i) rest else under p (s.follow i) rest

/-- What is written to and erased from the rows of a table while it is selected. -/
def rowWork (log : Log) (s : Selection) (table : Nat) : List RowEdit :=
  (under (·.table == table) s log).filterMap Instruction.rowChange?

/-- How a list is edited while it is selected. -/
def listWork (log : Log) (s : Selection) (key : ListKey) : Log :=
  (under (·.list == some key) s log).filter Instruction.editsList

variable {p : Selection → Bool} {s : Selection} {i : Instruction}

theorem under_append (p : Selection → Bool) (s : Selection) (a b : Log) :
    under p s (a ++ b) = under p s a ++ under p (s.after a) b := by
  induction a generalizing s with
  | nil => rfl
  | cons i a ih =>
    rw [List.cons_append, under, under, ih, Selection.after, Selection.after, List.foldl_cons]
    split <;> rfl

theorem rowWork_append (a b : Log) (s : Selection) (table : Nat) :
    rowWork (a ++ b) s table = rowWork a s table ++ rowWork b (s.after a) table := by
  unfold rowWork
  rw [under_append, List.filterMap_append]

theorem listWork_append (a b : Log) (s : Selection) (key : ListKey) :
    listWork (a ++ b) s key = listWork a s key ++ listWork b (s.after a) key := by
  unfold listWork
  rw [under_append, List.filter_append]

theorem rowWork_singleton (i : Instruction) (s : Selection) (table : Nat) :
    rowWork [i] s table = if s.table = table then i.rowChange?.toList else [] := by
  unfold rowWork under under
  by_cases hs : s.table = table
  · cases hi : i.rowChange? <;> simp [hs, hi]
  · simp [hs]

theorem listWork_singleton (i : Instruction) (s : Selection) (key : ListKey) :
    listWork [i] s key = if s.list = some key ∧ i.editsList then [i] else [] := by
  unfold listWork under under
  by_cases hs : s.list = some key
  · cases hi : i.editsList <;> simp [hs, hi]
  · simp [hs]

end Log

namespace Instruction

variable {i : Instruction}

/-- What edits rows edits no list, and selects nothing. -/
theorem of_rowChange? {e : RowEdit} (h : i.rowChange? = some e) :
    i.editsList = false ∧ ∀ s : Selection, s.follow i = s := by
  cases i <;> first
    | exact ⟨rfl, fun _ => rfl⟩
    | cases h

/-- What edits a list edits no rows, and selects nothing. -/
theorem of_editsList (h : i.editsList) :
    i.rowChange? = none ∧ ∀ s : Selection, s.follow i = s := by
  cases i <;> first
    | exact ⟨rfl, fun _ => rfl⟩
    | cases h

end Instruction

/-! ## The selection of a recorder -/

/-- Changing the one element that satisfies `p`, by its place or wherever it stands. -/
theorem modify_findIdx? {α : Type} {p : α → Bool} (f : α → α) {xs : List α}
    (hone : xs.Pairwise fun a b => ¬ (p a ∧ p b)) :
    (xs.findIdx? p).elim xs (xs.modify · f) = xs.map fun a => if p a then f a else a := by
  induction xs with
  | nil => rfl
  | cons a xs ih =>
    obtain ⟨hfirst, hrest⟩ := List.pairwise_cons.mp hone
    rw [List.findIdx?_cons, List.map_cons]
    by_cases ha : p a
    · -- no other one does
      have hothers : xs.map (fun a => if p a then f a else a) = xs.map id :=
        List.map_congr_left fun b hb => if_neg fun hp => hfirst b hb ⟨ha, hp⟩
      simp [ha, hothers]
    · rw [if_neg ha, if_neg ha, ← ih hrest]
      cases xs.findIdx? p <;> rfl

/-- One more instruction is read where the log before it has led, if that is taken in. -/
theorem LogReader.fst_feed_append_singleton {σ : Type} [LogReader σ] {s : σ} {log : Log}
    (h : (feed s log).2 = none) (i : Instruction) :
    (feed s (log ++ [i])).1 = (read (feed s log).1 i).1 := by
  induction log generalizing s with
  | nil =>
    show (feed s [i]).1 = (read s i).1
    rw [feed]
    rcases read s i with ⟨s', _ | failure⟩ <;> rfl
  | cons j log ih =>
    obtain ⟨hread, hlog⟩ := feed_cons_eq_none_iff.mp h
    rw [List.cons_append, feed_cons_of_eq_none hread, feed_cons_of_eq_none hread]
    exact ih hlog

theorem ListDiff.key_foldl_follow (d : ListDiff) (log : Log) :
    (log.foldl ListDiff.follow d).key = d.key := by
  induction log generalizing d with
  | nil => rfl
  | cons i log ih => exact (ih _).trans (d.key_follow i)

/-- A guard goes by the same number. -/
theorem SchemaGuard.currentTable_read {g : SchemaGuard} {s : Selection}
    (h : g.currentTable = s.table) (i : Instruction) :
    (g.read i).1.currentTable = (s.follow i).table := by
  cases i with
  | selectTable table => rfl
  | _ => exact h

theorem Selection.list_follow (s : Selection) {i : Instruction}
    (h : ∀ col row, i ≠ .selectLinkList col row) : (s.follow i).list = s.list := by
  cases i with
  | selectLinkList col row => exact absurd rfl (h col row)
  | _ => rfl

namespace ChangeRecorder

variable {r r' : ChangeRecorder} {s : Selection} {i : Instruction} {log : Log}

/-- The lists that a recorder observes. -/
def keys (r : ChangeRecorder) : List ListKey := r.changes.lists.map (·.key)

theorem findIdx?_keys (r : ChangeRecorder) (key : ListKey) :
    r.keys.findIdx? (· == key) = r.changes.lists.findIdx? (·.key == key) := List.findIdx?_map

/-- A recorder has the table selected that is, and of the lists it observes the one that is. -/
structure Selects (r : ChangeRecorder) (s : Selection) : Prop where
  table : r.guard.currentTable = s.table
  list : r.activeList = s.list.bind fun key => r.keys.findIdx? (· == key)

/-- What is done to the selected list is done to the diff of that list, if it is observed. -/
theorem lists_onActiveList (hselects : r.Selects s) (hdistinct : r.keys.Nodup)
    (f : ListDiff → ListDiff) : (r.onActiveList f).changes.lists =
      r.changes.lists.map fun d => if s.list = some d.key then f d else d := by
  rw [onActiveList_eq, hselects.list]
  cases s.list with
  | none => simp
  | some key =>
    rw [Option.bind_some, findIdx?_keys, modify_findIdx? f]
    · refine List.map_congr_left fun d _ => ?_
      simp only [beq_iff_eq, Option.some_inj, eq_comm (a := key)]
    · refine (List.pairwise_map.mp hdistinct).imp fun {d d'} hne hboth => hne ?_
      exact (eq_of_beq hboth.1).trans (eq_of_beq hboth.2).symm

/-- Of `r`, where `s` is selected, a recorder has made `r'` along a log. -/
structure Recorded (r : ChangeRecorder) (s : Selection) (log : Log) (r' : ChangeRecorder) :
    Prop where
  selects : r'.Selects (s.after log)
  rowDiff : ∀ t, r'.changes.rowDiff t = (r.changes.rowDiff t).recordAll (log.rowWork s t)
  room : ∀ t, t < r.changes.tables.length ∨ log.rowWork s t ≠ [] → t < r'.changes.tables.length
  lists : r'.changes.lists =
    r.changes.lists.map fun d => (log.listWork s d.key).foldl ListDiff.follow d

namespace Recorded

theorem nil (hselects : r.Selects s) : r.Recorded s [] r where
  selects := hselects
  rowDiff _ := rfl
  room _ h := h.resolve_right (absurd rfl)
  lists := by simp [Log.listWork, Log.under]

/-- What edits neither rows nor a list leaves the changes as they are. -/
theorem of_changes_eq (hrow : i.rowChange? = none) (hlist : i.editsList = false)
    (hchanges : r'.changes = r.changes) (hselects : r'.Selects (s.follow i)) :
    r.Recorded s [i] r' where
  selects := hselects
  rowDiff t := by simp [Log.rowWork_singleton, hrow, hchanges, RowDiff.recordAll]
  room t := by simp [Log.rowWork_singleton, hrow, hchanges]
  lists := by simp [Log.listWork_singleton, hlist, hchanges]

theorem onCurrentTable {e : RowEdit} (hselects : r.Selects s) (hrow : i.rowChange? = some e) :
    r.Recorded s [i] (r.onCurrentTable (·.record e)) := by
  obtain ⟨hlist, hfollow⟩ := Instruction.of_rowChange? hrow
  have hafter : s.after [i] = s := hfollow s
  have htables : (r.onCurrentTable (·.record e)).changes.tables.length =
      (Changes.makeRoom r.changes.tables s.table).length := by
    rw [← hselects.table]
    exact List.length_modify ..
  refine ⟨hafter.symm ▸ ⟨hselects.table, hselects.list⟩, fun t => ?_, fun t ht => ?_, ?_⟩
  · rw [Log.rowWork_singleton, hrow, ← hselects.table]
    refine (r.changes.rowDiff_onTable _ t _).trans ?_
    split <;> rfl
  · rw [htables]
    rcases ht with hroom | hwork
    · exact Nat.lt_of_lt_of_le hroom (Changes.length_le_length_makeRoom _ _)
    · -- the share is not empty, so it is the selected table
      have ht : s.table = t := by
        by_contra hne
        exact hwork (by rw [Log.rowWork_singleton, if_neg hne])
      exact ht ▸ Changes.lt_length_makeRoom _ _
  · simp [Log.listWork_singleton, hlist, ChangeRecorder.onCurrentTable, Changes.onTable]

theorem onActiveList (hselects : r.Selects s) (hdistinct : r.keys.Nodup) (hlist : i.editsList) :
    r.Recorded s [i] (r.onActiveList (·.follow i)) := by
  obtain ⟨hrow, hfollow⟩ := Instruction.of_editsList hlist
  have hafter : s.after [i] = s := hfollow s
  have hlists := lists_onActiveList hselects hdistinct (·.follow i)
  have htables : (r.onActiveList (·.follow i)).changes.tables = r.changes.tables := by
    rw [onActiveList_eq]
  refine ⟨hafter.symm ▸ ⟨?_, ?_⟩, fun t => ?_, fun t ht => ?_, ?_⟩
  · rw [onActiveList_eq]
    exact hselects.table
  · have hkeys : (r.onActiveList (·.follow i)).keys = r.keys := by
      unfold keys
      rw [hlists, List.map_map]
      refine List.map_congr_left fun d _ => ?_
      dsimp only [Function.comp]
      split
      · exact d.key_follow i
      · rfl
    have hactive : (r.onActiveList (·.follow i)).activeList = r.activeList := by
      rw [onActiveList_eq]
    rw [hkeys, hactive, hselects.list]
  · simp [Log.rowWork_singleton, hrow, RowDiff.recordAll, Changes.rowDiff, Changes.table?, htables]
  · rw [htables]
    exact ht.resolve_right (by simp [Log.rowWork_singleton, hrow])
  · rw [hlists]
    refine List.map_congr_left fun d _ => ?_
    rw [Log.listWork_singleton]
    by_cases hd : s.list = some d.key
    · simp [hd, hlist]
    · simp [hd]

/-- What a recorder makes of an instruction that it takes in. -/
theorem read (hselects : r.Selects s) (hdistinct : r.keys.Nodup) (hread : (r.read i).2 = none) :
    r.Recorded s [i] (r.read i).1 := by
  have houtcome := r.readOutcome i
  generalize r.read i = out at hread houtcome ⊢
  cases houtcome with
  | unsupported | unrecordable => cases hread
  | row hguard hrow => exact .onCurrentTable hselects hrow
  | list hguard hlist => exact .onActiveList hselects hdistinct hlist
  | selectList col row =>
    refine .of_changes_eq rfl rfl rfl ⟨hselects.table, ?_⟩
    show r.changes.lists.findIdx? (·.key == ⟨r.guard.currentTable, row, col⟩) = _
    rw [hselects.table]
    exact (r.findIdx?_keys _).symm
  | silent hguard hrow hlist hselect =>
    have htable := SchemaGuard.currentTable_read hselects.table i
    rw [hguard] at htable
    exact .of_changes_eq hrow hlist rfl ⟨htable, Selection.list_follow s hselect ▸ hselects.list⟩

theorem append {a b : Log} {r₁ : ChangeRecorder} (h : r.Recorded s a r₁)
    (h' : r₁.Recorded (s.after a) b r') : r.Recorded s (a ++ b) r' where
  selects := s.after_append a b ▸ h'.selects
  rowDiff t := by
    rw [h'.rowDiff, h.rowDiff, Log.rowWork_append]
    exact List.foldl_append.symm
  room t ht := by
    rw [Log.rowWork_append] at ht
    refine h'.room t ?_
    by_cases hwork : b.rowWork (s.after a) t = []
    · exact .inl (h.room t (ht.imp_right fun hne => by simpa [hwork] using hne))
    · exact .inr hwork
  lists := by
    rw [h'.lists, h.lists, List.map_map]
    refine List.map_congr_left fun d _ => ?_
    dsimp only [Function.comp]
    rw [ListDiff.key_foldl_follow, Log.listWork_append, List.foldl_append]

theorem keys (h : r.Recorded s log r') : r'.keys = r.keys := by
  unfold ChangeRecorder.keys
  rw [h.lists, List.map_map]
  exact List.map_congr_left fun d _ => d.key_foldl_follow _

/-- What a recorder makes of a log that it takes in. -/
theorem feed (hselects : r.Selects s) (hdistinct : r.keys.Nodup)
    (hfeed : (LogReader.feed r log).2 = none) : r.Recorded s log (LogReader.feed r log).1 := by
  induction log generalizing r s with
  | nil => exact .nil hselects
  | cons i log ih =>
    obtain ⟨hread, hrest⟩ := LogReader.feed_cons_eq_none_iff.mp hfeed
    have hone : r.Recorded s [i] (r.read i).1 := .read hselects hdistinct hread
    have hlog := ih hone.selects (hone.keys ▸ hdistinct) hrest
    rw [LogReader.feed_cons_of_eq_none hread]
    exact hone.append hlog

end Recorded

/-- An edit of a list that is not observed changes nothing. -/
theorem changes_read_of_unobserved (hselects : r.Selects s) (hlist : i.editsList)
    (hnone : ∀ key ∈ r.keys, s.list ≠ some key) : (r.read i).1.changes = r.changes := by
  have hactive : r.activeList = none := by
    rw [hselects.list, Option.bind_eq_none_iff]
    intro key hkey
    rw [List.findIdx?_eq_none_iff]
    intro other hother
    exact beq_eq_false_iff_ne.mpr fun heq => hnone other hother (heq ▸ hkey)
  have houtcome := r.readOutcome i
  generalize r.read i = out at houtcome ⊢
  cases houtcome with
  | unsupported | unrecordable => rfl
  | row hguard hrow => cases hrow.symm.trans (Instruction.of_editsList hlist).1
  | list => rw [onActiveList_eq, hactive]; rfl
  | selectList | silent => rfl

/-! ## What the observed lists do not matter to -/

/-- Two recorders have recorded the same of all rows. -/
structure SameRows (r r' : ChangeRecorder) : Prop where
  guard : r.guard = r'.guard
  tables : r.changes.tables = r'.changes.tables

theorem tables_read (hread : (r.read i).2 = none) : (r.read i).1.changes.tables =
    i.rowChange?.elim r.changes.tables fun e =>
      (Changes.makeRoom r.changes.tables r.guard.currentTable).modify r.guard.currentTable
        (·.record e) := by
  have houtcome := r.readOutcome i
  generalize r.read i = out at hread houtcome ⊢
  cases houtcome with
  | unsupported | unrecordable => cases hread
  | row hguard hrow => rw [hrow]; rfl
  | list hguard hlist => rw [(Instruction.of_editsList hlist).1, onActiveList_eq]; rfl
  | selectList => rfl
  | silent hguard hrow => rw [hrow]; rfl

namespace SameRows

/-- They refuse the same instructions, and record the same of the others. -/
theorem read (h : r.SameRows r') (i : Instruction) :
    (r.read i).2 = (r'.read i).2 ∧ (r.read i).1.SameRows (r'.read i).1 := by
  have hrefusal : (r.read i).2 = (r'.read i).2 :=
    Option.ext fun failure => by rw [read_eq_some_iff, read_eq_some_iff, h.guard]
  refine ⟨hrefusal, ?_⟩
  by_cases hread : (r.read i).2 = none
  · refine ⟨by rw [guard_read, guard_read, h.guard], ?_⟩
    rw [tables_read hread, tables_read (hrefusal ▸ hread), h.guard, h.tables]
  · rw [read_of_refused hread, read_of_refused (hrefusal ▸ hread)]
    exact h

theorem feed (h : r.SameRows r') (log : Log) :
    (LogReader.feed r log).2 = (LogReader.feed r' log).2 ∧
      (LogReader.feed r log).1.SameRows (LogReader.feed r' log).1 := by
  induction log generalizing r r' with
  | nil => exact ⟨rfl, h⟩
  | cons i log ih =>
    have hstep : (LogReader.read r i).2 = (LogReader.read r' i).2 ∧
      (LogReader.read r i).1.SameRows (LogReader.read r' i).1 := h.read i
    rw [LogReader.feed, LogReader.feed]
    generalize LogReader.read r i = out at hstep ⊢
    generalize LogReader.read r' i = out' at hstep ⊢
    obtain ⟨r₁, refusal⟩ := out
    obtain ⟨r₁', refusal'⟩ := out'
    obtain ⟨rfl : refusal = refusal', hsame⟩ := hstep
    cases refusal with
    | none => exact ih hsame
    | some failure => exact ⟨rfl, hsame⟩

end SameRows

/-! ## The start of a log -/

theorem selects_observing (keys : List ListKey) : (observing keys).Selects .initial := ⟨rfl, rfl⟩

/-- Every key is observed once, however often it is asked for. -/
theorem lists_observing (keys : List ListKey) : ∃ distinct : List ListKey,
    (observing keys).changes.lists = distinct.map .fresh ∧ distinct.Nodup ∧
      ∀ key, key ∈ distinct ↔ key ∈ keys := by
  -- from behind, for what is done with a key depends on those before it
  induction keys using List.reverseRecOn with
  | nil => exact ⟨[], rfl, .nil, fun key => Iff.rfl⟩
  | append_singleton keys k ih =>
    obtain ⟨distinct, hlists, hnodup, hmem⟩ := ih
    have hany : (distinct.map ListDiff.fresh).any (·.key == k) = decide (k ∈ distinct) := by
      rw [List.any_map, Bool.eq_iff_iff]
      simp [ListDiff.fresh]
    have hstep : (observing (keys ++ [k])).changes.lists =
        if k ∈ distinct then distinct.map .fresh else (distinct ++ [k]).map .fresh := by
      unfold observing Changes.observing at hlists ⊢
      dsimp only at hlists ⊢
      rw [List.foldl_append, hlists, List.foldl_cons, List.foldl_nil, hany, List.map_append]
      simp
    by_cases hk : k ∈ distinct
    · refine ⟨distinct, hstep.trans (if_pos hk), hnodup, fun key => ?_⟩
      rw [hmem, List.mem_append, List.mem_singleton]
      exact ⟨.inl, fun h => h.elim id fun heq => heq ▸ (hmem k).mp hk⟩
    · refine ⟨distinct ++ [k], hstep.trans (if_neg hk), ?_, fun key => ?_⟩
      · exact List.nodup_append_comm.mp (List.nodup_cons.mpr ⟨hk, hnodup⟩)
      · rw [List.mem_append, List.mem_append, hmem]

end ChangeRecorder

namespace Changes

variable {c : Changes} {t : Nat}

theorem table?_of_rowDiff_eq_empty (h : c.rowDiff t = .empty) :
    c.table? t = none ∨ c.table? t = some .empty := by
  unfold rowDiff at h
  cases htable : c.table? t with
  | none => exact .inl rfl
  | some d =>
    rw [htable] at h
    exact .inr (congrArg some h)

theorem table?_of_lt (h : t < c.tables.length) : c.table? t = some (c.rowDiff t) := by
  unfold rowDiff table?
  rw [List.getElem?_eq_getElem h]
  rfl

/-- One diff is found under every key, if there is one for each of some keys. -/
theorem list?_of_lists_eq {distinct : List ListKey} {f : ListKey → ListDiff}
    (hkeys : ∀ key, (f key).key = key) (h : c.lists = distinct.map f) (key : ListKey) :
    c.list? key = if key ∈ distinct then some (f key) else none := by
  unfold list?
  rw [h]
  clear h
  induction distinct with
  | nil => rfl
  | cons k distinct ih =>
    by_cases hk : k = key
    · simp [hk, hkeys]
    · rw [List.map_cons, List.find?_cons_of_neg (by simpa [hkeys] using hk), ih]
      simp [Ne.symm hk]

end Changes

namespace ChangeRecorder

variable {i : Instruction} {log : Log}
variable {keys : List ListKey}

theorem mem_keys_observing {key : ListKey} : key ∈ (observing keys).keys ↔ key ∈ keys := by
  obtain ⟨distinct, hlists, -, hmem⟩ := lists_observing keys
  have hkeys : distinct.map ((·.key) ∘ ListDiff.fresh) = distinct := List.map_id distinct
  unfold ChangeRecorder.keys
  rw [hlists, List.map_map, hkeys, hmem]

/-- What a recorder makes of a log that it takes in from the start. -/
theorem recorded_replay (h : (LogReader.replay (observing keys) log).2 = none) :
    (observing keys).Recorded .initial log (LogReader.replay (observing keys) log).1 := by
  obtain ⟨distinct, hlists, hnodup, -⟩ := lists_observing keys
  have hkeys : distinct.map ((·.key) ∘ ListDiff.fresh) = distinct := List.map_id distinct
  rw [replay_eq_feed] at h ⊢
  refine .feed (selects_observing keys) ?_ h
  unfold ChangeRecorder.keys
  rw [hlists, List.map_map, hkeys]
  exact hnodup

/-- The diff of a table is what its share makes of an empty one. -/
theorem rowDiff_replay (h : (LogReader.replay (observing keys) log).2 = none) (t : Nat) :
    (LogReader.replay (observing keys) log).1.changes.rowDiff t =
      RowDiff.empty.recordAll (log.rowWork .initial t) := (recorded_replay h).rowDiff t

theorem lists_replay (h : (LogReader.replay (observing keys) log).2 = none) :
    ∃ distinct : List ListKey, distinct.Nodup ∧ (∀ key, key ∈ distinct ↔ key ∈ keys) ∧
      (LogReader.replay (observing keys) log).1.changes.lists = distinct.map fun key =>
        (log.listWork .initial key).foldl ListDiff.follow (.fresh key) := by
  obtain ⟨distinct, hlists, hnodup, hmem⟩ := lists_observing keys
  refine ⟨distinct, hnodup, hmem, ?_⟩
  rw [(recorded_replay h).lists, hlists, List.map_map]
  rfl

/-- The diff of an observed list is what its share makes of a fresh one. -/
theorem list?_replay (h : (LogReader.replay (observing keys) log).2 = none) {key : ListKey}
    (hkey : key ∈ keys) : (LogReader.replay (observing keys) log).1.changes.list? key =
      some ((log.listWork .initial key).foldl ListDiff.follow (.fresh key)) := by
  obtain ⟨distinct, -, hmem, hlists⟩ := lists_replay h
  rw [Changes.list?_of_lists_eq (fun key => ListDiff.key_foldl_follow _ _) hlists,
    if_pos ((hmem key).mpr hkey)]

/-- An edit of a list that is not observed changes nothing at any point of a log. -/
theorem changes_replay_of_unobserved {before rest : Log}
    (h : (LogReader.replay (observing keys) (before ++ rest)).2 = none) (hlist : i.editsList)
    (hnone : ∀ key ∈ keys, (Selection.initial.after before).list ≠ some key) :
    (LogReader.replay (observing keys) (before ++ [i])).1.changes =
      (LogReader.replay (observing keys) before).1.changes := by
  have hbefore : (LogReader.replay (observing keys) before).2 = none := by
    rw [replay_eq_feed] at h ⊢
    exact (LogReader.feed_append_eq_none_iff.mp h).1
  have hrecorded := recorded_replay hbefore
  rw [replay_eq_feed] at hbefore hrecorded
  rw [replay_eq_feed, replay_eq_feed, LogReader.fst_feed_append_singleton hbefore]
  exact changes_read_of_unobserved hrecorded.selects hlist fun key hkey =>
    hnone key (mem_keys_observing.mp (hrecorded.keys ▸ hkey))

end ChangeRecorder

/-- **The changes of a log fall into tables and lists.** A table that the log writes to or erases
rows from has the diff that these writes and erases, in their order, make of an empty one, and any
other table has none or an empty one. Every list that is observed has one diff, which is what the
edits made while it was selected make of a fresh one; an edit of a list that is not observed changes
nothing. So another log that is taken in leaves the same diff for every table and every list whose
share is the same, in whatever order it comes to them and whatever else is observed; and to observe
other lists matters neither to what is taken in nor to the tables. -/
theorem changes_by_share {keys : List ListKey} {log : Log}
    (haccept : (LogReader.replay (ChangeRecorder.observing keys) log).2 = none) :
    let replayed := fun (keys : List ListKey) (log : Log) =>
      LogReader.replay (ChangeRecorder.observing keys) log
    let c := (replayed keys log).1.changes
    (∀ t, log.rowWork .initial t ≠ [] →
      c.table? t = some (RowDiff.empty.recordAll (log.rowWork .initial t))) ∧
      (∀ t, log.rowWork .initial t = [] → c.table? t = none ∨ c.table? t = some .empty) ∧
      (∀ key ∈ keys,
        c.list? key = some ((log.listWork .initial key).foldl ListDiff.follow (.fresh key))) ∧
      (c.lists.map (·.key)).Nodup ∧ (∀ d ∈ c.lists, d.key ∈ keys) ∧
      (∀ before i rest, log = before ++ i :: rest → i.editsList →
        (∀ key ∈ keys, (Selection.initial.after before).list ≠ some key) →
        (replayed keys (before ++ [i])).1.changes = (replayed keys before).1.changes) ∧
      (∀ keys' log', (replayed keys' log').2 = none →
        (∀ t, log'.rowWork .initial t = log.rowWork .initial t →
          (replayed keys' log').1.changes.rowDiff t = c.rowDiff t) ∧
        ∀ key ∈ keys, key ∈ keys' →
          log'.listWork .initial key = log.listWork .initial key →
          (replayed keys' log').1.changes.list? key = c.list? key) ∧
      ∀ keys', (replayed keys' log).2 = none ∧
        (replayed keys' log).1.changes.tables = c.tables := by
  intro replayed c
  obtain ⟨distinct, hnodup, hmem, hlists⟩ := ChangeRecorder.lists_replay haccept
  have hkeys : c.lists.map (·.key) = distinct := by
    rw [hlists, List.map_map]
    refine (List.map_congr_left fun key _ => ?_).trans (List.map_id distinct)
    exact ListDiff.key_foldl_follow _ _
  refine ⟨fun t hwork => ?_, fun t hwork => ?_,
    fun key hkey => ChangeRecorder.list?_replay haccept hkey, hkeys ▸ hnodup, fun d hd => ?_, ?_,
    fun keys' log' haccept' => ⟨fun t hwork => ?_, fun key hkey hkey' hwork => ?_⟩, fun keys' => ?_⟩
  · rw [Changes.table?_of_lt ((ChangeRecorder.recorded_replay haccept).room t (.inr hwork)),
      ChangeRecorder.rowDiff_replay haccept]
  · apply Changes.table?_of_rowDiff_eq_empty
    rw [ChangeRecorder.rowDiff_replay haccept, hwork]
    rfl
  · apply (hmem d.key).mp
    rw [← hkeys]
    exact List.mem_map_of_mem hd
  · rintro before i rest rfl hlist hnone
    exact ChangeRecorder.changes_replay_of_unobserved haccept hlist hnone
  · rw [ChangeRecorder.rowDiff_replay haccept', ChangeRecorder.rowDiff_replay haccept, hwork]
  · rw [ChangeRecorder.list?_replay haccept' hkey', ChangeRecorder.list?_replay haccept hkey, hwork]
  · have hsame : (ChangeRecorder.observing keys').SameRows (.observing keys) := ⟨rfl, rfl⟩
    obtain ⟨hrefusal, hrows⟩ := hsame.feed log
    rw [← ChangeRecorder.replay_eq_feed, ← ChangeRecorder.replay_eq_feed] at hrefusal hrows
    exact ⟨hrefusal.trans haccept, hrows.tables⟩

/-- One list of table 0 is observed, which is asked for twice. One log goes to table 1 between the two
edits of that list, and selects and clears a list that is not observed; the other one does all that
is to be done in table 0 last. They leave the same diffs. -/
theorem changes_by_share_interleaved :
    let key : ListKey := ⟨0, 1, 2⟩
    let other : ListKey := ⟨1, 1, 2⟩
    let log : Log := [.set 0 3 .null, .selectLinkList 2 1, .listInsert 0 5, .selectTable 1,
      .eraseRows 0 1 3 true, .listSet 2 4, .selectLinkList 2 1, .listClear 4]
    let log' : Log := [.selectTable 1, .eraseRows 0 1 3 true, .selectTable 0, .selectLinkList 2 1,
      .listInsert 0 5, .listSet 2 4, .set 0 3 .null]
    let replayed := fun (keys : List ListKey) (log : Log) =>
      LogReader.replay (ChangeRecorder.observing keys) log
    let c := (replayed [key, key] log).1.changes
    let c' := (replayed [other, key] log').1.changes
    (replayed [key, key] log).2 = none ∧ (replayed [other, key] log').2 = none ∧
      c.table? 1 = some (RowDiff.empty.recordAll [.erase 0 3]) ∧
      c.list? key = some (((ListDiff.fresh key).insert 0).set 2) ∧
      c'.rowDiff 0 = c.rowDiff 0 ∧ c'.list? key = c.list? key := by
  intro key other log log' replayed c c'
  have haccept : (replayed [key, key] log).2 = none := by decide
  have haccept' : (replayed [other, key] log').2 = none := by decide
  obtain ⟨htables, -, hlists, -, -, -, hother, -⟩ := changes_by_share haccept
  obtain ⟨htables', hlists'⟩ := hother [other, key] log' haccept'
  exact ⟨haccept, haccept', htables 1 (by decide), hlists key List.mem_cons_self,
    htables' 0 (by decide), hlists' key List.mem_cons_self (by decide) (by decide)⟩

end SnapshotCoordination
