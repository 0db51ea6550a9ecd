import SnapshotCoordination.Proofs.Paths.Resolving

/-!
# The spellings of a path

`key` is a canonical form: what it writes is read back as what it resolved. This module goes from
the components of a path to its text and back, and states what the key of any text is:

* **cutting and joining** — `splitSlashes_append_slash`, `splitSlashes_join`: a text is cut at each
  of its slashes, so what is joined can be cut again, and two texts with a slash between them
  have the components of both (`components_append_slash`);
* **reading back** — `resolve_render`: the written form of a resolved text resolves to the same;
* **the key** — `key_canonical`.
-/

namespace SnapshotCoordination

namespace FilePath

variable {a b text : List Char} {w : Component} {ws : List Component}

/-! ## Cutting and joining -/

theorem splitSlashes_ne_nil (text : List Char) : splitSlashes text ≠ [] := by
  cases text with
  | nil => exact List.cons_ne_nil _ _
  | cons c cs =>
    rw [splitSlashes]
    split
    · exact List.cons_ne_nil _ _
    · split <;> exact List.cons_ne_nil _ _

theorem splitSlashes_append_slash (a b : List Char) :
    splitSlashes (a ++ '/' :: b) = splitSlashes a ++ splitSlashes b := by
  induction a with
  | nil => rfl
  | cons c cs ih =>
    rw [List.cons_append, splitSlashes, splitSlashes, ih]
    split
    · rfl
    · cases hcs : splitSlashes cs with
      | nil => exact absurd hcs (splitSlashes_ne_nil cs)
      | cons w ws => rfl

theorem slash_notMem (h : w ∈ splitSlashes text) : '/' ∉ w := by
  induction text generalizing w with
  | nil =>
    obtain rfl := List.mem_singleton.mp h
    exact List.not_mem_nil
  | cons c cs ih =>
    rw [splitSlashes] at h
    split at h
    · rcases List.mem_cons.mp h with rfl | h
      · exact List.not_mem_nil
      · exact ih h
    · next hc =>
      cases hcs : splitSlashes cs with
      | nil => exact absurd hcs (splitSlashes_ne_nil cs)
      | cons v vs =>
        rw [hcs] at h ih
        rcases List.mem_cons.mp h with rfl | h
        · rw [List.mem_cons, not_or]
          exact ⟨fun heq => hc heq.symm, ih List.mem_cons_self⟩
        · exact ih (List.mem_cons_of_mem v h)

theorem splitSlashes_of_notMem (h : '/' ∉ text) : splitSlashes text = [text] := by
  induction text with
  | nil => rfl
  | cons c cs ih =>
    rw [List.mem_cons, not_or] at h
    rw [splitSlashes, if_neg (Ne.symm h.1), ih h.2]

theorem join_cons_cons (v w : Component) (ws : List Component) :
    join (v :: w :: ws) = v ++ '/' :: join (w :: ws) := rfl

/-- What is joined is cut into the same components again. -/
theorem splitSlashes_join (hne : ws ≠ []) (h : ∀ w ∈ ws, '/' ∉ w) :
    splitSlashes (join ws) = ws := by
  induction ws with
  | nil => exact absurd rfl hne
  | cons v ws ih =>
    have hv := splitSlashes_of_notMem (h v List.mem_cons_self)
    cases ws with
    | nil => exact hv
    | cons w ws =>
      rw [join_cons_cons, splitSlashes_append_slash, hv,
        ih (List.cons_ne_nil w ws) fun u hu => h u (List.mem_cons_of_mem v hu),
        List.singleton_append]

/-! ## The components that matter -/

/-- A component as `components` yields it. -/
structure Matters (w : Component) : Prop where
  ne_nil : w ≠ []
  ne_here : w ≠ here
  slash_notMem : '/' ∉ w

theorem matters_up : Matters up := by
  constructor <;> decide

theorem matters_of_mem_components (h : w ∈ components text) : Matters w := by
  obtain ⟨hmem, hw⟩ := List.mem_filter.mp h
  have hw := of_decide_eq_true hw
  exact ⟨hw.1, hw.2, slash_notMem hmem⟩

theorem components_append_slash (a b : List Char) :
    components (a ++ '/' :: b) = components a ++ components b := by
  rw [components, splitSlashes_append_slash, List.filter_append]
  rfl

theorem components_eq_singleton (h : Matters w) : components w = [w] := by
  rw [components, splitSlashes_of_notMem h.slash_notMem]
  exact List.filter_eq_self.mpr fun x hx => by
    rw [List.mem_singleton.mp hx]
    exact decide_eq_true ⟨h.ne_nil, h.ne_here⟩

theorem components_join (h : ∀ w ∈ ws, Matters w) : components (join ws) = ws := by
  cases ws with
  | nil => rfl
  | cons w ws =>
    rw [components, splitSlashes_join (List.cons_ne_nil w ws) fun u hu => (h u hu).slash_notMem]
    exact List.filter_eq_self.mpr fun u hu => decide_eq_true ⟨(h u hu).ne_nil, (h u hu).ne_here⟩

theorem isAbsolute_append_slash (a b : List Char) :
    isAbsolute (a ++ '/' :: b) = (a.isEmpty || isAbsolute a) := by
  cases a <;> rfl

/-- A text with a component that matters in front is relative. -/
theorem isAbsolute_join (h : ∀ w ∈ ws, Matters w) : isAbsolute (join ws) = false := by
  have hfirst : ∀ w : Component, ∀ t, Matters w → isAbsolute (w ++ t) = false := fun w t hw => by
    cases w with
    | nil => exact absurd rfl hw.ne_nil
    | cons c cs =>
      have hc : c ≠ '/' := fun heq => hw.slash_notMem (heq ▸ List.mem_cons_self)
      simpa [isAbsolute] using hc
  cases ws with
  | nil => rfl
  | cons v ws =>
    have hv := h v List.mem_cons_self
    cases ws with
    | nil =>
      rw [← List.append_nil (join [v])]
      exact hfirst v [] hv
    | cons w ws => exact hfirst v _ hv

/-! ## Reading back -/

theorem resolve_absolute (text : List Char) : (resolve text).absolute = isAbsolute text := rfl

theorem settled_resolve (text : List Char) :
    Settled (isAbsolute text) (resolve text).trail := settled_nil.foldl

theorem matters_of_mem_resolve (h : w ∈ (resolve text).trail) : Matters w := by
  rcases mem_foldl_push h with hmem | hnil
  · exact matters_of_mem_components hmem
  · exact absurd hnil List.not_mem_nil

theorem matters_of_mem_resolve_reverse {text : List Char} :
    ∀ w ∈ (resolve text).trail.reverse, Matters w :=
  fun _ hw => matters_of_mem_resolve (List.mem_reverse.mp hw)

theorem isAbsolute_render (text : List Char) :
    isAbsolute (resolve text).render = isAbsolute text := by
  unfold Resolved.render
  split
  · next habs => exact habs.symm
  · next habs =>
    rw [isAbsolute_join matters_of_mem_resolve_reverse]
    exact (Bool.not_eq_true _ ▸ habs : isAbsolute text = false).symm

theorem components_render (text : List Char) :
    components (resolve text).render = (resolve text).trail.reverse := by
  unfold Resolved.render
  split
  · exact (components_append_slash [] _).trans (components_join matters_of_mem_resolve_reverse)
  · exact components_join matters_of_mem_resolve_reverse

/-- The written form of a resolved text resolves to the same. -/
theorem resolve_render (text : List Char) : resolve (resolve text).render = resolve text := by
  have hsettled : Settled (isAbsolute text) ((resolve text).trail.reverse.reverse ++ []) := by
    rw [List.reverse_reverse, List.append_nil]
    exact settled_resolve text
  have htrail := hsettled.foldl_push
  rw [List.reverse_reverse, List.append_nil] at htrail
  have : resolve (resolve text).render = ⟨isAbsolute (resolve text).render,
      (components (resolve text).render).foldl (push (isAbsolute (resolve text).render)) []⟩ := rfl
  rw [this, isAbsolute_render, components_render, htrail]
  rfl

theorem keyChars_eq_render (h : ¬ (resolve text).isNothing = true) :
    keyChars text = (resolve text).render := if_neg h

theorem keyChars_keyChars (text : List Char) : keyChars (keyChars text) = keyChars text := by
  by_cases h : (resolve text).isNothing = true
  · have hself : keyChars text = text := if_pos h
    rw [hself, hself]
  · rw [keyChars_eq_render h, keyChars_eq_render (by rwa [resolve_render]), resolve_render]

theorem keyChars_inj (ha : ¬ (resolve a).isNothing = true) (hb : ¬ (resolve b).isNothing = true) :
    keyChars a = keyChars b ↔ resolve a = resolve b := by
  rw [keyChars_eq_render ha, keyChars_eq_render hb]
  constructor
  · intro heq
    rw [← resolve_render a, heq, resolve_render]
  · exact congrArg Resolved.render

/-! ## The pieces of a written path -/

/-- A piece of what was joined is a component, or all there is of nothing. -/
theorem mem_splitSlashes_join (h : ∀ w ∈ ws, Matters w) (hw : w ∈ splitSlashes (join ws)) :
    w = [] ∨ w ∈ ws := by
  by_cases hne : ws = []
  · subst hne
    exact .inl (List.mem_singleton.mp hw)
  · rw [splitSlashes_join hne fun u hu => (h u hu).slash_notMem] at hw
    exact .inr hw

/-- No piece is a `.`, -/
theorem here_notMem_render (text : List Char) : here ∉ splitSlashes (resolve text).render := by
  have hjoin : here ∉ splitSlashes (join (resolve text).trail.reverse) := fun hmem => by
    rcases mem_splitSlashes_join matters_of_mem_resolve_reverse hmem with hnil | htrail
    · exact absurd hnil (by decide)
    · exact (matters_of_mem_resolve_reverse here htrail).ne_here rfl
  unfold Resolved.render
  split
  · rw [← List.nil_append ('/' :: _), splitSlashes_append_slash, List.mem_append, not_or]
    exact ⟨by decide, hjoin⟩
  · exact hjoin

/-- no piece is a `..` where the path starts at the root, -/
theorem up_notMem_render (h : isAbsolute text = true) :
    up ∉ splitSlashes (resolve text).render := by
  rw [Resolved.render, resolve_absolute, if_pos h, ← List.nil_append ('/' :: _),
    splitSlashes_append_slash, List.mem_append, not_or]
  refine ⟨by decide, fun hmem => ?_⟩
  rcases mem_splitSlashes_join matters_of_mem_resolve_reverse hmem with hnil | htrail
  · exact absurd hnil (by decide)
  · exact (settled_resolve text).grounded h (List.mem_reverse.mp htrail)

/-- and where it does not, only the first pieces are. -/
theorem splitSlashes_render (h : isAbsolute text = false)
    (hsome : ¬ (resolve text).isNothing = true) :
    ∃ n rest, splitSlashes (resolve text).render = List.replicate n up ++ rest ∧ up ∉ rest := by
  have hne : (resolve text).trail.reverse ≠ [] := fun hnil => hsome <| by
    rw [Resolved.isNothing, resolve_absolute, h, List.reverse_eq_nil_iff.mp hnil]
    rfl
  rw [Resolved.render, resolve_absolute, h, if_neg Bool.false_ne_true,
    splitSlashes_join hne fun w hw => (matters_of_mem_resolve_reverse w hw).slash_notMem]
  exact (settled_resolve text).exists_replicate

/-! ## Detours -/

/-- A text that leads nowhere between two components of a path, or behind the last one: nothing
at all, a `.`, or an ordinary component and back. -/
inductive Idle : String → Prop
  | nothing : Idle ""
  | here : Idle "."
  | andBack {w : String} (hmatters : Matters w.toList) (hw : w.toList ≠ up) : Idle (w ++ "/..")

variable {gap : String}

theorem Idle.components (h : Idle gap) : components gap.toList = [] ∨
    ∃ w, w ≠ up ∧ FilePath.components gap.toList = [w, up] := by
  cases h with
  | nothing => exact .inl rfl
  | here => exact .inl rfl
  | @andBack w hmatters hw =>
    refine .inr ⟨w.toList, hw, ?_⟩
    rw [String.toList_append, show "/..".toList = '/' :: up from rfl, components_append_slash,
      components_eq_singleton hmatters, components_eq_singleton matters_up]
    rfl

/-- Idle components in between make no difference to the components that are left. -/
theorem Idle.foldl_push (h : Idle gap) (absolute : Bool) (xs ys : List Component) :
    (xs ++ FilePath.components gap.toList ++ ys).foldl (push absolute) [] =
      (xs ++ ys).foldl (push absolute) [] := by
  rcases h.components with hnone | ⟨w, hw, hpair⟩
  · rw [hnone, List.append_nil]
  · rw [hpair, List.append_assoc]
    exact (Cancels.pair hw).foldl_push

theorem resolve_append_slash (a b : List Char) : resolve (a ++ '/' :: b) =
    ⟨a.isEmpty || isAbsolute a,
      (components a ++ components b).foldl (push (a.isEmpty || isAbsolute a)) []⟩ := by
  rw [resolve, isAbsolute_append_slash, components_append_slash]

theorem resolve_between (h : Idle gap) (a b : List Char) :
    resolve (a ++ '/' :: (gap.toList ++ '/' :: b)) = resolve (a ++ '/' :: b) := by
  rw [resolve_append_slash, resolve_append_slash, components_append_slash, ← List.append_assoc,
    h.foldl_push]

theorem resolve_behind_slash (h : Idle gap) (a : List Char) :
    resolve (a ++ '/' :: gap.toList) = resolve (a ++ ['/']) := by
  have hgap := h.foldl_push (a.isEmpty || isAbsolute a) (FilePath.components a) []
  rw [List.append_nil, List.append_nil] at hgap
  rw [resolve_append_slash, resolve_append_slash, hgap, show components [] = [] from rfl,
    List.append_nil]

theorem resolve_slash (h : a ≠ []) : resolve (a ++ ['/']) = resolve a := by
  rw [resolve_append_slash, show components [] = [] from rfl, List.append_nil,
    List.isEmpty_eq_false_iff.mpr h, Bool.false_or]
  rfl

theorem keyChars_congr (h : resolve b = resolve a) (ha : ¬ (resolve a).isNothing = true) :
    keyChars b = keyChars a := by
  rw [keyChars_eq_render ha, keyChars_eq_render (h ▸ ha), h]

/-! ## The key -/

/-- `rs` is the lexical resolution of a path: what remains of its components when the empty ones
and `.` are dropped and all is cancelled that can be. -/
def Resolution (path : String) (rs : List Component) : Prop :=
  Remains (isAbsolute path.toList) (components path.toList) rs

theorem resolution_iff {path : String} {rs : List Component} :
    Resolution path rs ↔ rs = (resolve path.toList).trail.reverse := remains_iff

/-- The resolution of a path is not the empty relative path. -/
def Leads (path : String) : Prop := isAbsolute path.toList = true ∨ ¬ Resolution path []

theorem leads_iff {path : String} : Leads path ↔ ¬ (resolve path.toList).isNothing = true := by
  rw [Leads, resolution_iff, Resolved.isNothing, resolve_absolute, @eq_comm _ [],
    List.reverse_eq_nil_iff, ← List.isEmpty_iff]
  cases isAbsolute path.toList <;> simp

theorem toList_key (path : String) : (key path).toList = keyChars path.toList :=
  String.toList_ofList

theorem toList_key_of_leads {path : String} (h : Leads path) :
    (key path).toList = (resolve path.toList).render :=
  (toList_key path).trans (keyChars_eq_render (leads_iff.mp h))

theorem key_key (path : String) : key (key path) = key path := by
  rw [key, toList_key, keyChars_keyChars]
  rfl

theorem key_congr {p q : String} (h : resolve q.toList = resolve p.toList) (hp : Leads p) :
    key q = key p := by
  rw [key, keyChars_congr h (leads_iff.mp hp)]
  rfl

theorem key_inj {p q : String} {rs ss : List Component} (hrs : Resolution p rs)
    (hss : Resolution q ss) (hp : Leads p) (hq : Leads q) :
    key p = key q ↔ isAbsolute p.toList = isAbsolute q.toList ∧ rs = ss := by
  rw [resolution_iff.mp hrs, resolution_iff.mp hss, List.reverse_inj]
  have hkeys : key p = key q ↔ keyChars p.toList = keyChars q.toList := by
    rw [← toList_key, ← toList_key, String.toList_inj]
  rw [hkeys, keyChars_inj (leads_iff.mp hp) (leads_iff.mp hq), Resolved.mk.injEq]
  rfl

theorem key_between {a b : String} (hgap : Idle gap) (h : Leads (a ++ "/" ++ b)) :
    key (a ++ "/" ++ gap ++ "/" ++ b) = key (a ++ "/" ++ b) := by
  refine key_congr ?_ h
  simpa using resolve_between hgap a.toList b.toList

theorem key_behind_slash {a : String} (hgap : Idle gap) (h : Leads (a ++ "/")) :
    key (a ++ "/" ++ gap) = key (a ++ "/") := by
  refine key_congr ?_ h
  simpa using resolve_behind_slash hgap a.toList

theorem key_behind {a : String} (hgap : Idle gap) (h : Leads a) :
    key (a ++ "/" ++ gap) = key a := by
  have hne : a.toList ≠ [] := fun hnil => leads_iff.mp h (by rw [hnil]; rfl)
  refine key_congr ?_ h
  rw [← resolve_slash hne, ← resolve_behind_slash hgap]
  simp

/-- **The key is a canonical form of a path.** Taking the key twice is taking it once. Every path
has one lexical resolution, and two that do not resolve to nothing have the same key exactly when
both are absolute or both relative and their resolutions are equal. So a text that leads nowhere
changes no key, between two components or at the end of the path. The key of such a path is
absolute exactly when the path is; no piece of it is a `.`, a `..` is no piece of an absolute one
and only among the first pieces of a relative one. -/
theorem key_canonical :
    (∀ p, key (key p) = key p) ∧
    (∀ p, ∃! rs, Resolution p rs) ∧
    (∀ p q rs ss, Resolution p rs → Resolution q ss → Leads p → Leads q →
      (key p = key q ↔ isAbsolute p.toList = isAbsolute q.toList ∧ rs = ss)) ∧
    (∀ gap, Idle gap → ∀ a b : String,
      (Leads (a ++ "/" ++ b) → key (a ++ "/" ++ gap ++ "/" ++ b) = key (a ++ "/" ++ b)) ∧
      (Leads (a ++ "/") → key (a ++ "/" ++ gap) = key (a ++ "/")) ∧
      (Leads a → key (a ++ "/" ++ gap) = key a)) ∧
    (∀ p, Leads p → isAbsolute p.toList = true →
      isAbsolute (key p).toList = true ∧
      here ∉ splitSlashes (key p).toList ∧ up ∉ splitSlashes (key p).toList) ∧
    (∀ p, Leads p → isAbsolute p.toList = false →
      isAbsolute (key p).toList = false ∧
      here ∉ splitSlashes (key p).toList ∧
      ∃ n rest, splitSlashes (key p).toList = List.replicate n up ++ rest ∧ up ∉ rest) := by
  refine ⟨key_key, fun p => ⟨_, resolution_iff.mpr rfl, fun rs => resolution_iff.mp⟩,
    fun p q rs ss => key_inj, fun gap hgap a b => ⟨key_between hgap, key_behind_slash hgap,
      key_behind hgap⟩, fun p hp habs => ?_, fun p hp hrel => ?_⟩
  · rw [toList_key_of_leads hp, isAbsolute_render]
    exact ⟨habs, here_notMem_render p.toList, up_notMem_render habs⟩
  · rw [toList_key_of_leads hp, isAbsolute_render]
    exact ⟨hrel, here_notMem_render p.toList, splitSlashes_render hrel (leads_iff.mp hp)⟩

/-- A detour and a path that climbs: `tmp` is left again, and the `..` in front stay. -/
theorem key_canonical_detour :
    key ("/data" ++ "/" ++ "tmp/.." ++ "/" ++ "app.db") = key ("/data" ++ "/" ++ "app.db") ∧
    key "../../data/app.db" ≠ key "../data/app.db" := by
  obtain ⟨-, -, hinj, hgap, -⟩ := key_canonical
  constructor
  · refine (hgap "tmp/.." (.andBack (w := "tmp") ?_ (by decide)) "/data" "app.db").1 (.inl rfl)
    constructor <;> decide
  · intro heq
    have hleads : ∀ p, ¬ (resolve p.toList).isNothing = true → Leads p := fun _ => leads_iff.mpr
    have hsame := (hinj _ _ _ _ (resolution_iff.mpr rfl) (resolution_iff.mpr rfl)
      (hleads _ (by decide)) (hleads _ (by decide))).mp heq
    exact absurd hsame.2 (by decide)

end FilePath

end SnapshotCoordination
