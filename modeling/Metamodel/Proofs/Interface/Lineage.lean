import Metamodel.Interface.Lineage
import Metamodel.Proofs.Cycles
import Metamodel.Proofs.Issue.Clean
import Metamodel.Proofs.Steps

/-!
# Interfaces above an interface

Where every interface stands under its qualified name, the search level by level finds exactly the interfaces that can
be reached through super interfaces (`mem_superInterfacesOf_iff`): each level is new and there are only so many names,
so the steps suffice.  The search for cycles comes to every interface, and where it finds nothing, no interface is
cyclic and all super interfaces are defined (`linked_of_clean`).  It takes the interfaces for those that stand under
their qualified names, and so it misses no cycle but those through an interface that does not
(`exists_misplaced_of_cycle`).
-/

namespace Metamodel

/-- What every step does for its element, under an invariant, stays done. -/
theorem forall_foldl {σ α : Type} {step : σ → α → σ} (p : σ → Prop) (q : α → σ → Prop) {as : List α}
    (hstep : ∀ s, ∀ a ∈ as, p s → p (step s a)) (keep : ∀ s, ∀ a ∈ as, ∀ b, p s → q b s → q b (step s a))
    (done : ∀ s, ∀ a ∈ as, p s → q a (step s a)) {s : σ} (hs : p s) : ∀ a ∈ as, q a (as.foldl step s) := by
  intro a ha
  obtain ⟨before, after, rfl⟩ := List.append_of_mem ha
  have hbefore : p (before.foldl step s) :=
    List.foldlRecOn before step hs fun s hs b hb => hstep s b (List.mem_append_left _ hb) hs
  have hafter : ∀ b ∈ after, b ∈ before ++ a :: after := fun b hb =>
    List.mem_append_right _ (List.mem_cons_of_mem _ hb)
  rw [List.foldl_append, List.foldl_cons]
  exact (List.foldlRecOn after step (motive := fun s => p s ∧ q a s) ⟨hstep _ a ha hbefore, done _ a ha hbefore⟩
    fun s h b hb => ⟨hstep s b (hafter b hb) h.1, keep s b (hafter b hb) a h.1 h.2⟩).2

namespace Declarations

/-- Every interface stands under its qualified name. -/
def InterfacesByName (d : Declarations) : Prop :=
  ∀ e ∈ d.interfaces.entries, e.1 = e.2.qualifiedName

/-- One of the super interfaces of `i` is `j`. -/
def Extends (d : Declarations) (i j : InterfaceDeclaration) : Prop :=
  ∃ s ∈ i.superInterfaces, d.interfaceNamed? s = some j

variable {d : Declarations} {i j : InterfaceDeclaration} {name : String} {steps : Nat}
  {seen names frontier : List String}

/-! ### Names -/

theorem mem_values_of_interfaceNamed? (h : d.interfaceNamed? name = some i) : i ∈ d.interfaces.values := by
  unfold interfaceNamed? at h
  split at h
  · rename_i found hfound
    obtain rfl := Option.some.inj h
    exact List.mem_map_of_mem (d.interfaces.find?_eq_some_iff.1 hfound)
  · split at h
    · rename_i only honly
      obtain rfl := Option.some.inj h
      have hmem : only ∈ d.interfaces.values.filter (·.name.simple == name) := by simp [honly]
      exact (List.mem_filter.1 hmem).1
    · cases h

theorem InterfacesByName.find?_of_mem (hd : d.InterfacesByName) (hi : i ∈ d.interfaces.values) :
    d.interfaces.find? i.qualifiedName = some i := by
  obtain ⟨e, he, rfl⟩ := List.mem_map.1 hi
  rw [← hd e he]
  exact d.interfaces.find?_eq_some_iff.2 he

/-- What a name denotes stands under its own qualified name. -/
theorem InterfacesByName.find?_qualifiedName (hd : d.InterfacesByName) (h : d.interfaceNamed? name = some i) :
    d.interfaces.find? i.qualifiedName = some i :=
  hd.find?_of_mem (mem_values_of_interfaceNamed? h)

theorem InterfacesByName.find?_of_extends (hd : d.InterfacesByName) (hij : d.Extends i j) :
    d.interfaces.find? j.qualifiedName = some j := by
  obtain ⟨_, -, hj⟩ := hij
  exact hd.find?_qualifiedName hj

theorem InterfacesByName.eq_of_qualifiedName_eq (hd : d.InterfacesByName) {other : String}
    (hi : d.interfaceNamed? name = some i) (hj : d.interfaceNamed? other = some j)
    (h : i.qualifiedName = j.qualifiedName) : i = j := by
  have hfound := hd.find?_qualifiedName hi
  rw [h, hd.find?_qualifiedName hj] at hfound
  exact (Option.some.inj hfound).symm

/-! ### One level -/

theorem exists_of_mem_unseen (h : i ∈ d.unseen seen names) : ∃ s ∈ names, d.interfaceNamed? s = some i := by
  induction names generalizing seen with
  | nil => cases h
  | cons s names ih =>
    have later : ∀ {seen}, i ∈ d.unseen seen names → ∃ t ∈ s :: names, d.interfaceNamed? t = some i := by
      intro seen h
      obtain ⟨t, ht, hi⟩ := ih h
      exact ⟨t, List.mem_cons_of_mem _ ht, hi⟩
    rw [unseen] at h
    split at h
    · exact later h
    · rename_i j hj
      split at h
      · exact later h
      · rcases List.mem_cons.1 h with rfl | h
        · exact ⟨s, List.mem_cons_self, hj⟩
        · exact later h

/-- What a name denotes has been seen before or is in the level. -/
theorem mem_or_mem_unseen {s : String} (hs : s ∈ names) (h : d.interfaceNamed? s = some i) :
    i.qualifiedName ∈ seen ∨ i.qualifiedName ∈ (d.unseen seen names).map (·.qualifiedName) := by
  induction names generalizing seen with
  | nil => cases hs
  | cons t names ih =>
    rw [unseen]
    rcases List.mem_cons.1 hs with rfl | hs
    · rw [h]
      dsimp only
      split
      · rename_i hseen
        exact .inl (by simpa using hseen)
      · exact .inr (List.mem_map_of_mem List.mem_cons_self)
    · split
      · exact ih hs
      · rename_i j _
        split
        · exact ih hs
        · -- Further on the name of `j` counts as seen, and here it is in the level.
          rw [List.map_cons, List.mem_cons]
          rcases @ih (j.qualifiedName :: seen) hs with hseen | hlater
          · rcases List.mem_cons.1 hseen with heq | hseen
            · exact .inr (.inl heq)
            · exact .inl hseen
          · exact .inr (.inr hlater)

/-- An interface whose name is in the level is in the level itself. -/
theorem InterfacesByName.mem_unseen (hd : d.InterfacesByName) (hj : d.interfaceNamed? name = some j)
    (h : j.qualifiedName ∈ (d.unseen seen names).map (·.qualifiedName)) : j ∈ d.unseen seen names := by
  obtain ⟨k, hk, hname⟩ := List.mem_map.1 h
  obtain ⟨t, -, ht⟩ := exists_of_mem_unseen hk
  obtain rfl := hd.eq_of_qualifiedName_eq ht hj hname
  exact hk

/-- The names of a level are new, and each occurs once. -/
theorem nodup_unseen (hseen : seen.Nodup) : ((d.unseen seen names).map (·.qualifiedName) ++ seen).Nodup := by
  induction names generalizing seen with
  | nil => exact hseen
  | cons s names ih =>
    rw [unseen]
    split
    · exact ih hseen
    · rename_i j _
      split
      · exact ih hseen
      · rename_i hnew
        have hnew : j.qualifiedName ∉ seen := by simpa using hnew
        -- The recursion has the new name among those that are seen, and the result has it in front.
        exact List.perm_middle.nodup_iff.1 (ih (List.nodup_cons.2 ⟨hnew, hseen⟩))

/-! ### All levels -/

/-- There are steps enough for all keys. -/
theorem suffices_keys (d : Declarations) (extra : Nat) :
    Suffices d.interfaces.keys (d.interfaces.size + 1 + extra) [] := by
  have hsize : d.interfaces.keys.length = d.interfaces.size := List.length_map _
  rw [← hsize]
  exact suffices_nil d.interfaces.keys extra

/-- A level that is not empty leaves enough steps for the next. -/
private theorem suffices_next (hd : d.InterfacesByName) (h : Suffices d.interfaces.keys (steps + 1) seen)
    (hne : d.unseen seen frontier ≠ []) :
    Suffices d.interfaces.keys steps ((d.unseen seen frontier).map (·.qualifiedName) ++ seen) := by
  refine h.append (by simpa using hne) (fun n hn => ?_) (nodup_unseen h.nodup)
  obtain ⟨i, hi, rfl⟩ := List.mem_map.1 hn
  obtain ⟨s, -, hs⟩ := exists_of_mem_unseen hi
  exact List.mem_map_of_mem (d.interfaces.find?_eq_some_iff.1 (hd.find?_qualifiedName hs))

/-- What the frontier denotes, and all that is above an interface that is found, is found or has been seen before. -/
private theorem levelsAbove_closed (hd : d.InterfacesByName) (h : Suffices d.interfaces.keys steps seen)
    (frontier : List String) :
    (∀ s ∈ frontier, ∀ j, d.interfaceNamed? s = some j →
      j.qualifiedName ∈ seen ∨ j ∈ d.levelsAbove steps seen frontier) ∧
    ∀ i ∈ d.levelsAbove steps seen frontier, ∀ j, d.Extends i j →
      j.qualifiedName ∈ seen ∨ j ∈ d.levelsAbove steps seen frontier := by
  induction steps generalizing seen frontier with
  | zero => exact absurd h not_suffices_zero
  | succ steps ih =>
    -- Names are all that is compared, but no two interfaces share one.
    have hlevel : ∀ s ∈ frontier, ∀ j, d.interfaceNamed? s = some j →
        j.qualifiedName ∈ seen ∨ j ∈ d.unseen seen frontier := by
      intro s hs j hj
      exact (mem_or_mem_unseen hs hj).imp_right (hd.mem_unseen hj)
    rw [levelsAbove]
    split
    · rename_i hnone
      rw [hnone] at hlevel
      exact ⟨hlevel, fun i hi => absurd hi List.not_mem_nil⟩
    · rename_i hsome
      obtain ⟨hnext, habove⟩ := ih (suffices_next hd h fun e => hsome e)
        ((d.unseen seen frontier).flatMap (·.superInterfaces))
      refine ⟨fun s hs j hj => (hlevel s hs j hj).imp_right (List.mem_append_left _), fun i hi j hij => ?_⟩
      obtain ⟨s, hs, hj⟩ := hij
      have hfound := (List.mem_append.1 hi).elim (fun hi => hnext s (List.mem_flatMap.2 ⟨i, hi, hs⟩) j hj)
        (fun hi => habove i hi j ⟨s, hs, hj⟩)
      -- What the next levels took as seen is in this one, or was seen before it.
      rcases hfound with hknown | hlater
      · rcases List.mem_append.1 hknown with hnew | hseen
        · exact .inr (List.mem_append_left _ (hd.mem_unseen hj hnew))
        · exact .inl hseen
      · exact .inr (List.mem_append_right _ hlater)

/-- Whatever is found can be reached from what the frontier denotes. -/
private theorem exists_reaching_of_mem_levelsAbove (h : j ∈ d.levelsAbove steps seen frontier) :
    ∃ s ∈ frontier, ∃ i, d.interfaceNamed? s = some i ∧ Relation.ReflTransGen d.Extends i j := by
  induction steps generalizing seen frontier with
  | zero => cases h
  | succ steps ih =>
    rw [levelsAbove] at h
    split at h
    · cases h
    · rcases List.mem_append.1 h with h | h
      · obtain ⟨s, hs, hj⟩ := exists_of_mem_unseen h
        exact ⟨s, hs, j, hj, .refl⟩
      · obtain ⟨t, ht, k, hk, hkj⟩ := ih h
        obtain ⟨i, hi, hti⟩ := List.mem_flatMap.1 ht
        obtain ⟨s, hs, hi'⟩ := exists_of_mem_unseen hi
        exact ⟨s, hs, i, hi', .head ⟨t, hti, hk⟩ hkj⟩

/-- Every listed super interface can be reached in one step or more. -/
theorem transGen_of_mem_superInterfacesOf (h : j ∈ d.superInterfacesOf i) : Relation.TransGen d.Extends i j := by
  obtain ⟨s, hs, k, hk, hkj⟩ := exists_reaching_of_mem_levelsAbove h
  exact .head' ⟨s, hs, hk⟩ hkj

/-- The list of super interfaces holds exactly the interfaces that can be reached in one step or more. -/
theorem mem_superInterfacesOf_iff (hd : d.InterfacesByName) :
    j ∈ d.superInterfacesOf i ↔ Relation.TransGen d.Extends i j := by
  obtain ⟨hdirect, habove⟩ := levelsAbove_closed hd (d.suffices_keys 0) i.superInterfaces
  refine ⟨transGen_of_mem_superInterfacesOf, fun h => ?_⟩
  induction h with
  | single hij =>
    obtain ⟨s, hs, hj⟩ := hij
    exact (hdirect s hs _ hj).resolve_left List.not_mem_nil
  | tail _ hkj ih => exact (habove _ ih _ hkj).resolve_left List.not_mem_nil

/-! ### The search for cycles -/

/-- What the search does with one super interface of the interface under the key `name`, where `path` ends in `name` and
`below` is done with the interfaces that are not on it. -/
def visitSuper (d : Declarations) (below : CycleSearch → String → CycleSearch) (path : List String) (name : String)
    (s : CycleSearch) (super : String) : CycleSearch :=
  match d.interfaceNamed? super with
  | none => s.report (undefinedSuper name super)
  | some parent =>
    let parent := parent.qualifiedName
    if path.contains parent then (s.report (circular name parent)).mark [name, parent]
    else (below s parent).inherit name parent

/-- Nothing is done with an interface that is on the path, done with, or not there. -/
theorem searchCycles_cases (d : Declarations) (steps : Nat) (path : List String) (s : CycleSearch) (name : String) :
    d.searchCycles (steps + 1) path s name = s ∨
      name ∉ path ∧ ∃ i, d.interfaces.find? name = some i ∧
        d.searchCycles (steps + 1) path s name =
          let t := i.superInterfaces.foldl (d.visitSuper (d.searchCycles steps (name :: path)) (name :: path) name) s
          { t with finished := name :: t.finished } := by
  rw [searchCycles]
  split
  · exact .inl rfl
  · rename_i hnew
    rw [Bool.or_eq_true, List.contains_iff_mem, not_or] at hnew
    split
    · exact .inl rfl
    · rename_i i hfind
      exact .inr ⟨hnew.1, i, hfind, rfl⟩

/-- All super interfaces of the interface under the key are defined. -/
def IsLinked (d : Declarations) (key : String) : Prop :=
  ∀ i, d.interfaces.find? key = some i → ∀ s ∈ i.superInterfaces, (d.interfaceNamed? s).isSome

/-- Keys, each after those of its super interfaces that stand under their qualified names. -/
inductive Founded (d : Declarations) : List String → Prop where
  | nil : Founded d []
  | cons {key : String} {keys : List String} (founded : Founded d keys)
      (above : ∀ i, d.interfaces.find? key = some i → ∀ j, d.Extends i j → j.qualifiedName ∈ d.interfaces.keys →
        j.qualifiedName ∈ keys) : Founded d (key :: keys)

/-- No interface is known to be cyclic, and those that are done with are linked and stand after those above them. -/
structure CycleSearch.Clear (d : Declarations) (s : CycleSearch) : Prop where
  cyclic : s.cyclic = []
  finished : ∀ key ∈ s.finished, d.IsLinked key
  founded : d.Founded s.finished

/-- The search has gone on from `s` to `t`.  If it is clear at `s` and there is nothing to report at `t`, it is clear at
`t`. -/
structure CycleSearch.Continues (d : Declarations) (s t : CycleSearch) : Prop where
  issues : t.issues = [] → s.issues = []
  cyclic : s.cyclic ⊆ t.cyclic
  finished : ∀ key ∈ s.finished, key ∈ t.finished
  clear : t.issues = [] → s.Clear d → t.Clear d
  errors : (∀ i ∈ s.issues, i.isError = true) → ∀ i ∈ t.issues, i.isError = true

namespace CycleSearch.Continues

variable {s t u : CycleSearch}

theorem refl (s : CycleSearch) : Continues d s s where
  issues h := h
  cyclic := List.Subset.refl _
  finished _ h := h
  clear _ h := h
  errors h := h

theorem trans (first : Continues d s t) (second : Continues d t u) : Continues d s u where
  issues h := first.issues (second.issues h)
  cyclic := List.Subset.trans first.cyclic second.cyclic
  finished key h := second.finished key (first.finished key h)
  clear h hs := second.clear h (first.clear (second.issues h) hs)
  errors h := second.errors (first.errors h)

private theorem issues_report_ne_nil (s : CycleSearch) (i : Issue) : (s.report i).issues ≠ [] := by
  simp [CycleSearch.report]

theorem report (s : CycleSearch) {i : Issue} (hi : i.isError = true) : Continues d s (s.report i) where
  issues h := absurd h (issues_report_ne_nil s i)
  cyclic := List.Subset.refl _
  finished _ h := h
  clear h := absurd h (issues_report_ne_nil s i)
  errors h j hj := by
    rcases List.mem_append.1 hj with hj | hj
    · exact h j hj
    · rw [List.mem_singleton.1 hj]
      exact hi

/-- Once there is an issue it does not matter what is marked. -/
theorem mark (hs : s.issues ≠ []) (names : List String) : Continues d s (s.mark names) where
  issues h := h
  cyclic := List.subset_append_left _ _
  finished _ h := h
  clear h := absurd h hs
  errors h := h

theorem inherit (s : CycleSearch) (name parent : String) : Continues d s (s.inherit name parent) := by
  unfold CycleSearch.inherit
  split
  · rename_i hparent
    refine ⟨fun h => h, List.subset_append_left _ _, fun _ h => h, fun _ hs => ?_, fun h => h⟩
    rw [hs.cyclic] at hparent
    cases hparent
  · exact .refl s

variable {α : Type} {step : CycleSearch → α → CycleSearch}

theorem foldl (hstep : ∀ s a, Continues d s (step s a)) (as : List α) (s : CycleSearch) :
    Continues d s (as.foldl step s) :=
  List.foldlRecOn as step (motive := Continues d s) (.refl s) fun _ ht a _ => ht.trans (hstep _ a)

/-- What a step does for its element holds in the end, if going on keeps it. -/
theorem forall_foldl {q : α → CycleSearch → Prop} (hstep : ∀ s a, Continues d s (step s a))
    (keep : ∀ a {s t}, Continues d s t → q a s → q a t) (as : List α) (done : ∀ s, ∀ a ∈ as, q a (step s a))
    (s : CycleSearch) : ∀ a ∈ as, q a (as.foldl step s) :=
  Metamodel.forall_foldl (fun _ => True) q (fun _ _ _ _ => trivial) (fun s a _ b _ hb => keep b (hstep s a) hb)
    (fun s a ha _ => done s a ha) trivial

/-- The super interface is defined, and done with if there is an interface under its qualified name. -/
private def Visited (d : Declarations) (super : String) (s : CycleSearch) : Prop :=
  ∃ j, d.interfaceNamed? super = some j ∧ (j.qualifiedName ∈ d.interfaces.keys → j.qualifiedName ∈ s.finished)

/-- An interface is done with when all its super interfaces have been visited.  If that had no issue, it is linked, and
stands after those above it. -/
theorem finish {step : CycleSearch → String → CycleSearch} {key : String} (hfind : d.interfaces.find? key = some i)
    (hstep : ∀ s a, Continues d s (step s a)) (hdone : ∀ s a, (step s a).issues = [] → Visited d a (step s a))
    (s : CycleSearch) :
    Continues d s { i.superInterfaces.foldl step s with
      finished := key :: (i.superInterfaces.foldl step s).finished } := by
  have hfold := foldl hstep i.superInterfaces s
  refine ⟨hfold.issues, hfold.cyclic, fun k hk => List.mem_cons_of_mem _ (hfold.finished k hk), fun hnone hs => ?_,
    hfold.errors⟩
  have hall : ∀ a ∈ i.superInterfaces, Visited d a (i.superInterfaces.foldl step s) := by
    have hkeep : ∀ a {s t : CycleSearch}, Continues d s t → (s.issues = [] → Visited d a s) → t.issues = [] →
        Visited d a t := by
      intro a s t hst hs ht
      obtain ⟨j, hj, hfinished⟩ := hs (hst.issues ht)
      exact ⟨j, hj, fun hkey => hst.finished _ (hfinished hkey)⟩
    exact fun a ha => forall_foldl hstep hkeep i.superInterfaces (fun s a _ => hdone s a) s a ha hnone
  obtain ⟨hcyclic, hfinished, hfounded⟩ := hfold.clear hnone hs
  refine ⟨hcyclic, fun k hk => ?_, hfounded.cons fun i' hi' j hij hkey => ?_⟩
  · rcases List.mem_cons.1 hk with rfl | hk
    · intro i' hi' a ha
      obtain rfl : i = i' := Option.some.inj (hfind.symm.trans hi')
      obtain ⟨j, hj, -⟩ := hall a ha
      rw [hj]
      rfl
    · exact hfinished k hk
  · obtain rfl : i = i' := Option.some.inj (hfind.symm.trans hi')
    obtain ⟨a, ha, hj⟩ := hij
    obtain ⟨j', hj', hdone'⟩ := hall a ha
    obtain rfl : j = j' := Option.some.inj (hj.symm.trans hj')
    exact hdone' hkey

end CycleSearch.Continues

/-- The search is done in the end with an interface that is not on the path. -/
theorem mem_finished_searchCycles {key : String} {path : List String} (hkey : key ∈ d.interfaces.keys)
    (hpath : key ∉ path) (s : CycleSearch) : key ∈ (d.searchCycles (steps + 1) path s key).finished := by
  rw [searchCycles]
  split
  · rename_i hvisited
    rw [Bool.or_eq_true, List.contains_iff_mem, List.contains_iff_mem] at hvisited
    exact hvisited.resolve_left hpath
  · obtain ⟨e, he, rfl⟩ := List.mem_map.1 hkey
    rw [d.interfaces.find?_eq_some_iff.2 he]
    exact List.mem_cons_self

/-- A super interface is undefined, or lies on the path already, or is searched from in turn. -/
theorem CycleSearch.Continues.visitSuper {below : CycleSearch → String → CycleSearch} {path : List String}
    (hbelow : ∀ s key, CycleSearch.Continues d s (below s key)) (key : String) (s : CycleSearch) (super : String) :
    CycleSearch.Continues d s (d.visitSuper below path key s super) := by
  unfold Declarations.visitSuper
  split
  · exact .report s rfl
  · rename_i parent _
    dsimp only
    split
    · exact .trans (.report s rfl) (.mark (CycleSearch.Continues.issues_report_ne_nil s _) _)
    · exact (hbelow s parent.qualifiedName).trans (.inherit _ key parent.qualifiedName)

/-- Searching from one more interface goes on with the search. -/
theorem continues_searchCycles {path : List String} (h : Suffices d.interfaces.keys steps path) (s : CycleSearch)
    (key : String) :
    CycleSearch.Continues d s (d.searchCycles steps path s key) := by
  induction steps generalizing path s key with
  | zero => exact absurd h not_suffices_zero
  | succ steps ih =>
    rcases d.searchCycles_cases steps path s key with hsame | ⟨hnew, i, hfind, hsearch⟩
    · rw [hsame]
      exact .refl s
    · have hnext : Suffices d.interfaces.keys steps (key :: path) :=
        h.cons (List.mem_map_of_mem (d.interfaces.find?_eq_some_iff.1 hfind)) hnew
      rw [hsearch]
      refine .finish hfind (.visitSuper (ih hnext) key) (fun s super hnone => ?_) s
      unfold visitSuper at hnone ⊢
      split at hnone
      · exact absurd hnone (CycleSearch.Continues.issues_report_ne_nil s _)
      · rename_i parent hparent
        dsimp only at hnone ⊢
        split at hnone
        · exact absurd hnone (CycleSearch.Continues.issues_report_ne_nil s _)
        · rename_i hoff
          rw [if_neg hoff]
          rw [List.contains_iff_mem] at hoff
          refine ⟨parent, hparent, fun hkey => ?_⟩
          have hinherit := CycleSearch.Continues.inherit (d := d)
            (d.searchCycles steps (key :: path) s parent.qualifiedName) key parent.qualifiedName
          obtain ⟨steps, rfl⟩ := hnext.exists_succ
          exact hinherit.finished _ (mem_finished_searchCycles hkey hoff s)

private theorem continues_cyclicInterfaces (d : Declarations) : CycleSearch.Continues d {} d.cyclicInterfaces :=
  .foldl (continues_searchCycles (d.suffices_keys 0)) d.interfaces.keys {}

/-- The search reports errors only. -/
theorem isError_cyclicInterfaces (d : Declarations) : ∀ e ∈ d.cyclicInterfaces.issues, e.isError = true :=
  d.continues_cyclicInterfaces.errors fun _ he => absurd he List.not_mem_nil

/-- The search is done with every interface in the end. -/
theorem mem_finished_cyclicInterfaces (d : Declarations) :
    ∀ key ∈ d.interfaces.keys, key ∈ d.cyclicInterfaces.finished :=
  CycleSearch.Continues.forall_foldl (q := fun key s => key ∈ s.finished) (continues_searchCycles (d.suffices_keys 0))
    (fun key _ _ h => h.finished key) d.interfaces.keys
    (fun s _ hkey => mem_finished_searchCycles hkey List.not_mem_nil s) {}

/-- If the search finds nothing, it is clear in the end, and done with every interface. -/
private theorem clear_of_clean (clean : Clean d.cyclicInterfaces.issues) :
    d.cyclicInterfaces.Clear d ∧ ∀ key ∈ d.interfaces.keys, key ∈ d.cyclicInterfaces.finished := by
  have hnone := eq_nil_of_clean d.isError_cyclicInterfaces clean
  have hstart : CycleSearch.Clear d {} := ⟨rfl, fun k hk => absurd hk List.not_mem_nil, .nil⟩
  exact ⟨d.continues_cyclicInterfaces.clear hnone hstart, d.mem_finished_cyclicInterfaces⟩

/-- If the search finds nothing, no interface is cyclic and all super interfaces are defined. -/
theorem linked_of_clean (clean : Clean d.cyclicInterfaces.issues) :
    d.cyclicInterfaces.cyclic = [] ∧ ∀ key ∈ d.interfaces.keys, d.IsLinked key := by
  obtain ⟨hclear, hfinished⟩ := clear_of_clean clean
  exact ⟨hclear.cyclic, fun key hkey => hclear.finished key (hfinished key hkey)⟩

/-! ### Cycles -/

/-- The interface stands under its own qualified name. -/
def StandsByName (d : Declarations) (i : InterfaceDeclaration) : Prop :=
  d.interfaces.find? i.qualifiedName = some i

instance (d : Declarations) (i : InterfaceDeclaration) : Decidable (d.StandsByName i) := by
  unfold StandsByName
  infer_instance

/-- Upwards through interfaces that stand under their names every way ends. -/
private theorem Founded.acc {keys : List String} (h : d.Founded keys) :
    ∀ key ∈ keys, ∀ i, d.interfaces.find? key = some i → Acc (fun j i => d.Extends i j ∧ d.StandsByName j) i := by
  induction h with
  | nil => exact fun key hkey => absurd hkey List.not_mem_nil
  | cons _ above ih =>
    intro key hkey i hi
    rcases List.mem_cons.1 hkey with rfl | hkey
    · refine .intro i fun j ⟨hij, hj⟩ => ih _ (above i hi j hij ?_) j hj
      exact List.mem_map_of_mem (d.interfaces.find?_eq_some_iff.1 hj)
    · exact ih key hkey i hi

/-- If the search finds nothing, every cycle goes through an interface that does not stand under its name. -/
theorem exists_misplaced_of_cycle (clean : Clean d.cyclicInterfaces.issues) (hcycle : Relation.TransGen d.Extends i i) :
    ∃ j, Relation.TransGen d.Extends i j ∧ Relation.TransGen d.Extends j i ∧ ¬ d.StandsByName j := by
  by_contra hnone
  have hnot : ∀ j, Relation.TransGen d.Extends i j → Relation.TransGen d.Extends j i → d.StandsByName j := by
    intro j hij hji
    by_contra hj
    exact hnone ⟨j, hij, hji, hj⟩
  obtain ⟨hclear, hfinished⟩ := clear_of_clean clean
  -- Each step of the cycle leads to an interface that stands under its name.
  have hlift : ∀ k, Relation.TransGen d.Extends i k → Relation.TransGen d.Extends k i →
      Relation.TransGen (fun k j => d.Extends k j ∧ d.StandsByName j) i k := by
    intro k hik hki
    induction hik with
    | single h => exact .single ⟨h, hnot _ (.single h) hki⟩
    | tail h hstep ih => exact (ih (.head hstep hki)).tail ⟨hstep, hnot _ (h.tail hstep) hki⟩
  have hi : d.StandsByName i := hnot i hcycle hcycle
  have hkey : i.qualifiedName ∈ d.interfaces.keys := List.mem_map_of_mem (d.interfaces.find?_eq_some_iff.1 hi)
  have hacc := hclear.founded.acc _ (hfinished _ hkey) i hi
  exact not_reachesCycle_of_acc hacc (.of_self (hlift i hcycle hcycle))

end Declarations

end Metamodel
