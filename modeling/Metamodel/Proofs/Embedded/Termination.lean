import Mathlib.Logic.Function.Iterate
import Metamodel.Embedded.Nesting
import Metamodel.Proofs.Graph.Elements
import Metamodel.Proofs.Issue.Clean
import Metamodel.Proofs.Steps

/-!
# The way down ends

`visitNested` goes down into an embedded value only if it has not been there, since a visit makes no value unresolved
again.  What is nested in an embedded value are embedded values, so the number of these and one more bounds the depth of
the visits, whatever is nested in what: what would be done below that does not matter (`iterate_visitBy`), as
`resolveEmbeddedValues_of_bottom` says of all embedded values together.
-/

namespace Metamodel.Graph

/-! ### The recursion as a parameter -/

/-- What `visitNested` does with one embedded value, if `below` is done with the values nested in it. -/
def visitBy (below : List EntityId → Graph → EntityId → Found Graph) (path : List EntityId) (g : Graph)
    (id : EntityId) : Found Graph :=
  match g.stateOf id with
  | .resolved | .failed => (g, [])
  | .inProgress =>
    let cycle := cycleAt path id
    (g.setStates cycle .failed, [cyclicNesting g cycle id])
  | .unresolved =>
    let targets := g.nestedTargets id
    let (g, issues) := gather (below (path ++ [id])) (g.setState id .inProgress) targets
    let settled := if targets.all fun t => g.stateOf t == .resolved then EntityState.resolved else .failed
    (if g.stateOf id == .inProgress then g.setState id settled else g, issues)

private theorem visitNested_succ (steps : Nat) : visitNested (steps + 1) = visitBy (visitNested steps) := rfl

variable {below other : List EntityId → Graph → EntityId → Found Graph} {path : List EntityId} {g h k : Graph}
  {id : EntityId}

/-- Only an unresolved value is gone down into. -/
private theorem visitBy_congr (h : g.stateOf id = .unresolved →
    gather (below (path ++ [id])) (g.setState id .inProgress) (g.nestedTargets id) =
      gather (other (path ++ [id])) (g.setState id .inProgress) (g.nestedTargets id)) :
    visitBy below path g id = visitBy other path g id := by
  unfold visitBy
  split
  · rfl
  · rfl
  · rfl
  · rename_i hstate
    dsimp only
    rw [h hstate]

/-! ### Visits make nothing unresolved -/

/-- From `g` to `h` nothing but states has changed, and none has become unresolved. -/
structure Unfolds (g h : Graph) : Prop where
  outline : h.outline = g.outline
  attributes : h.attributes = g.attributes
  nestedTargets : ∀ o, h.nestedTargets o = g.nestedTargets o
  unresolved : ∀ o, h.stateOf o = .unresolved → g.stateOf o = .unresolved

namespace Unfolds

theorem refl (g : Graph) : Unfolds g g where
  outline := rfl
  attributes := rfl
  nestedTargets _ := rfl
  unresolved _ ho := ho

theorem trans (first : Unfolds g h) (second : Unfolds h k) : Unfolds g k where
  outline := second.outline.trans first.outline
  attributes := second.attributes.trans first.attributes
  nestedTargets o := (second.nestedTargets o).trans (first.nestedTargets o)
  unresolved o ho := first.unresolved o (second.unresolved o ho)

theorem setState (g : Graph) (id : EntityId) {state : EntityState} (hstate : state ≠ .unresolved) :
    Unfolds g (g.setState id state) where
  outline := outline_setState ..
  attributes := rfl
  nestedTargets o := by
    rw [Graph.nestedTargets, Graph.nestedTargets, Graph.setState, entity_modifyEntity]
    split <;> rfl
  unresolved o ho := by
    rw [stateOf, Graph.setState, entity_modifyEntity] at ho
    split at ho
    · exact absurd ho hstate
    · exact ho

theorem setStates (g : Graph) (ids : List EntityId) {state : EntityState} (hstate : state ≠ .unresolved) :
    Unfolds g (g.setStates ids state) :=
  List.foldlRecOn ids _ (motive := Unfolds g) (.refl g) fun _ hh id _ => hh.trans (.setState _ id hstate)

theorem gather {α : Type} {step : Graph → α → Found Graph} (hstep : ∀ g a, Unfolds g (step g a).1) (g : Graph)
    (as : List α) : Unfolds g (Metamodel.gather step g as).1 :=
  gather_invariant (Unfolds g) (fun h a _ hh => hh.trans (hstep h a)) (.refl g)

end Unfolds

theorem unfolds_visitNested (steps : Nat) (path : List EntityId) (g : Graph) (id : EntityId) :
    Unfolds g (visitNested steps path g id).1 := by
  induction steps generalizing path g id with
  | zero => exact .refl g
  | succ steps ih =>
    rw [visitNested_succ]
    unfold visitBy
    split
    · exact .refl g
    · exact .refl g
    · exact .setStates g _ (by decide)
    · have hentered : Unfolds g (g.setState id .inProgress) := .setState g id (by decide)
      have hvisited := hentered.trans (.gather (ih (path ++ [id])) _ (g.nestedTargets id))
      dsimp only
      split
      · refine hvisited.trans (.setState _ id ?_)
        split <;> decide
      · exact hvisited

/-! ### Steps enough -/

/-- What is nested in embedded values are embedded values. -/
def NestsValues (g : Graph) : Prop :=
  ∀ o ∈ g.idsOfKind .embeddedValue, ∀ t ∈ g.nestedTargets o, t ∈ g.idsOfKind .embeddedValue

theorem NestsValues.unfold (hg : g.NestsValues) (hgh : Unfolds g h) : h.NestsValues := by
  intro o ho t ht
  rw [idsOfKind_of_outline_eq hgh.outline] at ho ⊢
  rw [hgh.nestedTargets] at ht
  exact hg o ho t ht

/-- Whatever is done at the bottom, the way down into an embedded value ends before. -/
theorem iterate_visitBy (bottom : List EntityId → Graph → EntityId → Found Graph) {n m : Nat} (hg : g.NestsValues)
    (hn : Suffices (g.idsOfKind .embeddedValue) n path) (hm : Suffices (g.idsOfKind .embeddedValue) m path)
    (hpath : ∀ o ∈ path, g.stateOf o ≠ .unresolved) (hid : id ∈ g.idsOfKind .embeddedValue) :
    visitBy^[n] bottom path g id = visitNested m path g id := by
  induction n generalizing m path g id with
  | zero => exact absurd hn not_suffices_zero
  | succ n ih =>
    obtain ⟨m, rfl⟩ := hm.exists_succ
    rw [Function.iterate_succ_apply', visitNested_succ]
    refine visitBy_congr fun hstate => ?_
    have hnew : id ∉ path := fun hmem => hpath id hmem hstate
    have hentered : Unfolds g (g.setState id .inProgress) := .setState g id (by decide)
    have hlt := g.lt_size_of_mem_idsOfKind hid
    -- Whatever has been visited meanwhile, the values on the way down are not unresolved.
    refine gather_congr (Unfolds (g.setState id .inProgress)) (fun h t ht hh => ?_)
      (fun h t _ hh => hh.trans (unfolds_visitNested m _ h t)) (.refl _)
    have hall := hentered.trans hh
    have hvalues := idsOfKind_of_outline_eq hall.outline .embeddedValue
    refine ih (hg.unfold hall) ?_ ?_ (fun o ho hopen => ?_) ?_
    · rw [hvalues]
      exact hn.concat hid hnew
    · rw [hvalues]
      exact hm.concat hid hnew
    · have hopen := hh.unresolved o hopen
      rw [stateOf, setState, entity_modifyEntity] at hopen
      rcases List.mem_append.1 ho with hold | hlast
      · have hne : id ≠ o := fun heq => hnew (heq ▸ hold)
        rw [if_neg fun heq => hne heq.1] at hopen
        exact hpath o hold hopen
      · rw [List.mem_singleton.1 hlast, if_pos ⟨rfl, hlt⟩] at hopen
        cases hopen
    · rw [hvalues]
      exact hg id hid t ht

/-! ### All embedded values -/

theorem outline_checkNested (g : Graph) (id : EntityId) : (g.checkNested id).1.outline = g.outline :=
  outline_modifyEntity _ _ fun _ => rfl

/-- What is nested in the value that is checked are the embedded values of those names. -/
theorem nestedTargets_checkNested (g : Graph) {id : EntityId} (hid : id < g.entities.size) (o : EntityId) :
    (g.checkNested id).1.nestedTargets o =
      if o = id then (g.entity id).nested.filterMap fun n => g.lookup n.typeName .embeddedValue
      else g.nestedTargets o := by
  rw [nestedTargets, checkNested]
  dsimp only
  by_cases h : o = id
  · subst h
    rw [entity_modifyEntity_self _ _ hid, if_pos rfl, List.filterMap_map]
    rfl
  · rw [entity_modifyEntity_of_ne _ _ h, if_neg h, nestedTargets]

/-- After the checks, what is nested in embedded values are embedded values. -/
private theorem nestsValues_checked (g : Graph) :
    (gather checkNested g (g.idsOfKind .embeddedValue)).1.outline = g.outline ∧
      (gather checkNested g (g.idsOfKind .embeddedValue)).1.NestsValues := by
  have hstep : ∀ h : Graph, ∀ id ∈ g.idsOfKind .embeddedValue, h.outline = g.outline →
      (h.checkNested id).1.outline = g.outline := fun h id _ eq => (outline_checkNested h id).trans eq
  have houtline := gather_invariant (fun h : Graph => h.outline = g.outline) hstep (rfl : g.outline = g.outline)
  have hlt : ∀ h : Graph, h.outline = g.outline → ∀ id ∈ g.idsOfKind .embeddedValue, id < h.entities.size := by
    intro h eq id hid
    rw [size_of_outline_eq eq]
    exact g.lt_size_of_mem_idsOfKind hid
  have hfound : ∀ h : Graph, h.outline = g.outline → ∀ id,
      ∀ t ∈ (h.entity id).nested.filterMap (fun n => h.lookup n.typeName .embeddedValue),
        t ∈ g.idsOfKind .embeddedValue := by
    intro h eq id t ht
    obtain ⟨n, -, hn⟩ := List.mem_filterMap.1 ht
    rw [← idsOfKind_of_outline_eq eq]
    exact h.mem_idsOfKind_of_lookup hn
  have hchecked := forall_gather (fun h : Graph => h.outline = g.outline)
    (fun o h => ∀ t ∈ h.nestedTargets o, t ∈ g.idsOfKind .embeddedValue) hstep
    (fun h id hid o eq ho t ht => by
      rw [nestedTargets_checkNested h (hlt h eq id hid)] at ht
      split at ht
      · exact hfound h eq id t ht
      · exact ho t ht)
    (fun h id hid eq t ht => by
      rw [nestedTargets_checkNested h (hlt h eq id hid), if_pos rfl] at ht
      exact hfound h eq id t ht) (rfl : g.outline = g.outline)
  refine ⟨houtline, fun o ho t ht => ?_⟩
  rw [idsOfKind_of_outline_eq houtline] at ho ⊢
  exact hchecked o ho t ht

/-- The embedded values need no more steps than there are such values, and one more. -/
theorem resolveEmbeddedValues_of_bottom (g : Graph) (bottom : List EntityId → Graph → EntityId → Found Graph)
    (extra : Nat) :
    ((gather checkNested g (g.idsOfKind .embeddedValue)).andThen
        (gather (visitBy^[(g.idsOfKind .embeddedValue).length + 1 + extra] bottom []) · (g.idsOfKind .embeddedValue))) =
      g.resolveEmbeddedValues := by
  obtain ⟨eq, hchecked⟩ := nestsValues_checked g
  rw [resolveEmbeddedValues, Found.andThen_eq, Found.andThen_eq]
  have hvisits : gather (visitBy^[(g.idsOfKind .embeddedValue).length + 1 + extra] bottom [])
        (gather checkNested g (g.idsOfKind .embeddedValue)).1 (g.idsOfKind .embeddedValue) =
      gather (visitNested ((g.idsOfKind .embeddedValue).length + 1) [])
        (gather checkNested g (g.idsOfKind .embeddedValue)).1 (g.idsOfKind .embeddedValue) := by
    refine gather_congr (Unfolds (gather checkNested g (g.idsOfKind .embeddedValue)).1) (fun h id hid hh => ?_)
      (fun h id _ hh => hh.trans (unfolds_visitNested _ _ h id)) (.refl _)
    have hvalues := idsOfKind_of_outline_eq (hh.outline.trans eq) .embeddedValue
    refine iterate_visitBy bottom (hchecked.unfold hh) ?_ ?_ (fun o ho => absurd ho List.not_mem_nil) ?_
    · rw [hvalues]
      exact suffices_nil _ extra
    · rw [hvalues]
      exact suffices_nil _ 0
    · rwa [hvalues]
  rw [hvisits]

end Metamodel.Graph
