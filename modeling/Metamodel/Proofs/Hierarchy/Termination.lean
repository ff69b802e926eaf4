import Mathlib.Logic.Function.Iterate
import Metamodel.Proofs.Hierarchy.Settling
import Metamodel.Proofs.Issue.Clean
import Metamodel.Proofs.Steps

/-!
# The way up ends

`settle` goes up from an object only if it has not been there, since objects on the way are no longer unresolved.  So
the number of objects and one more bounds the length of the way, whatever superclasses are named: what would be done
beyond that does not matter (`iterate_settleBy`), as `resolveInheritance_of_bottom` says of all objects together.
-/

namespace Metamodel.Graph

/-! ### The recursion as a parameter -/

/-- What `settle` does with one object, if `above` is done with its superclass. -/
def settleBy (above : List EntityId → Graph → EntityId → Found Graph) (path : List EntityId) (g : Graph)
    (id : EntityId) : Found Graph :=
  match g.stateOf id with
  | .resolved | .failed => (g, [])
  | .inProgress =>
    let cycle := superCycle path id
    (g.setStates cycle .failed, [inheritanceIssue g .consistency id none
      ("cyclic superclass chain " ++ " -> ".intercalate ((cycle ++ [id]).map g.qualifiedName))])
  | .unresolved =>
    match (g.entity id).superName with
    | none => (g.setState id .resolved, [])
    | some superName =>
      match g.lookup superName .object with
      | none => (g.setState id .failed,
          [inheritanceIssue g .schema id none ("SuperClass name '" ++ superName ++ "' not defined")])
      | some parent =>
        (above (path ++ [id]) (g.enter id parent) parent).andThen fun g => g.inheritFrom superName parent id

private theorem settle_succ (steps : Nat) : settle (steps + 1) = settleBy (settle steps) := rfl

variable {above other : List EntityId → Graph → EntityId → Found Graph} {path : List EntityId} {g : Graph}
  {id : EntityId}

/-- Only an unresolved object is gone up from. -/
private theorem settleBy_congr
    (h : g.stateOf id = .unresolved → ∀ superName parent, g.lookup superName .object = some parent →
    above (path ++ [id]) (g.enter id parent) parent = other (path ++ [id]) (g.enter id parent) parent) :
    settleBy above path g id = settleBy other path g id := by
  unfold settleBy
  split
  · rfl
  · rfl
  · rfl
  · rename_i hstate
    split
    · rfl
    · rename_i superName _
      split
      · rfl
      · rename_i parent hparent
        rw [h hstate superName parent hparent]

/-! ### Nothing but members and progress changes -/

theorem outline_enter (g : Graph) (id p : EntityId) : (g.enter id p).outline = g.outline :=
  outline_modifyEntity _ _ fun _ => rfl

private theorem outline_collect {α : Type} {step : Graph → α → Graph × List MemberConflict}
    (hstep : ∀ g a, (step g a).1.outline = g.outline) (g : Graph) (as : List α) :
    (collect step g as).1.outline = g.outline := by
  induction as generalizing g with
  | nil => rfl
  | cons a as ih => exact (ih (step g a).1).trans (hstep g a)

private theorem outline_inheritAttribute (child : EntityId) (parentSource : Option AttributeId) (ownSource : Bool)
    (g : Graph) (a : AttributeId) : (inheritAttribute child parentSource ownSource g a).1.outline = g.outline := by
  unfold inheritAttribute
  dsimp only
  split
  · split
    · rfl
    · have hadded : (addInheritedAttribute child g (g.attributeAt a)).outline = g.outline := outline_addAttribute ..
      refine Eq.trans (outline_modifyEntity _ _ ?_) hadded
      exact fun _ => rfl
  · split
    · exact outline_addAttribute ..
    · rfl

private theorem outline_inheritRelationship (child : EntityId) (g : Graph) (r : RelationshipId) :
    (inheritRelationship child g r).1.outline = g.outline := by
  unfold inheritRelationship
  dsimp only
  split
  · rfl
  · split
    · exact outline_addRelationship ..
    · rfl

theorem outline_mergeMembers (g : Graph) (parent child : EntityId) :
    (g.mergeMembers parent child).1.outline = g.outline :=
  (outline_collect (outline_inheritRelationship child) _ _).trans
    (outline_collect (outline_inheritAttribute child _ _) g _)

private theorem outline_inheritFrom (g : Graph) (superName : String) (parent id : EntityId) :
    (g.inheritFrom superName parent id).1.outline = g.outline := by
  unfold inheritFrom
  split
  · split
    · rfl
    · exact outline_setState ..
  · exact (outline_setState ..).trans (outline_mergeMembers g parent id)

private theorem outline_settle (steps : Nat) (path : List EntityId) (g : Graph) (id : EntityId) :
    (settle steps path g id).1.outline = g.outline := by
  induction steps generalizing path g id with
  | zero => rfl
  | succ steps ih =>
    rw [settle_succ]
    unfold settleBy
    split
    · rfl
    · rfl
    · exact outline_setStates ..
    · split
      · exact outline_setState ..
      · split
        · exact outline_setState ..
        · rename_i parent _
          have habove := (ih (path ++ [id]) (g.enter id parent) parent).trans (outline_enter g id parent)
          exact (outline_inheritFrom ..).trans habove

/-! ### Steps enough -/

/-- Whatever is done at the bottom, the way up from an object ends before. -/
theorem iterate_settleBy (bottom : List EntityId → Graph → EntityId → Found Graph) {n m : Nat}
    (hn : Suffices (g.idsOfKind .object) n path) (hm : Suffices (g.idsOfKind .object) m path)
    (hpath : ∀ o ∈ path, g.stateOf o ≠ .unresolved) (hid : id ∈ g.idsOfKind .object) :
    settleBy^[n] bottom path g id = settle m path g id := by
  induction n generalizing m path g id with
  | zero => exact absurd hn not_suffices_zero
  | succ n ih =>
    obtain ⟨m, rfl⟩ := hm.exists_succ
    rw [Function.iterate_succ_apply', settle_succ]
    refine settleBy_congr fun hstate superName parent hparent => ?_
    have hnew : id ∉ path := fun hmem => hpath id hmem hstate
    have hobjects := idsOfKind_of_outline_eq (outline_enter g id parent) .object
    have hlt := g.lt_size_of_mem_idsOfKind hid
    refine ih ?_ ?_ (fun o ho => ?_) ?_
    · rw [hobjects]
      exact hn.concat hid hnew
    · rw [hobjects]
      exact hm.concat hid hnew
    · rw [stateOf_enter hlt]
      rcases List.mem_append.1 ho with hold | hlast
      · have hne : o ≠ id := fun heq => hnew (heq ▸ hold)
        rw [if_neg hne]
        exact hpath o hold
      · rw [if_pos (List.mem_singleton.1 hlast)]
        decide
    · rw [hobjects]
      exact g.mem_idsOfKind_of_lookup hparent

/-- Inheritance needs no more steps than there are objects, and one more. -/
theorem resolveInheritance_of_bottom (g : Graph) (bottom : List EntityId → Graph → EntityId → Found Graph)
    (extra : Nat) :
    gather (settleBy^[(g.idsOfKind .object).length + 1 + extra] bottom []) g (g.idsOfKind .object) =
      g.resolveInheritance := by
  refine gather_congr (fun h : Graph => h.outline = g.outline) (fun h id hid eq => ?_)
    (fun h id _ eq => (outline_settle _ _ h id).trans eq) rfl
  have hobjects := idsOfKind_of_outline_eq eq .object
  refine iterate_settleBy bottom ?_ ?_ (fun o ho => absurd ho List.not_mem_nil) (by rwa [hobjects])
  · rw [hobjects]
    exact suffices_nil _ extra
  · rw [hobjects]
    exact suffices_nil _ 0

end Metamodel.Graph
