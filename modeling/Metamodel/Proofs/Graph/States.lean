import Metamodel.Proofs.Graph.Elements

/-!
# States of a changed graph

Resolution marks how far it has come with an entity by its state.  What a change does to the states, and when an entity
is settled.
-/

namespace Metamodel.Graph

variable {g : Graph} {o : EntityId}

/-- Resolution is done with the entity. -/
def IsSettled (g : Graph) (o : EntityId) : Prop :=
  g.stateOf o = .resolved ∨ g.stateOf o = .failed

theorem IsSettled.ne_unresolved (hs : g.IsSettled o) : g.stateOf o ≠ .unresolved := by
  rcases hs with h | h <;> rw [h] <;> decide

theorem IsSettled.ne_inProgress (hs : g.IsSettled o) : g.stateOf o ≠ .inProgress := by
  rcases hs with h | h <;> rw [h] <;> decide

theorem outline_setStates (g : Graph) (ids : List EntityId) (state : EntityState) :
    (g.setStates ids state).outline = g.outline :=
  List.foldlRecOn ids _ (motive := fun h : Graph => h.outline = g.outline) rfl fun h hh id _ =>
    (h.outline_setState id state).trans hh

theorem entity_setState (g : Graph) (state : EntityState) {id : EntityId} (hid : id < g.entities.size) (o : EntityId) :
    (g.setState id state).entity o = if o = id then { g.entity o with state := state } else g.entity o := by
  rw [setState, entity_modifyEntity]
  by_cases h : o = id
  · subst h
    simp [hid]
  · simp [h, Ne.symm h]

theorem stateOf_setState (g : Graph) (state : EntityState) {id : EntityId} (hid : id < g.entities.size)
    (o : EntityId) : (g.setState id state).stateOf o = if o = id then state else g.stateOf o := by
  rw [stateOf, entity_setState g state hid]
  split <;> rfl

theorem entity_setStates (g : Graph) (state : EntityState) {ids : List EntityId}
    (hids : ∀ id ∈ ids, id < g.entities.size) (o : EntityId) :
    (g.setStates ids state).entity o = if o ∈ ids then { g.entity o with state := state } else g.entity o := by
  unfold setStates
  induction ids generalizing g with
  | nil => simp
  | cons id ids ih =>
    have hrest : ∀ i ∈ ids, i < (g.setState id state).entities.size := fun i hi => by
      rw [setState, size_modifyEntity]
      exact hids i (List.mem_cons_of_mem _ hi)
    rw [List.foldl_cons, ih (g.setState id state) hrest, entity_setState g state (hids id List.mem_cons_self)]
    by_cases h : o = id
    · subst h
      simp
    · simp [h]

theorem stateOf_setStates (g : Graph) (state : EntityState) {ids : List EntityId}
    (hids : ∀ id ∈ ids, id < g.entities.size) (o : EntityId) :
    (g.setStates ids state).stateOf o = if o ∈ ids then state else g.stateOf o := by
  rw [stateOf, entity_setStates g state hids]
  split <;> rfl

theorem IsSettled.setState_of_ne {id : EntityId} (hs : g.IsSettled o) (hne : o ≠ id) (state : EntityState) :
    (g.setState id state).IsSettled o := by
  have hsame : (g.setState id state).stateOf o = g.stateOf o := by
    rw [stateOf, Graph.setState, entity_modifyEntity_of_ne _ _ hne, stateOf]
  rwa [IsSettled, hsame]

theorem IsSettled.setState (hs : g.IsSettled o) (id : EntityId) {state : EntityState}
    (hstate : state = .resolved ∨ state = .failed) : (g.setState id state).IsSettled o := by
  rw [IsSettled, stateOf, Graph.setState, entity_modifyEntity]
  split
  · exact hstate
  · exact hs

theorem stateOf_addAttribute (g : Graph) (a : Attribute) (o : EntityId) :
    (g.addAttribute a).stateOf o = g.stateOf o := by
  rw [stateOf, entity_addAttribute]
  split <;> rfl

theorem stateOf_addRelationship (g : Graph) (r : Relationship) (o : EntityId) :
    (g.addRelationship r).stateOf o = g.stateOf o := by
  rw [stateOf, entity_addRelationship]
  split <;> rfl

end Metamodel.Graph
