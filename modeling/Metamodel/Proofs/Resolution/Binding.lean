import Metamodel.Proofs.Embedded.Expansion
import Metamodel.Proofs.Resolution.Pristine

/-!
# Graphs whose names are bound

Binding and expansion come before inheritance and keep a graph pristine.  After clean binding every relationship
of a declared object has its related entity (`related_of_clean_bindRelationships`); what follows leaves
relationships alone.
-/

namespace Metamodel.Graph

variable {g h k : Graph}

/-! ### Related entities -/

/-- A later pristine graph with the same entities. -/
structure Relates (g h : Graph) : Prop extends Follows g h where
  entities : h.entities = g.entities

theorem Relates.refl (hg : g.Pristine) : Relates g g :=
  ⟨⟨hg, rfl⟩, rfl⟩

theorem Relates.trans (first : Relates g h) (second : Relates h k) : Relates g k :=
  ⟨first.toFollows.trans second.toFollows, second.entities.trans first.entities⟩

theorem Relates.relationships_eq (hh : Relates g h) (o : EntityId) :
    (h.entity o).relationships = (g.entity o).relationships := by
  rw [entity, entity, hh.entities]

theorem relates_gather {α : Type} {step : Graph → α → Found Graph}
    (hstep : ∀ {h}, h.Pristine → ∀ a, Relates h (step h a).1) (hg : g.Pristine) (as : List α) :
    Relates g (gather step g as).1 :=
  gather_invariant (Relates g) (fun _ a _ hh => hh.trans (hstep hh.pristine a)) (.refl hg)

private theorem relates_bindRelated (key : String) (hg : g.Pristine) (r : RelationshipId) :
    Relates g (bindRelated key g r).1 := by
  unfold bindRelated
  dsimp only
  split
  · exact ⟨⟨hg.modifyRelationship r fun _ => ⟨rfl, rfl, rfl⟩, outline_modifyRelationship ..⟩, rfl⟩
  · exact .refl hg

theorem relates_bindRelationships (hg : g.Pristine) (object : EntityId × String) :
    Relates g (g.bindRelationships object).1 :=
  relates_gather (relates_bindRelated object.2) hg _

private theorem related_bindRelated (g : Graph) (key : String) (r : RelationshipId) {s : RelationshipId}
    (hs : ((g.relationshipAt s).related).isSome) : (((bindRelated key g r).1.relationshipAt s).related).isSome := by
  unfold bindRelated
  dsimp only
  split
  · rw [relationshipAt_modifyRelationship]
    split
    · rfl
    · exact hs
  · exact hs

private theorem related_of_clean_bindRelated {key : String} {r : RelationshipId} (hr : r < g.relationships.size)
    (clean : Clean (bindRelated key g r).2) : (((bindRelated key g r).1.relationshipAt r).related).isSome := by
  unfold bindRelated at clean ⊢
  dsimp only at clean ⊢
  split
  · rw [relationshipAt_modifyRelationship, if_pos ⟨rfl, hr⟩]
    rfl
  · rename_i hlookup
    rw [hlookup] at clean
    have := clean _ (List.mem_singleton_self _)
    cases this

/-- The relationships of an object, after clean binding of them. -/
private theorem related_of_clean_object (hg : g.Pristine) {object : EntityId × String}
    (clean : Clean (g.bindRelationships object).2) :
    ∀ r ∈ (g.entity object.1).relationships, (((g.bindRelationships object).1.relationshipAt r).related).isSome := by
  refine forall_of_clean_gather (Relates g) (fun r h => ((h.relationshipAt r).related).isSome)
    (fun h r _ hh => hh.trans (relates_bindRelated object.2 hh.pristine r))
    (fun h r _ s _ hs => related_bindRelated h object.2 r hs) (fun h r hr hh hclean => ?_) (.refl hg) clean
  rw [← hh.relationships_eq] at hr
  exact related_of_clean_bindRelated (hh.pristine.sound.relationship_owned _ r hr).1 hclean

/-- The relationships of all objects, after clean binding. -/
theorem related_of_clean_bindRelationships (hg : g.Pristine) {declared : List (EntityId × String)}
    (clean : Clean (gather bindRelationships g declared).2) :
    ∀ object ∈ declared, ∀ r ∈ (g.entity object.1).relationships,
      (((gather bindRelationships g declared).1.relationshipAt r).related).isSome := by
  refine forall_of_clean_gather (Relates g)
    (fun object h => ∀ r ∈ (g.entity object.1).relationships, ((h.relationshipAt r).related).isSome)
    (fun h object _ hh => hh.trans (relates_bindRelationships hh.pristine object))
    (fun h object _ b _ hb r hr => ?_) (fun h object _ hh hclean r hr => ?_) (.refl hg) clean
  · exact gather_invariant (fun h => ((h.relationshipAt r).related).isSome)
      (fun k s _ hk => related_bindRelated k object.2 s hk) (hb r hr)
  · rw [← hh.relationships_eq] at hr
    exact related_of_clean_object hh.pristine hclean r hr

/-! ### Steps that leave relationships alone -/

/-- A later pristine graph with the same relationships. -/
structure Extends (g h : Graph) : Prop extends Follows g h where
  relationships : h.relationships = g.relationships
  lists : ∀ o, (h.entity o).relationships = (g.entity o).relationships

theorem Extends.refl (hg : g.Pristine) : Extends g g :=
  ⟨⟨hg, rfl⟩, rfl, fun _ => rfl⟩

theorem Extends.trans (first : Extends g h) (second : Extends h k) : Extends g k :=
  ⟨first.toFollows.trans second.toFollows, second.relationships.trans first.relationships,
    fun o => (second.lists o).trans (first.lists o)⟩

theorem extends_foldl {α : Type} {step : Graph → α → Graph} (hstep : ∀ {h}, h.Pristine → ∀ a, Extends h (step h a))
    (hg : g.Pristine) (as : List α) : Extends g (as.foldl step g) := by
  induction as generalizing g with
  | nil => exact .refl hg
  | cons a as ih => exact (hstep hg a).trans (ih (hstep hg a).pristine)

theorem extends_gather {α : Type} {step : Graph → α → Found Graph}
    (hstep : ∀ {h}, h.Pristine → ∀ a, Extends h (step h a).1) (hg : g.Pristine) (as : List α) :
    Extends g (gather step g as).1 :=
  gather_invariant (Extends g) (fun _ a _ hh => hh.trans (hstep hh.pristine a)) (.refl hg)

private theorem extends_bindEnumeration (hg : g.Pristine) (a : AttributeId) : Extends g (g.bindEnumeration a) := by
  unfold bindEnumeration
  split
  · split
    · exact .refl hg
    · exact ⟨⟨hg.modifyAttribute a fun _ => ⟨rfl, rfl⟩, outline_modifyAttribute ..⟩, rfl, fun _ => rfl⟩
  · exact .refl hg

theorem extends_bindEnumerations (hg : g.Pristine) (owner : EntityId) : Extends g (g.bindEnumerations owner) :=
  extends_foldl extends_bindEnumeration hg _

/-- A mapped attribute is one more in the list of its owner. -/
private theorem keptByMapping_extends (g : Graph) (owner : EntityId) : KeptByMapping owner (Extends g) := by
  intro h hh name type settings
  refine hh.trans ⟨⟨hh.pristine.addAttribute rfl, outline_addAttribute ..⟩, rfl, fun o => ?_⟩
  rw [entity_addAttribute]
  split <;> rfl

theorem extends_expandDeclared (d : Declarations) (hg : g.Pristine) (object : EntityId × String) :
    Extends g (expandDeclared d g object).1 :=
  (keptByMapping_extends g object.1).expandDeclared (.refl hg) d object.2

end Metamodel.Graph
