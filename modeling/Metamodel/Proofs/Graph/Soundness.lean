import Mathlib.Data.List.Nodup
import Metamodel.Proofs.Graph.Elements

/-!
# Sound graphs

In a sound graph each member in the list of an entity exists and belongs to that entity, no list repeats a
member, and a source attribute is in the list of its entity.  Every change that a graph offers keeps it sound.
`OnlyChanges c g h` says that `h` is `g` after changes of the members of `c` alone, which may also have got more.
-/

namespace Metamodel.Graph

structure Sound (g : Graph) : Prop where
  attribute_owned : ∀ o, ∀ a ∈ (g.entity o).attributes, a < g.attributes.size ∧ (g.attributeAt a).owner = o
  attributes_nodup : ∀ o, (g.entity o).attributes.Nodup
  relationship_owned : ∀ o, ∀ r ∈ (g.entity o).relationships, r < g.relationships.size ∧ (g.relationshipAt r).owner = o
  relationships_nodup : ∀ o, (g.entity o).relationships.Nodup
  source_listed : ∀ o s, (g.entity o).source = some s → s ∈ (g.entity o).attributes

namespace Sound

variable {g : Graph}

theorem source_lt (hg : g.Sound) {o : EntityId} {s : AttributeId} (h : (g.entity o).source = some s) :
    s < g.attributes.size :=
  (hg.attribute_owned o s (hg.source_listed o s h)).1

theorem attributeNamed_lt (hg : g.Sound) {o : EntityId} {name : String} {a : AttributeId}
    (h : g.attributeNamed? o name = some a) : a < g.attributes.size :=
  (hg.attribute_owned o a (List.mem_of_find?_eq_some h)).1

theorem relationshipNamed_lt (hg : g.Sound) {o : EntityId} {name : String} {r : RelationshipId}
    (h : g.relationshipNamed? o name = some r) : r < g.relationships.size :=
  (hg.relationship_owned o r (List.mem_of_find?_eq_some h)).1

theorem modifyEntity (hg : g.Sound) (id : EntityId) {f : Entity → Entity}
    (hf : ∀ e, (f e).attributes = e.attributes ∧ (f e).relationships = e.relationships ∧ (f e).source = e.source) :
    (g.modifyEntity id f).Sound := by
  have same : ∀ o, ((g.modifyEntity id f).entity o).attributes = (g.entity o).attributes ∧
      ((g.modifyEntity id f).entity o).relationships = (g.entity o).relationships ∧
      ((g.modifyEntity id f).entity o).source = (g.entity o).source := by
    intro o
    rw [entity_modifyEntity]
    split
    · exact hf _
    · exact ⟨rfl, rfl, rfl⟩
  constructor
  · intro o a ha
    rw [(same o).1] at ha
    exact hg.attribute_owned o a ha
  · intro o
    rw [(same o).1]
    exact hg.attributes_nodup o
  · intro o r hr
    rw [(same o).2.1] at hr
    exact hg.relationship_owned o r hr
  · intro o
    rw [(same o).2.1]
    exact hg.relationships_nodup o
  · intro o s hs
    rw [(same o).2.2] at hs
    rw [(same o).1]
    exact hg.source_listed o s hs

theorem setState (hg : g.Sound) (id : EntityId) (state : EntityState) : (g.setState id state).Sound :=
  hg.modifyEntity id fun _ => ⟨rfl, rfl, rfl⟩

theorem setStates (hg : g.Sound) (ids : List EntityId) (state : EntityState) : (g.setStates ids state).Sound := by
  unfold Graph.setStates
  induction ids generalizing g with
  | nil => exact hg
  | cons id ids ih => exact ih (hg.setState id state)

/-- An attribute in the list of an entity may become its source. -/
theorem setSource (hg : g.Sound) {id : EntityId} {s : AttributeId} (hs : s ∈ (g.entity id).attributes) :
    (g.modifyEntity id fun e => { e with source := some s }).Sound := by
  have hid := g.lt_size_of_mem_attributes hs
  have lists : ∀ o, ((g.modifyEntity id fun e => { e with source := some s }).entity o).attributes =
        (g.entity o).attributes ∧
      ((g.modifyEntity id fun e => { e with source := some s }).entity o).relationships =
        (g.entity o).relationships := by
    intro o
    rw [entity_modifyEntity]
    split <;> exact ⟨rfl, rfl⟩
  constructor
  · intro o a ha
    rw [(lists o).1] at ha
    exact hg.attribute_owned o a ha
  · intro o
    rw [(lists o).1]
    exact hg.attributes_nodup o
  · intro o r hr
    rw [(lists o).2] at hr
    exact hg.relationship_owned o r hr
  · intro o
    rw [(lists o).2]
    exact hg.relationships_nodup o
  · intro o t ht
    rw [(lists o).1]
    by_cases ho : o = id
    · subst ho
      rw [entity_modifyEntity_self _ _ hid] at ht
      obtain rfl := Option.some.inj ht
      exact hs
    · rw [entity_modifyEntity_of_ne _ _ ho] at ht
      exact hg.source_listed o t ht

theorem modifyAttribute (hg : g.Sound) (a : AttributeId) {f : Attribute → Attribute}
    (hf : (f (g.attributeAt a)).owner = (g.attributeAt a).owner) : (g.modifyAttribute a f).Sound := by
  refine ⟨fun o b hb => ?_, hg.attributes_nodup, hg.relationship_owned, hg.relationships_nodup, hg.source_listed⟩
  obtain ⟨hlt, howner⟩ := hg.attribute_owned o b hb
  refine ⟨by simpa using hlt, ?_⟩
  rw [attributeAt_modifyAttribute]
  split
  · rename_i h
    rw [← h.1, hf, h.1, howner]
  · exact howner

theorem modifyRelationship (hg : g.Sound) (r : RelationshipId) {f : Relationship → Relationship}
    (hf : (f (g.relationshipAt r)).owner = (g.relationshipAt r).owner) : (g.modifyRelationship r f).Sound := by
  refine ⟨hg.attribute_owned, hg.attributes_nodup, fun o s hs => ?_, hg.relationships_nodup, hg.source_listed⟩
  obtain ⟨hlt, howner⟩ := hg.relationship_owned o s hs
  refine ⟨by simpa using hlt, ?_⟩
  rw [relationshipAt_modifyRelationship]
  split
  · rename_i h
    rw [← h.1, hf, h.1, howner]
  · exact howner

theorem addAttribute (hg : g.Sound) (a : Attribute) : (g.addAttribute a).Sound := by
  have member : ∀ o, ∀ b ∈ ((g.addAttribute a).entity o).attributes,
      b ∈ (g.entity o).attributes ∨ b = g.attributes.size ∧ a.owner = o := by
    intro o b hb
    rw [entity_addAttribute] at hb
    split at hb
    · rename_i h
      rcases List.mem_append.1 hb with hb | hb
      · exact .inl hb
      · exact .inr ⟨List.mem_singleton.1 hb, h.1⟩
    · exact .inl hb
  constructor
  · intro o b hb
    rw [attributeAt_addAttribute, size_attributes_addAttribute]
    rcases member o b hb with hb | ⟨rfl, ho⟩
    · obtain ⟨hlt, howner⟩ := hg.attribute_owned o b hb
      rw [if_neg (Nat.ne_of_lt hlt)]
      exact ⟨Nat.lt_succ_of_lt hlt, howner⟩
    · rw [if_pos rfl]
      exact ⟨Nat.lt_succ_self _, ho⟩
  · intro o
    rw [entity_addAttribute]
    split
    · have fresh : g.attributes.size ∉ (g.entity o).attributes := by
        intro h
        exact Nat.lt_irrefl _ (hg.attribute_owned o _ h).1
      refine List.nodup_append'.2 ⟨hg.attributes_nodup o, by simp, ?_⟩
      simpa using fresh
    · exact hg.attributes_nodup o
  · intro o r hr
    rw [entity_addAttribute] at hr
    split at hr <;> exact hg.relationship_owned o r hr
  · intro o
    rw [entity_addAttribute]
    split <;> exact hg.relationships_nodup o
  · intro o s hs
    have same : ((g.addAttribute a).entity o).source = (g.entity o).source := by
      rw [entity_addAttribute]
      split <;> rfl
    have hs := hg.source_listed o s (same ▸ hs)
    rw [entity_addAttribute]
    split
    · exact List.mem_append_left _ hs
    · exact hs

theorem addRelationship (hg : g.Sound) (r : Relationship) : (g.addRelationship r).Sound := by
  have member : ∀ o, ∀ s ∈ ((g.addRelationship r).entity o).relationships,
      s ∈ (g.entity o).relationships ∨ s = g.relationships.size ∧ r.owner = o := by
    intro o s hs
    rw [entity_addRelationship] at hs
    split at hs
    · rename_i h
      rcases List.mem_append.1 hs with hs | hs
      · exact .inl hs
      · exact .inr ⟨List.mem_singleton.1 hs, h.1⟩
    · exact .inl hs
  constructor
  · intro o a ha
    rw [entity_addRelationship] at ha
    split at ha <;> exact hg.attribute_owned o a ha
  · intro o
    rw [entity_addRelationship]
    split <;> exact hg.attributes_nodup o
  · intro o s hs
    rw [relationshipAt_addRelationship, size_relationships_addRelationship]
    rcases member o s hs with hs | ⟨rfl, ho⟩
    · obtain ⟨hlt, howner⟩ := hg.relationship_owned o s hs
      rw [if_neg (Nat.ne_of_lt hlt)]
      exact ⟨Nat.lt_succ_of_lt hlt, howner⟩
    · rw [if_pos rfl]
      exact ⟨Nat.lt_succ_self _, ho⟩
  · intro o
    rw [entity_addRelationship]
    split
    · have fresh : g.relationships.size ∉ (g.entity o).relationships := by
        intro h
        exact Nat.lt_irrefl _ (hg.relationship_owned o _ h).1
      refine List.nodup_append'.2 ⟨hg.relationships_nodup o, by simp, ?_⟩
      simpa using fresh
    · exact hg.relationships_nodup o
  · intro o s hs
    have same : ((g.addRelationship r).entity o).source = (g.entity o).source := by
      rw [entity_addRelationship]
      split <;> rfl
    have hs := hg.source_listed o s (same ▸ hs)
    rw [entity_addRelationship]
    split <;> exact hs

end Sound

/-! ### Declared types -/

/-- A type as it is declared, without its members. -/
structure IsBare (e : Entity) : Prop where
  attributes : e.attributes = []
  relationships : e.relationships = []
  source : e.source = none
  superEntity : e.superEntity = none
  state : e.state = .unresolved
  nested : e.nested.filterMap (·.target) = []

theorem Sound.addEntity {g : Graph} (hg : g.Sound) {e : Entity} (he : IsBare e) :
    (g.push e).Sound := by
  have hentity := g.entity_push e
  constructor
  · intro o a ha
    rw [hentity] at ha
    split at ha
    · rw [he.attributes] at ha
      cases ha
    · exact hg.attribute_owned o a ha
  · intro o
    rw [hentity]
    split
    · rw [he.attributes]
      exact List.nodup_nil
    · exact hg.attributes_nodup o
  · intro o r hr
    rw [hentity] at hr
    split at hr
    · rw [he.relationships] at hr
      cases hr
    · exact hg.relationship_owned o r hr
  · intro o
    rw [hentity]
    split
    · rw [he.relationships]
      exact List.nodup_nil
    · exact hg.relationships_nodup o
  · intro o s hs
    rw [hentity] at hs ⊢
    by_cases ho : o = g.entities.size
    · rw [if_pos ho, he.source] at hs
      cases hs
    · rw [if_neg ho] at hs ⊢
      exact hg.source_listed o s hs

/-! ### Changes of one entity -/

structure OnlyChanges (c : EntityId) (g h : Graph) : Prop where
  outline : h.outline = g.outline
  entity : ∀ o, o ≠ c → h.entity o = g.entity o
  progress : (h.entity c).state = (g.entity c).state ∧ (h.entity c).superEntity = (g.entity c).superEntity
  size_attributes : g.attributes.size ≤ h.attributes.size
  attributeAt : ∀ a < g.attributes.size, (g.attributeAt a).owner ≠ c → h.attributeAt a = g.attributeAt a
  attributes : (g.entity c).attributes <+: (h.entity c).attributes
  size_relationships : g.relationships.size ≤ h.relationships.size
  relationshipAt : ∀ r < g.relationships.size, (g.relationshipAt r).owner ≠ c → h.relationshipAt r = g.relationshipAt r
  relationships : (g.entity c).relationships <+: (h.entity c).relationships

namespace OnlyChanges

variable {c : EntityId} {g h k : Graph}

theorem refl (c : EntityId) (g : Graph) : OnlyChanges c g g where
  outline := rfl
  entity _ _ := rfl
  progress := ⟨rfl, rfl⟩
  size_attributes := Nat.le_refl _
  attributeAt _ _ _ := rfl
  attributes := List.prefix_refl _
  size_relationships := Nat.le_refl _
  relationshipAt _ _ _ := rfl
  relationships := List.prefix_refl _

theorem trans (first : OnlyChanges c g h) (second : OnlyChanges c h k) : OnlyChanges c g k where
  outline := second.outline.trans first.outline
  entity o ho := (second.entity o ho).trans (first.entity o ho)
  progress := ⟨second.progress.1.trans first.progress.1, second.progress.2.trans first.progress.2⟩
  size_attributes := Nat.le_trans first.size_attributes second.size_attributes
  attributeAt a ha howner := by
    have same := first.attributeAt a ha howner
    rw [second.attributeAt a (Nat.lt_of_lt_of_le ha first.size_attributes) (by rwa [same]), same]
  attributes := first.attributes.trans second.attributes
  size_relationships := Nat.le_trans first.size_relationships second.size_relationships
  relationshipAt r hr howner := by
    have same := first.relationshipAt r hr howner
    rw [second.relationshipAt r (Nat.lt_of_lt_of_le hr first.size_relationships) (by rwa [same]), same]
  relationships := first.relationships.trans second.relationships

theorem addAttribute (g : Graph) (a : Attribute) : OnlyChanges a.owner g (g.addAttribute a) where
  outline := outline_addAttribute ..
  entity o ho := by rw [entity_addAttribute, if_neg fun e => ho e.1.symm]
  progress := by
    rw [entity_addAttribute]
    split <;> exact ⟨rfl, rfl⟩
  size_attributes := by simp
  attributeAt b hb _ := by rw [attributeAt_addAttribute, if_neg (Nat.ne_of_lt hb)]
  attributes := by
    rw [entity_addAttribute]
    split
    · exact List.prefix_append ..
    · exact List.prefix_refl _
  size_relationships := Nat.le_refl _
  relationshipAt _ _ _ := rfl
  relationships := by
    rw [entity_addAttribute]
    split <;> exact List.prefix_refl _

theorem addRelationship (g : Graph) (r : Relationship) : OnlyChanges r.owner g (g.addRelationship r) where
  outline := outline_addRelationship ..
  entity o ho := by rw [entity_addRelationship, if_neg fun e => ho e.1.symm]
  progress := by
    rw [entity_addRelationship]
    split <;> exact ⟨rfl, rfl⟩
  size_attributes := Nat.le_refl _
  attributeAt _ _ _ := rfl
  attributes := by
    rw [entity_addRelationship]
    split <;> exact List.prefix_refl _
  size_relationships := by simp
  relationshipAt s hs _ := by rw [relationshipAt_addRelationship, if_neg (Nat.ne_of_lt hs)]
  relationships := by
    rw [entity_addRelationship]
    split
    · exact List.prefix_append ..
    · exact List.prefix_refl _

theorem setSource (c : EntityId) (g : Graph) (s : AttributeId) :
    OnlyChanges c g (g.modifyEntity c fun e => { e with source := some s }) where
  outline := outline_modifyEntity _ _ fun _ => rfl
  entity o ho := entity_modifyEntity_of_ne _ _ ho
  progress := by
    rw [entity_modifyEntity]
    split <;> exact ⟨rfl, rfl⟩
  size_attributes := Nat.le_refl _
  attributeAt _ _ _ := rfl
  attributes := by
    rw [entity_modifyEntity]
    split <;> exact List.prefix_refl _
  size_relationships := Nat.le_refl _
  relationshipAt _ _ _ := rfl
  relationships := by
    rw [entity_modifyEntity]
    split <;> exact List.prefix_refl _

theorem modifyAttribute (g : Graph) (a : AttributeId) (f : Attribute → Attribute) :
    OnlyChanges (g.attributeAt a).owner g (g.modifyAttribute a f) where
  outline := rfl
  entity _ _ := rfl
  progress := ⟨rfl, rfl⟩
  size_attributes := by simp
  attributeAt b _ howner := by
    rw [attributeAt_modifyAttribute, if_neg]
    rintro ⟨rfl, -⟩
    exact howner rfl
  attributes := List.prefix_refl _
  size_relationships := Nat.le_refl _
  relationshipAt _ _ _ := rfl
  relationships := List.prefix_refl _

theorem modifyRelationship (g : Graph) (r : RelationshipId) (f : Relationship → Relationship) :
    OnlyChanges (g.relationshipAt r).owner g (g.modifyRelationship r f) where
  outline := rfl
  entity _ _ := rfl
  progress := ⟨rfl, rfl⟩
  size_attributes := Nat.le_refl _
  attributeAt _ _ _ := rfl
  attributes := List.prefix_refl _
  size_relationships := by simp
  relationshipAt s _ howner := by
    rw [relationshipAt_modifyRelationship, if_neg]
    rintro ⟨rfl, -⟩
    exact howner rfl
  relationships := List.prefix_refl _

end OnlyChanges

end Metamodel.Graph
