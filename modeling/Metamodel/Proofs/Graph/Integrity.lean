import Metamodel.Embedded.Nesting
import Metamodel.Proofs.Hierarchy.Agreement

/-!
# Intact graphs

A graph is intact if its parts fit together: every member is in the list of its owner and in no other list, names
tell entities apart, whatever an element refers to exists and is of the kind that is wanted there (`LinkedIn`),
and members stand in their lists in the order of the stages in which they come to be.  Every change that a graph
offers keeps it intact, if what it puts in refers to what is there.  All indices in an intact graph are in range.
-/

namespace Metamodel

/-! ### Stages -/

/-- The stage in which an attribute comes to be: it is declared, or mapped from an embedded value, or inherited. -/
def Attribute.stage (a : Attribute) : Nat :=
  if a.isInherited then 2 else if a.isMapped then 1 else 0

/-- The stage in which a relationship comes to be: it is declared, or inherited, or the counterpart of another. -/
def Relationship.stage (r : Relationship) : Nat :=
  if r.isReverse then 3 else if r.isInherited then 2 else 0

/-- Attributes of kinds with one name differ at most in their settings. -/
theorem Attribute.isSource_congr {a b : Attribute} (h : a.kind.name = b.kind.name) : a.isSource = b.isSource := by
  unfold isSource
  revert h
  cases a.kind <;> cases b.kind <;> simp [AttributeKind.name]

theorem Attribute.isMapped_congr {a b : Attribute} (h : a.kind.name = b.kind.name) : a.isMapped = b.isMapped := by
  unfold isMapped
  revert h
  cases a.kind <;> cases b.kind <;> simp [AttributeKind.name]

theorem Attribute.stage_congr {a b : Attribute} (ho : a.originalOwner = b.originalOwner)
    (hk : a.kind.name = b.kind.name) : a.stage = b.stage := by
  unfold stage isInherited
  rw [ho, isMapped_congr hk]

theorem Relationship.stage_congr {a b : Relationship} (ho : a.originalOwner = b.originalOwner)
    (hr : a.reversal = b.reversal) : a.stage = b.stage := by
  unfold stage isInherited isReverse
  rw [ho, hr]

/-! ### References -/

structure Entity.LinkedIn (g : Graph) (e : Entity) : Prop where
  superEntity : ∀ p, e.superEntity = some p → p ∈ g.idsOfKind .object
  nested : ∀ t ∈ e.nested.filterMap (·.target), t ∈ g.idsOfKind .embeddedValue

structure Attribute.LinkedIn (g : Graph) (a : Attribute) : Prop where
  originalOwner : ∀ o, a.originalOwner = some o → o < g.entities.size
  enumeration : ∀ t, a.enumerationTarget = some t → t ∈ g.idsOfKind .enumeration
  ownership : ∀ w, a.ownership = some w → w.relationship < g.relationships.size

structure Relationship.LinkedIn (g : Graph) (r : Relationship) : Prop where
  owner : r.owner ∈ g.idsOfKind .object
  originalOwner : ∀ o, r.originalOwner = some o → o ∈ g.idsOfKind .object
  related : ∀ e, r.related = some e → e ∈ g.idsOfKind .object
  reversal : ∀ v, r.reversal = some v → v.forward < g.relationships.size

/-- `h` has everything in `g` that can be referred to. -/
structure Graph.Covers (g h : Graph) : Prop where
  entities : g.entities.size ≤ h.entities.size
  kinds : ∀ kind, ∀ id ∈ g.idsOfKind kind, id ∈ h.idsOfKind kind
  relationships : g.relationships.size ≤ h.relationships.size

section Mono

variable {g h : Graph}

private theorem Graph.covers_of_outline_eq (houtline : h.outline = g.outline)
    (hsize : g.relationships.size ≤ h.relationships.size) : g.Covers h where
  entities := Nat.le_of_eq (size_of_outline_eq houtline).symm
  kinds kind id hid := by rwa [idsOfKind_of_outline_eq houtline]
  relationships := hsize

theorem Entity.LinkedIn.mono {e : Entity} (he : e.LinkedIn g) (hcovers : g.Covers h) : e.LinkedIn h where
  superEntity p hp := hcovers.kinds _ p (he.superEntity p hp)
  nested t ht := hcovers.kinds _ t (he.nested t ht)

theorem Attribute.LinkedIn.mono {a : Attribute} (ha : a.LinkedIn g) (hcovers : g.Covers h) : a.LinkedIn h where
  originalOwner o ho := Nat.lt_of_lt_of_le (ha.originalOwner o ho) hcovers.entities
  enumeration t ht := hcovers.kinds _ t (ha.enumeration t ht)
  ownership w hw := Nat.lt_of_lt_of_le (ha.ownership w hw) hcovers.relationships

theorem Relationship.LinkedIn.mono {r : Relationship} (hr : r.LinkedIn g) (hcovers : g.Covers h) : r.LinkedIn h where
  owner := hcovers.kinds _ _ hr.owner
  originalOwner o ho := hcovers.kinds _ o (hr.originalOwner o ho)
  related e he := hcovers.kinds _ e (hr.related e he)
  reversal v hv := Nat.lt_of_lt_of_le (hr.reversal v hv) hcovers.relationships

end Mono

namespace Graph

/-! ### The whole graph -/

/-- The parts of the graph fit together.  As the graph is sound, a member in the list of its owner is there once, and
in no other list. -/
structure Intact (g : Graph) : Prop extends g.Sound where
  distinct : ∀ i < g.entities.size, ∀ j < g.entities.size, g.qualifiedName i = g.qualifiedName j → i = j
  attribute_listed : ∀ a < g.attributes.size, a ∈ (g.entity (g.attributeAt a).owner).attributes
  relationship_listed : ∀ r < g.relationships.size, r ∈ (g.entity (g.relationshipAt r).owner).relationships
  source_isSource : ∀ o s, (g.entity o).source = some s → (g.attributeAt s).isSource = true
  entity_linked : ∀ o, (g.entity o).LinkedIn g
  attribute_linked : ∀ a < g.attributes.size, (g.attributeAt a).LinkedIn g
  relationship_linked : ∀ r < g.relationships.size, (g.relationshipAt r).LinkedIn g
  attributes_staged : ∀ o, (g.attributesOf o).Pairwise (·.stage ≤ ·.stage)
  relationships_staged : ∀ o, (g.relationshipsOf o).Pairwise (·.stage ≤ ·.stage)

variable {g h : Graph}

theorem intact_empty : empty.Intact where
  attribute_owned o a ha := by cases ha
  attributes_nodup o := List.nodup_nil
  relationship_owned o r hr := by cases hr
  relationships_nodup o := List.nodup_nil
  source_listed o s hs := by cases hs
  distinct i hi := by cases hi
  attribute_listed a ha := by cases ha
  relationship_listed r hr := by cases hr
  source_isSource o s hs := by cases hs
  entity_linked o := ⟨fun p hp => (by cases hp), fun t ht => (by cases ht)⟩
  attribute_linked a ha := by cases ha
  relationship_linked r hr := by cases hr
  attributes_staged o := .nil
  relationships_staged o := .nil

namespace Intact

/-- Interfaces do not matter. -/
theorem congr (hg : g.Intact) (he : h.entities = g.entities) (ha : h.attributes = g.attributes)
    (hr : h.relationships = g.relationships) : h.Intact := by
  obtain ⟨entities, attributes, relationships, interfaces, numbered⟩ := h
  obtain ⟨entities', attributes', relationships', interfaces', numbered'⟩ := g
  dsimp only at he ha hr
  subst he ha hr
  have hcovers : Covers ⟨entities, attributes, relationships, interfaces', numbered⟩
      ⟨entities, attributes, relationships, interfaces, numbered⟩ := covers_of_outline_eq rfl (Nat.le_refl _)
  exact {
    attribute_owned := hg.attribute_owned
    attributes_nodup := hg.attributes_nodup
    relationship_owned := hg.relationship_owned
    relationships_nodup := hg.relationships_nodup
    source_listed := hg.source_listed
    distinct := hg.distinct
    attribute_listed := hg.attribute_listed
    relationship_listed := hg.relationship_listed
    source_isSource := hg.source_isSource
    entity_linked := fun o => (hg.entity_linked o).mono hcovers
    attribute_linked := fun a ha => (hg.attribute_linked a ha).mono hcovers
    relationship_linked := fun r hr => (hg.relationship_linked r hr).mono hcovers
    attributes_staged := hg.attributes_staged
    relationships_staged := hg.relationships_staged }

theorem distinct_of_outline_eq (hg : g.Intact) (houtline : h.outline = g.outline) :
    ∀ i < h.entities.size, ∀ j < h.entities.size, h.qualifiedName i = h.qualifiedName j → i = j := by
  simp only [size_of_outline_eq houtline, qualifiedName_of_outline_eq houtline]
  exact hg.distinct

/-! ### Changes of an element -/

theorem modifyEntity (hg : g.Intact) (id : EntityId) {f : Entity → Entity} (houtline : ∀ e, (f e).outline = e.outline)
    (hf : ∀ e, (f e).attributes = e.attributes ∧ (f e).relationships = e.relationships ∧ (f e).source = e.source)
    (hlinked : (f (g.entity id)).LinkedIn g) : (g.modifyEntity id f).Intact := by
  have houtline' : (g.modifyEntity id f).outline = g.outline := outline_modifyEntity _ _ houtline
  have hcovers : g.Covers (g.modifyEntity id f) := covers_of_outline_eq houtline' (Nat.le_refl _)
  have same : ∀ o, ((g.modifyEntity id f).entity o).attributes = (g.entity o).attributes ∧
      ((g.modifyEntity id f).entity o).relationships = (g.entity o).relationships ∧
      ((g.modifyEntity id f).entity o).source = (g.entity o).source := by
    intro o
    rw [entity_modifyEntity]
    split
    · exact hf _
    · exact ⟨rfl, rfl, rfl⟩
  exact {
    toSound := hg.toSound.modifyEntity id hf
    distinct := hg.distinct_of_outline_eq houtline'
    attribute_listed := by
      intro a ha
      rw [(same _).1]
      exact hg.attribute_listed a ha
    relationship_listed := by
      intro r hr
      rw [(same _).2.1]
      exact hg.relationship_listed r hr
    source_isSource := by
      intro o s hs
      rw [(same o).2.2] at hs
      exact hg.source_isSource o s hs
    entity_linked := by
      intro o
      rw [entity_modifyEntity]
      split
      · rename_i h
        rw [← h.1]
        exact ⟨(hlinked.mono hcovers).superEntity, (hlinked.mono hcovers).nested⟩
      · exact (hg.entity_linked o).mono hcovers
    attribute_linked := fun a ha => (hg.attribute_linked a ha).mono hcovers
    relationship_linked := fun r hr => (hg.relationship_linked r hr).mono hcovers
    attributes_staged := by
      intro o
      rw [attributesOf, (same o).1]
      exact hg.attributes_staged o
    relationships_staged := by
      intro o
      rw [relationshipsOf, (same o).2.1]
      exact hg.relationships_staged o }

theorem setSource (hg : g.Intact) {id : EntityId} {s : AttributeId} (hs : s ∈ (g.entity id).attributes)
    (hsource : (g.attributeAt s).isSource = true) :
    (g.modifyEntity id fun e => { e with source := some s }).Intact := by
  have houtline : (g.modifyEntity id fun e => { e with source := some s }).outline = g.outline :=
    outline_modifyEntity _ _ fun _ => rfl
  have hcovers := covers_of_outline_eq houtline (Nat.le_refl g.relationships.size)
  have same : ∀ o, ((g.modifyEntity id fun e => { e with source := some s }).entity o).attributes =
        (g.entity o).attributes ∧
      ((g.modifyEntity id fun e => { e with source := some s }).entity o).relationships =
        (g.entity o).relationships := by
    intro o
    rw [entity_modifyEntity]
    split <;> exact ⟨rfl, rfl⟩
  exact {
    toSound := hg.toSound.setSource hs
    distinct := hg.distinct_of_outline_eq houtline
    attribute_listed := by
      intro a ha
      rw [(same _).1]
      exact hg.attribute_listed a ha
    relationship_listed := by
      intro r hr
      rw [(same _).2]
      exact hg.relationship_listed r hr
    source_isSource := by
      intro o t ht
      rw [entity_modifyEntity] at ht
      split at ht
      · obtain rfl := Option.some.inj ht
        exact hsource
      · exact hg.source_isSource o t ht
    entity_linked := by
      intro o
      have hold := (hg.entity_linked o).mono hcovers
      rw [entity_modifyEntity]
      split
      · exact ⟨hold.superEntity, hold.nested⟩
      · exact hold
    attribute_linked := fun a ha => (hg.attribute_linked a ha).mono hcovers
    relationship_linked := fun r hr => (hg.relationship_linked r hr).mono hcovers
    attributes_staged := by
      intro o
      rw [attributesOf, (same o).1]
      exact hg.attributes_staged o
    relationships_staged := by
      intro o
      rw [relationshipsOf, (same o).2]
      exact hg.relationships_staged o }

/-- A member of a list may be replaced by one of the same stage. -/
private theorem pairwise_map_congr {α : Type} {stage : α → Nat} {ids : List Nat} {read read' : Nat → α}
    (hread : ∀ i ∈ ids, stage (read' i) = stage (read i)) (h : (ids.map read).Pairwise (stage · ≤ stage ·)) :
    (ids.map read').Pairwise (stage · ≤ stage ·) := by
  rw [List.pairwise_map] at h ⊢
  refine h.imp_of_mem fun {i j} hi hj hij => ?_
  rwa [hread i hi, hread j hj]

theorem modifyAttribute (hg : g.Intact) (a : AttributeId) {f : Attribute → Attribute}
    (howner : (f (g.attributeAt a)).owner = (g.attributeAt a).owner)
    (horiginal : (f (g.attributeAt a)).originalOwner = (g.attributeAt a).originalOwner)
    (hkind : (f (g.attributeAt a)).kind.name = (g.attributeAt a).kind.name)
    (hlinked : (g.attributeAt a).LinkedIn g → (f (g.attributeAt a)).LinkedIn g) : (g.modifyAttribute a f).Intact := by
  have hcovers : g.Covers (g.modifyAttribute a f) := covers_of_outline_eq rfl (Nat.le_refl _)
  have hread : ∀ b, (g.modifyAttribute a f).attributeAt b = g.attributeAt b ∨
      b = a ∧ (g.modifyAttribute a f).attributeAt b = f (g.attributeAt a) := by
    intro b
    rw [attributeAt_modifyAttribute]
    split
    · rename_i h
      exact .inr ⟨h.1.symm, by rw [h.1]⟩
    · exact .inl rfl
  exact {
    toSound := hg.toSound.modifyAttribute a howner
    distinct := hg.distinct
    attribute_listed := by
      intro b hb
      rw [size_modifyAttribute] at hb
      have hlisted := hg.attribute_listed b hb
      rcases hread b with h | ⟨rfl, h⟩
      · rwa [h]
      · rwa [h, howner]
    relationship_listed := hg.relationship_listed
    source_isSource := by
      intro o s hs
      have hsource := hg.source_isSource o s hs
      rcases hread s with h | ⟨rfl, h⟩
      · rwa [h]
      · rwa [h, Attribute.isSource_congr hkind]
    entity_linked := fun o => (hg.entity_linked o).mono hcovers
    attribute_linked := by
      intro b hb
      rw [size_modifyAttribute] at hb
      have hold := hg.attribute_linked b hb
      rcases hread b with h | ⟨rfl, h⟩
      · rw [h]
        exact hold.mono hcovers
      · rw [h]
        exact (hlinked hold).mono hcovers
    relationship_linked := fun r hr => (hg.relationship_linked r hr).mono hcovers
    attributes_staged := by
      intro o
      refine pairwise_map_congr (fun b _ => ?_) (hg.attributes_staged o)
      rcases hread b with h | ⟨rfl, h⟩
      · rw [h]
      · rw [h, Attribute.stage_congr horiginal hkind]
    relationships_staged := hg.relationships_staged }

theorem modifyRelationship (hg : g.Intact) (r : RelationshipId) {f : Relationship → Relationship}
    (howner : (f (g.relationshipAt r)).owner = (g.relationshipAt r).owner)
    (horiginal : (f (g.relationshipAt r)).originalOwner = (g.relationshipAt r).originalOwner)
    (hreversal : (f (g.relationshipAt r)).reversal = (g.relationshipAt r).reversal)
    (hlinked : (g.relationshipAt r).LinkedIn g → (f (g.relationshipAt r)).LinkedIn g) :
    (g.modifyRelationship r f).Intact := by
  have hcovers : g.Covers (g.modifyRelationship r f) := covers_of_outline_eq rfl (by simp)
  have hread : ∀ s, (g.modifyRelationship r f).relationshipAt s = g.relationshipAt s ∨
      s = r ∧ (g.modifyRelationship r f).relationshipAt s = f (g.relationshipAt r) := by
    intro s
    rw [relationshipAt_modifyRelationship]
    split
    · rename_i h
      exact .inr ⟨h.1.symm, by rw [h.1]⟩
    · exact .inl rfl
  exact {
    toSound := hg.toSound.modifyRelationship r howner
    distinct := hg.distinct
    attribute_listed := hg.attribute_listed
    relationship_listed := by
      intro s hs
      rw [size_modifyRelationship] at hs
      have hlisted := hg.relationship_listed s hs
      rcases hread s with h | ⟨rfl, h⟩
      · rwa [h]
      · rwa [h, howner]
    source_isSource := hg.source_isSource
    entity_linked := fun o => (hg.entity_linked o).mono hcovers
    attribute_linked := fun a ha => (hg.attribute_linked a ha).mono hcovers
    relationship_linked := by
      intro s hs
      rw [size_modifyRelationship] at hs
      have hold := hg.relationship_linked s hs
      rcases hread s with h | ⟨rfl, h⟩
      · rw [h]
        exact hold.mono hcovers
      · rw [h]
        exact (hlinked hold).mono hcovers
    attributes_staged := hg.attributes_staged
    relationships_staged := by
      intro o
      refine pairwise_map_congr (fun s _ => ?_) (hg.relationships_staged o)
      rcases hread s with h | ⟨rfl, h⟩
      · rw [h]
      · rw [h, Relationship.stage_congr horiginal hreversal] }

/-! ### One more element -/

/-- A member of a stage that no other member of the list is beyond may be put at the end. -/
private theorem pairwise_map_concat {α : Type} {stage : α → Nat} {ids : List Nat} {read read' : Nat → α} {i : Nat}
    {x : α} (hread : ∀ j ∈ ids, read' j = read j) (hi : read' i = x) (hstage : ∀ y ∈ ids.map read, stage y ≤ stage x)
    (h : (ids.map read).Pairwise (stage · ≤ stage ·)) : ((ids ++ [i]).map read').Pairwise (stage · ≤ stage ·) := by
  rw [List.map_append, List.map_congr_left hread]
  refine List.pairwise_append.2 ⟨h, List.pairwise_singleton _ _, fun y hy z hz => ?_⟩
  obtain rfl : z = x := by simpa [hi] using hz
  exact hstage y hy

theorem addAttribute (hg : g.Intact) {a : Attribute} (howner : a.owner < g.entities.size) (hlinked : a.LinkedIn g)
    (hstage : ∀ b ∈ g.attributesOf a.owner, b.stage ≤ a.stage) : (g.addAttribute a).Intact := by
  have hcovers : g.Covers (g.addAttribute a) := covers_of_outline_eq (outline_addAttribute ..) (Nat.le_refl _)
  have hentity : ∀ o, (g.addAttribute a).entity o =
      { g.entity o with attributes := ((g.addAttribute a).entity o).attributes } := by
    intro o
    rw [entity_addAttribute]
    split <;> rfl
  have hold : ∀ b < g.attributes.size, (g.addAttribute a).attributeAt b = g.attributeAt b := by
    intro b hb
    rw [attributeAt_addAttribute, if_neg (Nat.ne_of_lt hb)]
  have hnew : (g.addAttribute a).attributeAt g.attributes.size = a := by
    rw [attributeAt_addAttribute, if_pos rfl]
  have hindex : ∀ b < (g.addAttribute a).attributes.size, b < g.attributes.size ∨ b = g.attributes.size := by
    intro b hb
    rw [size_attributes_addAttribute] at hb
    omega
  exact {
    toSound := hg.toSound.addAttribute a
    distinct := hg.distinct_of_outline_eq (outline_addAttribute ..)
    attribute_listed := by
      intro b hb
      rcases hindex b hb with hb | rfl
      · rw [hold b hb, entity_addAttribute]
        split
        · exact List.mem_append_left _ (hg.attribute_listed b hb)
        · exact hg.attribute_listed b hb
      · rw [hnew, entity_addAttribute, if_pos ⟨rfl, howner⟩]
        simp
    relationship_listed := by
      intro r hr
      rw [hentity]
      exact hg.relationship_listed r hr
    source_isSource := by
      intro o s hs
      rw [hentity] at hs
      rw [hold s (hg.toSound.source_lt hs)]
      exact hg.source_isSource o s hs
    entity_linked := by
      intro o
      have hlinked' := (hg.entity_linked o).mono hcovers
      rw [hentity]
      exact ⟨hlinked'.superEntity, hlinked'.nested⟩
    attribute_linked := by
      intro b hb
      rcases hindex b hb with hb | rfl
      · rw [hold b hb]
        exact (hg.attribute_linked b hb).mono hcovers
      · rw [hnew]
        exact hlinked.mono hcovers
    relationship_linked := fun r hr => (hg.relationship_linked r hr).mono hcovers
    attributes_staged := by
      intro o
      have hlisted : ∀ b ∈ (g.entity o).attributes, (g.addAttribute a).attributeAt b = g.attributeAt b :=
        fun b hb => hold b (hg.attribute_owned o b hb).1
      rw [attributesOf, entity_addAttribute]
      split
      · rename_i h
        exact pairwise_map_concat hlisted hnew (h.1 ▸ hstage) (hg.attributes_staged o)
      · rw [List.map_congr_left hlisted]
        exact hg.attributes_staged o
    relationships_staged := by
      intro o
      rw [relationshipsOf, hentity]
      exact hg.relationships_staged o }

theorem addRelationship (hg : g.Intact) {r : Relationship} (hlinked : r.LinkedIn g)
    (hstage : ∀ s ∈ g.relationshipsOf r.owner, s.stage ≤ r.stage) : (g.addRelationship r).Intact := by
  have howner := g.lt_size_of_mem_idsOfKind hlinked.owner
  have hcovers : g.Covers (g.addRelationship r) := covers_of_outline_eq (outline_addRelationship ..) (by simp)
  have hentity : ∀ o, (g.addRelationship r).entity o =
      { g.entity o with relationships := ((g.addRelationship r).entity o).relationships } := by
    intro o
    rw [entity_addRelationship]
    split <;> rfl
  have hold : ∀ s < g.relationships.size, (g.addRelationship r).relationshipAt s = g.relationshipAt s := by
    intro s hs
    rw [relationshipAt_addRelationship, if_neg (Nat.ne_of_lt hs)]
  have hnew : (g.addRelationship r).relationshipAt g.relationships.size = r := by
    rw [relationshipAt_addRelationship, if_pos rfl]
  have hindex : ∀ s < (g.addRelationship r).relationships.size,
      s < g.relationships.size ∨ s = g.relationships.size := by
    intro s hs
    rw [size_relationships_addRelationship] at hs
    omega
  exact {
    toSound := hg.toSound.addRelationship r
    distinct := hg.distinct_of_outline_eq (outline_addRelationship ..)
    attribute_listed := by
      intro a ha
      rw [hentity]
      exact hg.attribute_listed a ha
    relationship_listed := by
      intro s hs
      rcases hindex s hs with hs | rfl
      · rw [hold s hs, entity_addRelationship]
        split
        · exact List.mem_append_left _ (hg.relationship_listed s hs)
        · exact hg.relationship_listed s hs
      · rw [hnew, entity_addRelationship, if_pos ⟨rfl, howner⟩]
        simp
    source_isSource := by
      intro o s hs
      rw [hentity] at hs
      exact hg.source_isSource o s hs
    entity_linked := by
      intro o
      have hlinked' := (hg.entity_linked o).mono hcovers
      rw [hentity]
      exact ⟨hlinked'.superEntity, hlinked'.nested⟩
    attribute_linked := fun a ha => (hg.attribute_linked a ha).mono hcovers
    relationship_linked := by
      intro s hs
      rcases hindex s hs with hs | rfl
      · rw [hold s hs]
        exact (hg.relationship_linked s hs).mono hcovers
      · rw [hnew]
        exact hlinked.mono hcovers
    attributes_staged := by
      intro o
      rw [attributesOf, hentity]
      exact hg.attributes_staged o
    relationships_staged := by
      intro o
      have hlisted : ∀ s ∈ (g.entity o).relationships, (g.addRelationship r).relationshipAt s = g.relationshipAt s :=
        fun s hs => hold s (hg.relationship_owned o s hs).1
      rw [relationshipsOf, entity_addRelationship]
      split
      · rename_i h
        exact pairwise_map_concat hlisted hnew (h.1 ▸ hstage) (hg.relationships_staged o)
      · rw [List.map_congr_left hlisted]
        exact hg.relationships_staged o }

/-- A type as it is declared, under a name that no other has. -/
theorem addEntity (hg : g.Intact) {e : Entity} (hbare : IsBare e) (hnew : g.idNamed? e.qualifiedName = none) :
    (g.push e).Intact := by
  have hentity := g.entity_push e
  have hcovers : g.Covers (g.push e) :=
    ⟨by simp, fun kind id hid => by rw [idsOfKind_push]; exact List.mem_append_left _ hid, Nat.le_refl _⟩
  have hold : ∀ o < g.entities.size, (g.push e).entity o = g.entity o := by
    intro o ho
    rw [hentity, if_neg (Nat.ne_of_lt ho)]
  have hfresh : ∀ i < g.entities.size, g.qualifiedName i ≠ e.qualifiedName := by
    intro i hi hname
    rw [idNamed?_eq] at hnew
    have := List.find?_eq_none.1 hnew i (List.mem_range.2 hi)
    simp [hname] at this
  exact {
    toSound := hg.toSound.addEntity hbare
    distinct := by
      intro i hi j hj hij
      simp only [size_push] at hi hj
      rw [qualifiedName_push, qualifiedName_push] at hij
      by_cases hi' : i = g.entities.size <;> by_cases hj' : j = g.entities.size
      · omega
      · rw [if_pos hi', if_neg hj'] at hij
        exact absurd hij.symm (hfresh j (by omega))
      · rw [if_neg hi', if_pos hj'] at hij
        exact absurd hij (hfresh i (by omega))
      · rw [if_neg hi', if_neg hj'] at hij
        exact hg.distinct i (by omega) j (by omega) hij
    attribute_listed := by
      intro a ha
      have hlisted := hg.attribute_listed a ha
      rwa [← hold _ (g.lt_size_of_mem_attributes hlisted)] at hlisted
    relationship_listed := by
      intro r hr
      have hlisted := hg.relationship_listed r hr
      rwa [← hold _ (g.lt_size_of_mem_relationships hlisted)] at hlisted
    source_isSource := by
      intro o s hs
      rw [hentity] at hs
      split at hs
      · rw [hbare.source] at hs
        cases hs
      · exact hg.source_isSource o s hs
    entity_linked := by
      intro o
      rw [hentity]
      split
      · constructor
        · intro p hp
          rw [hbare.superEntity] at hp
          cases hp
        · intro t ht
          rw [hbare.nested] at ht
          cases ht
      · exact (hg.entity_linked o).mono hcovers
    attribute_linked := fun a ha => (hg.attribute_linked a ha).mono hcovers
    relationship_linked := fun r hr => (hg.relationship_linked r hr).mono hcovers
    attributes_staged := by
      intro o
      rw [attributesOf, hentity]
      split
      · rw [hbare.attributes]
        exact .nil
      · exact hg.attributes_staged o
    relationships_staged := by
      intro o
      rw [relationshipsOf, hentity]
      split
      · rw [hbare.relationships]
        exact .nil
      · exact hg.relationships_staged o }

end Intact

/-! ### Indices -/

/-- The indices of entities that the graph has stored. -/
def entityRefs (g : Graph) : List EntityId :=
  (g.entityIds.flatMap fun o => (g.entity o).superEntity.toList ++ g.nestedTargets o) ++
    (g.attributes.toList.flatMap fun a => a.owner :: a.originalOwner.toList ++ a.enumerationTarget.toList) ++
    g.relationships.toList.flatMap fun r => r.owner :: r.originalOwner.toList ++ r.related.toList

/-- The indices of attributes that the graph has stored. -/
def attributeRefs (g : Graph) : List AttributeId :=
  g.entityIds.flatMap fun o => (g.entity o).attributes ++ (g.entity o).source.toList

/-- The indices of relationships that the graph has stored. -/
def relationshipRefs (g : Graph) : List RelationshipId :=
  (g.entityIds.flatMap fun o => (g.entity o).relationships) ++
    (g.attributes.toList.flatMap fun a => (a.ownership.map (·.relationship)).toList) ++
    g.relationships.toList.flatMap fun r => (r.reversal.map (·.forward)).toList

/-- No index that the graph has stored is beyond the end of what it points into. -/
structure InRange (g : Graph) : Prop where
  entities : ∀ o ∈ g.entityRefs, o < g.entities.size
  attributes : ∀ a ∈ g.attributeRefs, a < g.attributes.size
  relationships : ∀ r ∈ g.relationshipRefs, r < g.relationships.size

namespace Intact

theorem related_lt (hg : g.Intact) {r : RelationshipId} (hr : r < g.relationships.size) {e : EntityId}
    (h : (g.relationshipAt r).related = some e) : e < g.entities.size :=
  g.lt_size_of_mem_idsOfKind ((hg.relationship_linked r hr).related e h)

private theorem exists_attributeAt {a : Attribute} (ha : a ∈ g.attributes.toList) :
    ∃ i < g.attributes.size, a = g.attributeAt i := by
  obtain ⟨i, hi, rfl⟩ := Array.mem_iff_getElem.1 (Array.mem_toList_iff.1 ha)
  exact ⟨i, hi, by simp [attributeAt, hi]⟩

private theorem exists_relationshipAt {r : Relationship} (hr : r ∈ g.relationships.toList) :
    ∃ i < g.relationships.size, r = g.relationshipAt i := by
  obtain ⟨i, hi, rfl⟩ := Array.mem_iff_getElem.1 (Array.mem_toList_iff.1 hr)
  exact ⟨i, hi, by simp [relationshipAt, hi]⟩

theorem inRange (hg : g.Intact) : g.InRange := by
  constructor
  · intro o ho
    simp only [entityRefs, List.mem_append, List.mem_flatMap, List.mem_cons, Option.mem_toList] at ho
    rcases ho with (⟨e, -, ho | ho⟩ | ⟨a, ha, ho⟩) | ⟨r, hr, ho⟩
    · exact g.lt_size_of_mem_idsOfKind ((hg.entity_linked e).superEntity o ho)
    · exact g.lt_size_of_mem_idsOfKind ((hg.entity_linked e).nested o ho)
    · obtain ⟨i, hi, rfl⟩ := exists_attributeAt ha
      have hlinked := hg.attribute_linked i hi
      rcases ho with (rfl | ho) | ho
      · exact g.lt_size_of_mem_attributes (hg.attribute_listed i hi)
      · exact hlinked.originalOwner o ho
      · exact g.lt_size_of_mem_idsOfKind (hlinked.enumeration o ho)
    · obtain ⟨i, hi, rfl⟩ := exists_relationshipAt hr
      have hlinked := hg.relationship_linked i hi
      rcases ho with (rfl | ho) | ho
      · exact g.lt_size_of_mem_idsOfKind hlinked.owner
      · exact g.lt_size_of_mem_idsOfKind (hlinked.originalOwner o ho)
      · exact g.lt_size_of_mem_idsOfKind (hlinked.related o ho)
  · intro a ha
    simp only [attributeRefs, List.mem_append, List.mem_flatMap, Option.mem_toList] at ha
    obtain ⟨o, -, ha | ha⟩ := ha
    · exact (hg.attribute_owned o a ha).1
    · exact hg.toSound.source_lt ha
  · intro r hr
    simp only [relationshipRefs, List.mem_append, List.mem_flatMap, Option.mem_toList, Option.map_eq_some_iff] at hr
    rcases hr with (⟨o, -, hr⟩ | ⟨a, ha, w, hw, rfl⟩) | ⟨s, hs, v, hv, rfl⟩
    · exact (hg.relationship_owned o r hr).1
    · obtain ⟨i, hi, rfl⟩ := exists_attributeAt ha
      exact (hg.attribute_linked i hi).ownership w hw
    · obtain ⟨i, hi, rfl⟩ := exists_relationshipAt hs
      exact (hg.relationship_linked i hi).reversal v hv

end Intact

end Graph

end Metamodel
