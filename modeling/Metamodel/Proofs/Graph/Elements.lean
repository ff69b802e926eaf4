import Mathlib.Data.List.Find
import Metamodel.Graph.Basic

/-!
# Elements of a changed graph

What a change of one element, or one more element, does to the elements read by index.  The *outline* of a graph
is what it knows of its entities without their members and the progress of resolution.  No step of resolution
changes the outline of a graph that holds all entities, and names are looked up in the outline (`lookup_congr`).
-/

namespace Metamodel

/-- An entity without what resolution adds to it. -/
def Entity.outline (e : Entity) : Entity :=
  { e with
    superEntity := none, attributes := [], relationships := [], source := none, nested := [], state := .unresolved }

/-- An entity that keeps its index has the outline that the index and the rest of it give. -/
private theorem Entity.outline_keepingId {e changed : Entity} (h : changed.outline = e.outline) :
    ({ changed with id := e.id } : Entity).outline = e.outline := by
  have hsplit : ({ changed with id := e.id } : Entity).outline = { changed.outline with id := e.id } := rfl
  rw [hsplit, h]
  rfl

namespace Graph

variable (g : Graph)

/-! ### Arrays read with a default -/

private theorem getD_modify {α : Type} (xs : Array α) (i : Nat) (f : α → α) (j : Nat) (d : α) :
    (xs.modify i f).getD j d = if i = j ∧ j < xs.size then f (xs.getD j d) else xs.getD j d := by
  by_cases hj : j < xs.size
  · by_cases hi : i = j <;> simp [Array.getD, hj, hi, Array.getElem_modify]
  · simp [Array.getD, hj]

private theorem getD_push {α : Type} (xs : Array α) (x : α) (j : Nat) (d : α) :
    (xs.push x).getD j d = if j = xs.size then x else xs.getD j d := by
  rw [Array.getD_eq_getD_getElem?, Array.getElem?_push, Array.getD_eq_getD_getElem?]
  by_cases h : xs.size = j
  · simp [h]
  · simp [Ne.symm h]

/-! ### A change of an entity -/

theorem entity_modifyEntity (id : EntityId) (f : Entity → Entity) (o : EntityId) :
    (g.modifyEntity id f).entity o =
      if id = o ∧ o < g.entities.size then { f (g.entity o) with id := (g.entity o).id } else g.entity o :=
  getD_modify g.entities id (fun e => { f e with id := e.id }) o default

theorem entity_modifyEntity_self {id : EntityId} (f : Entity → Entity) (h : id < g.entities.size) :
    (g.modifyEntity id f).entity id = { f (g.entity id) with id := (g.entity id).id } := by
  rw [entity_modifyEntity, if_pos ⟨rfl, h⟩]

theorem entity_modifyEntity_of_ne {id o : EntityId} (f : Entity → Entity) (h : o ≠ id) :
    (g.modifyEntity id f).entity o = g.entity o := by
  rw [entity_modifyEntity, if_neg fun e => h e.1.symm]

@[simp] theorem attributeAt_modifyEntity (id : EntityId) (f : Entity → Entity) (a : AttributeId) :
    (g.modifyEntity id f).attributeAt a = g.attributeAt a := rfl

@[simp] theorem relationshipAt_modifyEntity (id : EntityId) (f : Entity → Entity) (r : RelationshipId) :
    (g.modifyEntity id f).relationshipAt r = g.relationshipAt r := rfl

@[simp] theorem size_modifyEntity (id : EntityId) (f : Entity → Entity) :
    (g.modifyEntity id f).entities.size = g.entities.size := by
  simp [modifyEntity]

/-- Only an entity of the graph has members. -/
theorem lt_size_of_mem_attributes {o : EntityId} {a : AttributeId} (h : a ∈ (g.entity o).attributes) :
    o < g.entities.size := by
  rcases Nat.lt_or_ge o g.entities.size with ho | ho
  · exact ho
  · simp [entity, Array.getD, Nat.not_lt.2 ho, show (default : Entity).attributes = [] from rfl] at h

theorem lt_size_of_mem_relationships {o : EntityId} {r : RelationshipId} (h : r ∈ (g.entity o).relationships) :
    o < g.entities.size := by
  rcases Nat.lt_or_ge o g.entities.size with ho | ho
  · exact ho
  · simp [entity, Array.getD, Nat.not_lt.2 ho, show (default : Entity).relationships = [] from rfl] at h

/-! ### A change of a member -/

@[simp] theorem entity_modifyAttribute (a : AttributeId) (f : Attribute → Attribute) (o : EntityId) :
    (g.modifyAttribute a f).entity o = g.entity o := rfl

@[simp] theorem relationshipAt_modifyAttribute (a : AttributeId) (f : Attribute → Attribute) (r : RelationshipId) :
    (g.modifyAttribute a f).relationshipAt r = g.relationshipAt r := rfl

theorem attributeAt_modifyAttribute (a : AttributeId) (f : Attribute → Attribute) (b : AttributeId) :
    (g.modifyAttribute a f).attributeAt b =
      if a = b ∧ b < g.attributes.size then f (g.attributeAt b) else g.attributeAt b :=
  getD_modify ..

@[simp] theorem size_modifyAttribute (a : AttributeId) (f : Attribute → Attribute) :
    (g.modifyAttribute a f).attributes.size = g.attributes.size := by
  simp [modifyAttribute]

@[simp] theorem entity_modifyRelationship (r : RelationshipId) (f : Relationship → Relationship) (o : EntityId) :
    (g.modifyRelationship r f).entity o = g.entity o := rfl

@[simp] theorem attributeAt_modifyRelationship (r : RelationshipId) (f : Relationship → Relationship)
    (a : AttributeId) : (g.modifyRelationship r f).attributeAt a = g.attributeAt a := rfl

theorem relationshipAt_modifyRelationship (r : RelationshipId) (f : Relationship → Relationship)
    (s : RelationshipId) :
    (g.modifyRelationship r f).relationshipAt s =
      if r = s ∧ s < g.relationships.size then f (g.relationshipAt s) else g.relationshipAt s :=
  getD_modify ..

@[simp] theorem size_modifyRelationship (r : RelationshipId) (f : Relationship → Relationship) :
    (g.modifyRelationship r f).relationships.size = g.relationships.size := by
  simp [modifyRelationship]

/-! ### One more member -/

theorem entity_addAttribute (a : Attribute) (o : EntityId) :
    (g.addAttribute a).entity o =
      if a.owner = o ∧ o < g.entities.size then
        { g.entity o with attributes := (g.entity o).attributes ++ [g.attributes.size] }
      else g.entity o :=
  entity_modifyEntity { g with attributes := g.attributes.push a } ..

theorem attributeAt_addAttribute (a : Attribute) (b : AttributeId) :
    (g.addAttribute a).attributeAt b = if b = g.attributes.size then a else g.attributeAt b :=
  getD_push ..

@[simp] theorem relationshipAt_addAttribute (a : Attribute) (r : RelationshipId) :
    (g.addAttribute a).relationshipAt r = g.relationshipAt r := rfl

@[simp] theorem size_attributes_addAttribute (a : Attribute) :
    (g.addAttribute a).attributes.size = g.attributes.size + 1 := by
  simp [addAttribute, modifyEntity]

@[simp] theorem size_entities_addAttribute (a : Attribute) :
    (g.addAttribute a).entities.size = g.entities.size :=
  size_modifyEntity { g with attributes := g.attributes.push a } ..

theorem entity_addRelationship (r : Relationship) (o : EntityId) :
    (g.addRelationship r).entity o =
      if r.owner = o ∧ o < g.entities.size then
        { g.entity o with relationships := (g.entity o).relationships ++ [g.relationships.size] }
      else g.entity o :=
  entity_modifyEntity { g with relationships := g.relationships.push r } ..

theorem relationshipAt_addRelationship (r : Relationship) (s : RelationshipId) :
    (g.addRelationship r).relationshipAt s = if s = g.relationships.size then r else g.relationshipAt s :=
  getD_push ..

@[simp] theorem attributeAt_addRelationship (r : Relationship) (a : AttributeId) :
    (g.addRelationship r).attributeAt a = g.attributeAt a := rfl

@[simp] theorem size_relationships_addRelationship (r : Relationship) :
    (g.addRelationship r).relationships.size = g.relationships.size + 1 := by
  simp [addRelationship, modifyEntity]

@[simp] theorem size_entities_addRelationship (r : Relationship) :
    (g.addRelationship r).entities.size = g.entities.size :=
  size_modifyEntity { g with relationships := g.relationships.push r } ..

/-! ### Entities by index -/

/-- An entity of the graph knows its index. -/
theorem id_entity {o : EntityId} (ho : o < g.entities.size) : (g.entity o).id = o := by
  rw [entity, Array.getD_eq_getD_getElem?, Array.getElem?_eq_getElem ho]
  exact g.numbered o ho

private theorem toList_entities : g.entities.toList = g.entityIds.map g.entity := by
  apply List.ext_getElem
  · simp [entityIds]
  · intro i h₁ h₂
    simp only [Array.length_toList] at h₁
    simp [entityIds, entity, h₁]

/-- The entities that satisfy a predicate are found by their indices. -/
private theorem map_id_filter (p : Entity → Bool) :
    (g.entities.toList.filter p).map (·.id) = g.entityIds.filter fun id => p (g.entity id) := by
  have hsame : ∀ id ∈ g.entityIds.filter (p ∘ g.entity), ((·.id) ∘ g.entity) id = id := fun id hid =>
    g.id_entity (List.mem_range.1 (List.mem_filter.1 hid).1)
  rw [toList_entities, List.filter_map, List.map_map, List.map_congr_left hsame, List.map_id']
  rfl

theorem idsOfKind_eq (kind : EntityKind) :
    g.idsOfKind kind = g.entityIds.filter fun id => (g.entity id).kind == kind :=
  g.map_id_filter _

theorem mem_idsOfKind {kind : EntityKind} {id : EntityId} :
    id ∈ g.idsOfKind kind ↔ id < g.entities.size ∧ (g.entity id).kind = kind := by
  rw [idsOfKind_eq, List.mem_filter, entityIds, List.mem_range, beq_iff_eq]

theorem nodup_idsOfKind (kind : EntityKind) : (g.idsOfKind kind).Nodup := by
  rw [idsOfKind_eq]
  exact List.nodup_range.filter _

theorem lt_size_of_mem_idsOfKind {kind : EntityKind} {id : EntityId} (h : id ∈ g.idsOfKind kind) :
    id < g.entities.size :=
  (g.mem_idsOfKind.1 h).1

theorem kind_of_mem_idsOfKind {kind : EntityKind} {id : EntityId} (h : id ∈ g.idsOfKind kind) :
    (g.entity id).kind = kind :=
  (g.mem_idsOfKind.1 h).2

theorem idNamed?_eq (name : String) : g.idNamed? name = g.entityIds.find? fun id => g.qualifiedName id == name := by
  have hhead := congrArg List.head? (g.map_id_filter (·.qualifiedName == name))
  rw [List.head?_map, List.head?_filter, List.head?_filter] at hhead
  exact hhead

theorem lt_size_of_idNamed? {name : String} {id : EntityId} (h : g.idNamed? name = some id) :
    id < g.entities.size := by
  rw [idNamed?_eq] at h
  exact List.mem_range.1 (List.mem_of_find?_eq_some h)

/-- The look-up of a name in terms of indices. -/
theorem lookup_eq (name : String) (kind : EntityKind) :
    g.lookup name kind =
      match g.idNamed? name with
      | some id => if (g.entity id).kind = kind then some id else none
      | none =>
        match (g.idsOfKind kind).filter fun id => (g.entity id).name.simple == name with
        | [id] => some id
        | _ => none := by
  have hscan : ((g.entities.toList.filter fun e => e.kind == kind && e.name.simple == name).map (·.id)) =
      (g.idsOfKind kind).filter fun id => (g.entity id).name.simple == name := by
    rw [map_id_filter, idsOfKind_eq, List.filter_filter]
    simp only [Bool.and_comm]
  rw [lookup, ← hscan]
  cases g.idNamed? name with
  | some id => rfl
  | none => rcases g.entities.toList.filter _ with _ | ⟨e, _ | ⟨f, rest⟩⟩ <;> rfl

/-- What a name denotes where a kind is wanted is an entity of the graph, of that kind. -/
theorem mem_idsOfKind_of_lookup {name : String} {kind : EntityKind} {id : EntityId}
    (h : g.lookup name kind = some id) : id ∈ g.idsOfKind kind := by
  rw [lookup_eq] at h
  split at h
  · rename_i found hfound
    split at h
    · rename_i hkind
      obtain rfl := Option.some.inj h
      exact g.mem_idsOfKind.2 ⟨g.lt_size_of_idNamed? hfound, hkind⟩
    · cases h
  · split at h
    · rename_i only honly
      obtain rfl := Option.some.inj h
      have : only ∈ (g.idsOfKind kind).filter fun id => (g.entity id).name.simple == name := by simp [honly]
      exact (List.mem_filter.1 this).1
    · cases h

theorem lt_size_of_lookup {name : String} {kind : EntityKind} {id : EntityId} (h : g.lookup name kind = some id) :
    id < g.entities.size :=
  g.lt_size_of_mem_idsOfKind (g.mem_idsOfKind_of_lookup h)

/-! ### One more entity -/

theorem eq_of_addEntity? {g h : Graph} {e : Entity} {id : EntityId} (hadd : g.addEntity? e = some (h, id)) :
    h = g.push e ∧ id = g.entities.size := by
  unfold addEntity? at hadd
  split at hadd
  · cases hadd
  · obtain ⟨rfl, rfl⟩ := Prod.mk.inj (Option.some.inj hadd)
    exact ⟨rfl, rfl⟩

/-- Only a name that is not taken is added. -/
theorem idNamed?_of_addEntity? {g h : Graph} {e : Entity} {id : EntityId} (hadd : g.addEntity? e = some (h, id)) :
    g.idNamed? e.qualifiedName = none := by
  cases hnamed : g.idNamed? e.qualifiedName with
  | none => rfl
  | some o =>
    rw [addEntity?, hnamed] at hadd
    cases hadd

@[simp] theorem size_push (e : Entity) : (g.push e).entities.size = g.entities.size + 1 :=
  Array.size_push ..

theorem entity_push (e : Entity) (o : EntityId) :
    (g.push e).entity o = if o = g.entities.size then { e with id := g.entities.size } else g.entity o :=
  getD_push ..

private theorem entity_push_of_lt (e : Entity) {o : EntityId} (ho : o < g.entities.size) :
    (g.push e).entity o = g.entity o := by
  rw [entity_push, if_neg (Nat.ne_of_lt ho)]

theorem qualifiedName_push (e : Entity) (o : EntityId) :
    (g.push e).qualifiedName o = if o = g.entities.size then e.qualifiedName else g.qualifiedName o := by
  rw [qualifiedName, entity_push]
  split <;> rfl

theorem idsOfKind_push (e : Entity) (kind : EntityKind) :
    (g.push e).idsOfKind kind = g.idsOfKind kind ++ if e.kind = kind then [g.entities.size] else [] := by
  have hold : (List.range g.entities.size).filter (fun id => ((g.push e).entity id).kind == kind) =
      g.idsOfKind kind := by
    rw [idsOfKind_eq]
    exact List.filter_congr fun id hid => by rw [g.entity_push_of_lt e (List.mem_range.1 hid)]
  rw [idsOfKind_eq, entityIds, size_push, List.range_succ, List.filter_append, hold]
  by_cases h : e.kind = kind <;> simp [entity_push, h]

/-- What holds of all entities of a kind, and of the new one if it is of the kind. -/
theorem forall_idsOfKind_push {g : Graph} {e : Entity} {kind : EntityKind} {q : Entity → Prop}
    (hold : ∀ o ∈ g.idsOfKind kind, q (g.entity o)) (hnew : e.kind = kind → q { e with id := g.entities.size }) :
    ∀ o ∈ (g.push e).idsOfKind kind, q ((g.push e).entity o) := by
  intro o ho
  rw [idsOfKind_push] at ho
  rw [entity_push]
  rcases List.mem_append.1 ho with hmem | hmem
  · rw [if_neg (Nat.ne_of_lt (g.lt_size_of_mem_idsOfKind hmem))]
    exact hold o hmem
  · split at hmem
    · rename_i hkind
      rw [if_pos (List.mem_singleton.1 hmem)]
      exact hnew hkind
    · cases hmem

theorem idNamed?_push (e : Entity) (name : String) :
    (g.push e).idNamed? name = (g.idNamed? name).or (if e.qualifiedName = name then some g.entities.size else none) := by
  have hold : (List.range g.entities.size).find? (fun id => (g.push e).qualifiedName id == name) =
      g.idNamed? name := by
    rw [idNamed?_eq]
    refine List.find?_congr fun id hid => ?_
    rw [qualifiedName_push, if_neg (Nat.ne_of_lt (List.mem_range.1 hid))]
  rw [idNamed?_eq, entityIds, size_push, List.range_succ, List.find?_append, hold]
  by_cases h : e.qualifiedName = name <;> simp [qualifiedName_push, h]

/-- One more entity of another kind gives a name no new meaning, though it may take one away. -/
theorem lookup_of_lookup_push {e : Entity} {kind : EntityKind} (hkind : e.kind ≠ kind) {name : String} {o : EntityId}
    (h : (g.push e).lookup name kind = some o) : g.lookup name kind = some o := by
  rw [lookup_eq] at h ⊢
  rw [idNamed?_push] at h
  cases hnamed : g.idNamed? name with
  | some id =>
    simp only [hnamed, Option.some_or, g.entity_push_of_lt e (g.lt_size_of_idNamed? hnamed)] at h
    exact h
  | none =>
    simp only [hnamed, Option.none_or] at h
    split at h
    · rename_i id hnew
      split at hnew
      · obtain rfl := Option.some.inj hnew
        rw [entity_push, if_pos rfl, if_neg hkind] at h
        cases h
      · cases hnew
    · rw [idsOfKind_push, if_neg hkind, List.append_nil] at h
      have hsame : ((g.idsOfKind kind).filter fun id => ((g.push e).entity id).name.simple == name) =
          (g.idsOfKind kind).filter fun id => (g.entity id).name.simple == name :=
        List.filter_congr fun id hid => by rw [g.entity_push_of_lt e (g.lt_size_of_mem_idsOfKind hid)]
      rwa [hsame] at h

/-! ### The outline -/

def outline : Array Entity :=
  g.entities.map Entity.outline

theorem outline_modifyEntity (id : EntityId) {f : Entity → Entity} (hf : ∀ e, (f e).outline = e.outline) :
    (g.modifyEntity id f).outline = g.outline := by
  apply Array.ext
  · simp [outline, modifyEntity]
  · intro i h₁ h₂
    simp only [outline, modifyEntity, Array.getElem_map, Array.getElem_modify]
    split
    · exact Entity.outline_keepingId (hf _)
    · rfl

@[simp] theorem outline_modifyAttribute (a : AttributeId) (f : Attribute → Attribute) :
    (g.modifyAttribute a f).outline = g.outline := rfl

@[simp] theorem outline_modifyRelationship (r : RelationshipId) (f : Relationship → Relationship) :
    (g.modifyRelationship r f).outline = g.outline := rfl

@[simp] theorem outline_addAttribute (a : Attribute) : (g.addAttribute a).outline = g.outline :=
  outline_modifyEntity { g with attributes := g.attributes.push a } _ fun _ => rfl

@[simp] theorem outline_addRelationship (r : Relationship) : (g.addRelationship r).outline = g.outline :=
  outline_modifyEntity { g with relationships := g.relationships.push r } _ fun _ => rfl

@[simp] theorem outline_setState (id : EntityId) (state : EntityState) : (g.setState id state).outline = g.outline :=
  g.outline_modifyEntity id fun _ => rfl

section SameOutline

variable {g} {h : Graph} (eq : h.outline = g.outline)

include eq

theorem size_of_outline_eq : h.entities.size = g.entities.size := by
  simpa [outline] using congrArg Array.size eq

private theorem entity_outline_of_outline_eq (o : EntityId) : (h.entity o).outline = (g.entity o).outline := by
  have read : ∀ k : Graph, (k.entity o).outline = k.outline.getD o default := by
    intro k
    by_cases ho : o < k.entities.size <;> simp [entity, outline, Array.getD, ho]
    rfl
  rw [read h, read g, eq]

theorem kind_of_outline_eq (o : EntityId) : (h.entity o).kind = (g.entity o).kind := by
  show (h.entity o).outline.kind = (g.entity o).outline.kind
  rw [entity_outline_of_outline_eq eq o]

theorem name_of_outline_eq (o : EntityId) : (h.entity o).name = (g.entity o).name := by
  show (h.entity o).outline.name = (g.entity o).outline.name
  rw [entity_outline_of_outline_eq eq o]

theorem superName_of_outline_eq (o : EntityId) : (h.entity o).superName = (g.entity o).superName := by
  show (h.entity o).outline.superName = (g.entity o).outline.superName
  rw [entity_outline_of_outline_eq eq o]

theorem interfaces_of_outline_eq (o : EntityId) : (h.entity o).interfaces = (g.entity o).interfaces := by
  show (h.entity o).outline.interfaces = (g.entity o).outline.interfaces
  rw [entity_outline_of_outline_eq eq o]

theorem defaults_of_outline_eq (o : EntityId) : (h.entity o).defaults = (g.entity o).defaults := by
  show (h.entity o).outline.defaults = (g.entity o).outline.defaults
  rw [entity_outline_of_outline_eq eq o]

theorem persistedType_of_outline_eq (o : EntityId) : (h.entity o).persistedType = (g.entity o).persistedType := by
  show (h.entity o).outline.persistedType = (g.entity o).outline.persistedType
  rw [entity_outline_of_outline_eq eq o]

theorem members_of_outline_eq (o : EntityId) : (h.entity o).members = (g.entity o).members := by
  show (h.entity o).outline.members = (g.entity o).outline.members
  rw [entity_outline_of_outline_eq eq o]

theorem qualifiedName_of_outline_eq (o : EntityId) : h.qualifiedName o = g.qualifiedName o :=
  congrArg TypeName.qualified (name_of_outline_eq eq o)

theorem idsOfKind_of_outline_eq (kind : EntityKind) : h.idsOfKind kind = g.idsOfKind kind := by
  simp only [idsOfKind_eq, entityIds, size_of_outline_eq eq, kind_of_outline_eq eq]

theorem idNamed?_of_outline_eq (name : String) : h.idNamed? name = g.idNamed? name := by
  simp only [idNamed?_eq, entityIds, size_of_outline_eq eq, qualifiedName_of_outline_eq eq]

/-- Graphs of one outline look names up alike. -/
theorem lookup_congr (name : String) (kind : EntityKind) : h.lookup name kind = g.lookup name kind := by
  simp only [lookup_eq, idNamed?_of_outline_eq eq, kind_of_outline_eq eq, idsOfKind_of_outline_eq eq,
    name_of_outline_eq eq]

end SameOutline

end Graph

end Metamodel
