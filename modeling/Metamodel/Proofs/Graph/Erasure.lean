import Metamodel.Embedded.Nesting
import Metamodel.Graph.MemberCheck
import Metamodel.Issue.Gather
import Metamodel.Proofs.Graph.Elements

/-!
# Graphs without defaults

What the members of an entity fall back on comes from the configuration, and nothing else in a graph does.  A graph
*without defaults* is the graph with this taken out of all entities and attributes.  It reads the same as the graph
itself, except for the defaults, and every change of a graph is the same change of the graph without defaults.
-/

namespace Metamodel

def Entity.withoutDefaults (e : Entity) : Entity :=
  { e with defaults := {} }

def Attribute.withoutDefaults (a : Attribute) : Attribute :=
  { a with defaults := {} }

/-- The outcome of a step, seen through a function of the state. -/
def Found.map {σ τ : Type} (f : σ → τ) (x : Found σ) : Found τ :=
  (f x.1, x.2)

section Steps

variable {σ τ α : Type} {f : σ → τ}

@[simp] theorem Found.map_mk (s : σ) (issues : List Issue) : Found.map f (s, issues) = (f s, issues) := rfl

theorem Found.map_andThen {x : Found σ} {next : σ → Found σ} {next' : τ → Found τ}
    (hnext : ∀ s, next' (f s) = (next s).map f) : (x.map f).andThen next' = (x.andThen next).map f := by
  simp only [Found.andThen, Found.map, hnext]

/-- Steps that agree through a function of the state agree so in every sequence. -/
theorem gather_map {step : σ → α → Found σ} {step' : τ → α → Found τ}
    (hstep : ∀ s a, step' (f s) a = (step s a).map f) (s : σ) (as : List α) :
    gather step' (f s) as = (gather step s as).map f := by
  induction as generalizing s with
  | nil => rfl
  | cons a as ih =>
    simp only [gather, hstep, Found.map]
    rw [ih]
    rfl

end Steps

namespace Graph

def withoutDefaults (g : Graph) : Graph :=
  { g with
    entities := g.entities.map Entity.withoutDefaults
    attributes := g.attributes.map Attribute.withoutDefaults
    numbered := fun i h => by
      rw [Array.getElem_map]
      exact g.numbered i (by simpa using h) }

variable (g : Graph)

/-! ### What is read -/

private theorem getD_map {α : Type} (xs : Array α) (f : α → α) (i : Nat) (d : α) (hd : f d = d) :
    (xs.map f).getD i d = f (xs.getD i d) := by
  by_cases hi : i < xs.size <;> simp [Array.getD, hi, hd]

@[simp] theorem entity_withoutDefaults (id : EntityId) :
    g.withoutDefaults.entity id = (g.entity id).withoutDefaults :=
  getD_map _ _ _ _ rfl

@[simp] theorem attributeAt_withoutDefaults (a : AttributeId) :
    g.withoutDefaults.attributeAt a = (g.attributeAt a).withoutDefaults :=
  getD_map _ _ _ _ rfl

@[simp] theorem relationshipAt_withoutDefaults : g.withoutDefaults.relationshipAt = g.relationshipAt := rfl

@[simp] theorem size_entities_withoutDefaults : g.withoutDefaults.entities.size = g.entities.size :=
  Array.size_map

@[simp] theorem size_attributes_withoutDefaults : g.withoutDefaults.attributes.size = g.attributes.size :=
  Array.size_map

@[simp] theorem relationships_withoutDefaults : g.withoutDefaults.relationships = g.relationships := rfl

@[simp] theorem interfaces_withoutDefaults : g.withoutDefaults.interfaces = g.interfaces := rfl

@[simp] theorem qualifiedName_withoutDefaults : g.withoutDefaults.qualifiedName = g.qualifiedName := by
  funext id
  rw [qualifiedName, entity_withoutDefaults]
  rfl

@[simp] theorem stateOf_withoutDefaults : g.withoutDefaults.stateOf = g.stateOf := by
  funext id
  rw [stateOf, entity_withoutDefaults]
  rfl

@[simp] theorem isFailed_withoutDefaults : g.withoutDefaults.isFailed = g.isFailed := by
  funext id
  rw [isFailed, entity_withoutDefaults]
  rfl

@[simp] theorem attributesOf_withoutDefaults (id : EntityId) :
    g.withoutDefaults.attributesOf id = (g.attributesOf id).map Attribute.withoutDefaults := by
  simp [attributesOf, Entity.withoutDefaults]

@[simp] theorem relationshipsOf_withoutDefaults : g.withoutDefaults.relationshipsOf = g.relationshipsOf := by
  funext id
  simp [relationshipsOf, Entity.withoutDefaults]

@[simp] theorem attributeNamed?_withoutDefaults : g.withoutDefaults.attributeNamed? = g.attributeNamed? := by
  funext id name
  simp [attributeNamed?, Entity.withoutDefaults, Attribute.withoutDefaults]

@[simp] theorem relationshipNamed?_withoutDefaults : g.withoutDefaults.relationshipNamed? = g.relationshipNamed? := by
  funext id name
  simp [relationshipNamed?, Entity.withoutDefaults]

@[simp] theorem hasMember_withoutDefaults : g.withoutDefaults.hasMember = g.hasMember := by
  funext id name
  simp [hasMember]

@[simp] theorem idsOfKind_withoutDefaults : g.withoutDefaults.idsOfKind = g.idsOfKind := by
  funext kind
  simp [idsOfKind_eq, entityIds, Entity.withoutDefaults]

@[simp] theorem idNamed?_withoutDefaults : g.withoutDefaults.idNamed? = g.idNamed? := by
  funext name
  simp [idNamed?_eq, entityIds]

@[simp] theorem lookup_withoutDefaults : g.withoutDefaults.lookup = g.lookup := by
  funext name kind
  simp [lookup_eq, Entity.withoutDefaults]

/-! ### What is changed -/

private theorem map_modify {α : Type} (xs : Array α) (e : α → α) {f f' : α → α} (i : Nat)
    (hf : ∀ x, f' (e x) = e (f x)) : (xs.map e).modify i f' = (xs.modify i f).map e := by
  apply Array.ext
  · simp
  · intro j h₁ h₂
    simp only [Array.getElem_modify, Array.getElem_map]
    split <;> simp [hf]

theorem modifyEntity_withoutDefaults (id : EntityId) {f f' : Entity → Entity}
    (hf : ∀ e, f' e.withoutDefaults = (f e).withoutDefaults) :
    g.withoutDefaults.modifyEntity id f' = (g.modifyEntity id f).withoutDefaults := by
  have hkept : ∀ e : Entity, ({ f' e.withoutDefaults with id := e.withoutDefaults.id } : Entity) =
      ({ f e with id := e.id } : Entity).withoutDefaults := by
    intro e
    rw [hf]
    rfl
  have hentities : (g.entities.map Entity.withoutDefaults).modify id (fun e => { f' e with id := e.id }) =
      (g.entities.modify id fun e => { f e with id := e.id }).map Entity.withoutDefaults :=
    map_modify _ _ id hkept
  simp only [modifyEntity, withoutDefaults]
  congr 1

theorem modifyAttribute_withoutDefaults (a : AttributeId) {f f' : Attribute → Attribute}
    (hf : ∀ x, f' x.withoutDefaults = (f x).withoutDefaults) :
    g.withoutDefaults.modifyAttribute a f' = (g.modifyAttribute a f).withoutDefaults := by
  simp only [modifyAttribute, withoutDefaults, map_modify _ _ a hf]

@[simp] theorem modifyRelationship_withoutDefaults (r : RelationshipId) (f : Relationship → Relationship) :
    g.withoutDefaults.modifyRelationship r f = (g.modifyRelationship r f).withoutDefaults := rfl

@[simp] theorem setState_withoutDefaults (id : EntityId) (state : EntityState) :
    g.withoutDefaults.setState id state = (g.setState id state).withoutDefaults :=
  g.modifyEntity_withoutDefaults id fun _ => rfl

@[simp] theorem setStates_withoutDefaults (ids : List EntityId) (state : EntityState) :
    g.withoutDefaults.setStates ids state = (g.setStates ids state).withoutDefaults := by
  induction ids generalizing g with
  | nil => rfl
  | cons id ids ih =>
    simp only [setStates, List.foldl_cons, setState_withoutDefaults] at ih ⊢
    exact ih _

theorem addAttribute_withoutDefaults (a : Attribute) :
    g.withoutDefaults.addAttribute a.withoutDefaults = (g.addAttribute a).withoutDefaults := by
  have hpush : ({ g.withoutDefaults with
      attributes := g.withoutDefaults.attributes.push a.withoutDefaults } : Graph) =
        ({ g with attributes := g.attributes.push a } : Graph).withoutDefaults := by
    simp [withoutDefaults]
  rw [addAttribute, hpush, size_attributes_withoutDefaults]
  exact modifyEntity_withoutDefaults _ a.owner fun _ => rfl

@[simp] theorem addRelationship_withoutDefaults (r : Relationship) :
    g.withoutDefaults.addRelationship r = (g.addRelationship r).withoutDefaults :=
  modifyEntity_withoutDefaults { g with relationships := g.relationships.push r } r.owner fun _ => rfl

@[simp] theorem addInterface_withoutDefaults (i : Interface) :
    g.withoutDefaults.addInterface i = (g.addInterface i).withoutDefaults := rfl

theorem addEntity?_withoutDefaults (e : Entity) :
    g.withoutDefaults.addEntity? e.withoutDefaults =
      (g.addEntity? e).map fun x => (x.1.withoutDefaults, x.2) := by
  have hname : e.withoutDefaults.qualifiedName = e.qualifiedName := rfl
  simp only [addEntity?, idNamed?_withoutDefaults, hname, size_entities_withoutDefaults]
  split
  · rfl
  · simp [push, withoutDefaults, Entity.withoutDefaults]

end Graph

end Metamodel
