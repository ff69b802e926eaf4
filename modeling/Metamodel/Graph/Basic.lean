import Metamodel.Entity
import Metamodel.Relationship

/-!
# The graph of a metamodel

All entities, attributes and relationships, referring to each other by index, and the interfaces by name.  An entity
knows its index, which it gets when it is added and keeps from then on.  A member is added to the graph and to the list
of its owner in one step.  Look-ups by index are total: an index beyond the end gives the default element, and an update
there changes nothing.
-/

namespace Metamodel

structure Graph where
  entities : Array Entity := #[]
  attributes : Array Attribute := #[]
  relationships : Array Relationship := #[]
  interfaces : NameMap Interface := .empty
  numbered : ∀ i (h : i < entities.size), entities[i].id = i := by decide

namespace Graph

def empty : Graph := {}

instance : Inhabited Graph := ⟨empty⟩

/-! ### Elements by index -/

def entity (g : Graph) (id : EntityId) : Entity :=
  g.entities.getD id default

def attributeAt (g : Graph) (id : AttributeId) : Attribute :=
  g.attributes.getD id default

def relationshipAt (g : Graph) (id : RelationshipId) : Relationship :=
  g.relationships.getD id default

def qualifiedName (g : Graph) (id : EntityId) : String :=
  (g.entity id).qualifiedName

def stateOf (g : Graph) (id : EntityId) : EntityState :=
  (g.entity id).state

def isFailed (g : Graph) (id : EntityId) : Bool :=
  (g.entity id).isFailed

/-- Whatever is changed in an entity, it keeps its index. -/
def modifyEntity (g : Graph) (id : EntityId) (f : Entity → Entity) : Graph :=
  { g with
    entities := g.entities.modify id fun e => { f e with id := e.id }
    numbered := fun i h => by
      rw [Array.getElem_modify]
      split <;> exact g.numbered i (by simpa using h) }

def modifyAttribute (g : Graph) (id : AttributeId) (f : Attribute → Attribute) : Graph :=
  { g with attributes := g.attributes.modify id f }

def modifyRelationship (g : Graph) (id : RelationshipId) (f : Relationship → Relationship) : Graph :=
  { g with relationships := g.relationships.modify id f }

def setState (g : Graph) (id : EntityId) (state : EntityState) : Graph :=
  g.modifyEntity id fun e => { e with state := state }

def setStates (g : Graph) (ids : List EntityId) (state : EntityState) : Graph :=
  ids.foldl (fun g id => g.setState id state) g

/-! ### Elements of an entity -/

def attributesOf (g : Graph) (id : EntityId) : List Attribute :=
  (g.entity id).attributes.map g.attributeAt

def relationshipsOf (g : Graph) (id : EntityId) : List Relationship :=
  (g.entity id).relationships.map g.relationshipAt

/-- The first attribute of that name. -/
def attributeNamed? (g : Graph) (id : EntityId) (name : String) : Option AttributeId :=
  (g.entity id).attributes.find? fun a => (g.attributeAt a).name == name

/-- The first relationship of that name. -/
def relationshipNamed? (g : Graph) (id : EntityId) (name : String) : Option RelationshipId :=
  (g.entity id).relationships.find? fun r => (g.relationshipAt r).name == name

/-- The name belongs to an attribute or a relationship of the entity. -/
def hasMember (g : Graph) (id : EntityId) (name : String) : Bool :=
  (g.attributeNamed? id name).isSome || (g.relationshipNamed? id name).isSome

/-! ### Look-up by name -/

def entityIds (g : Graph) : List EntityId :=
  List.range g.entities.size

def idsOfKind (g : Graph) (kind : EntityKind) : List EntityId :=
  (g.entities.toList.filter (·.kind == kind)).map (·.id)

/-- The entity of that qualified name. -/
def idNamed? (g : Graph) (name : String) : Option EntityId :=
  (g.entities.toList.find? (·.qualifiedName == name)).map (·.id)

/-- The entity that a name denotes where one of the given kind is wanted.  A qualified name denotes its entity, or
nothing if that has another kind; any other name is a simple name and denotes the one entity of the kind that has it. -/
def lookup (g : Graph) (name : String) (kind : EntityKind) : Option EntityId :=
  match g.idNamed? name with
  | some id => if (g.entity id).kind = kind then some id else none
  | none =>
    match g.entities.toList.filter fun e => e.kind == kind && e.name.simple == name with
    | [e] => some e.id
    | _ => none

/-- The object that a name denotes, or the error that says so. -/
def objectNamed (g : Graph) (name : String) : Except Error EntityId :=
  match g.lookup name .object with
  | some id => .ok id
  | none => .error (.unknownObject name)

/-! ### Growth -/

/-- The graph with one more entity, which gets the next index. -/
def push (g : Graph) (e : Entity) : Graph :=
  { g with
    entities := g.entities.push { e with id := g.entities.size }
    numbered := fun i h => by
      rw [Array.getElem_push]
      split
      · exact g.numbered i _
      · rename_i hge
        rw [Array.size_push] at h
        exact Nat.le_antisymm (Nat.not_lt.1 hge) (Nat.lt_succ_iff.1 h) }

/-- The graph with one more entity and its index; nothing if the name is taken. -/
def addEntity? (g : Graph) (e : Entity) : Option (Graph × EntityId) :=
  if (g.idNamed? e.qualifiedName).isSome then none else some (g.push e, g.entities.size)

def addAttribute (g : Graph) (a : Attribute) : Graph :=
  { g with attributes := g.attributes.push a }.modifyEntity a.owner fun e =>
    { e with attributes := e.attributes ++ [g.attributes.size] }

def addRelationship (g : Graph) (r : Relationship) : Graph :=
  { g with relationships := g.relationships.push r }.modifyEntity r.owner fun e =>
    { e with relationships := e.relationships ++ [g.relationships.size] }

/-- An interface takes the place of an earlier one of its name. -/
def addInterface (g : Graph) (i : Interface) : Graph :=
  { g with interfaces := g.interfaces.insert i.qualifiedName i }

end Graph

end Metamodel
