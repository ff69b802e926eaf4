import Metamodel.Attribute.Basic
import Metamodel.Cardinality

/-!
# Entities and interfaces

An entity is a type that a metamodel declares, with its members by index: an object that is stored, a value embedded in
objects, or an enumeration.  An interface holds the members that it demands, those of its super interfaces included.
-/

namespace Metamodel

inductive EntityKind where
  | object | embeddedValue | enumeration
deriving DecidableEq, Inhabited

def EntityKind.name : EntityKind → String
  | object => "Plain"
  | embeddedValue => "EmbeddedValue"
  | enumeration => "Enumeration"

def EntityKind.all : List EntityKind :=
  [object, embeddedValue, enumeration]

/-- How far resolution has come with an entity. -/
inductive EntityState where
  | unresolved | inProgress | resolved | failed
deriving DecidableEq, Inhabited

def EntityState.name : EntityState → String
  | unresolved => "Unresolved"
  | inProgress => "InProgress"
  | resolved => "Resolved"
  | failed => "Failed"

/-- An embedded value nested in another, with its type once that has been found. -/
structure NestedValue where
  name : String
  typeName : String
  target : Option EntityId := none
deriving DecidableEq

structure Entity where
  /-- The index in the graph that holds the entity, which gives it. -/
  id : EntityId := 0
  name : TypeName
  kind : EntityKind
  defaults : MemberDefaults := {}
  access : AccessMode := .transactional
  imported : Bool := false
  superName : Option String := none
  superEntity : Option EntityId := none
  attributes : List AttributeId := []
  relationships : List RelationshipId := []
  source : Option AttributeId := none
  interfaces : List String := []
  nested : List NestedValue := []
  persistedType : Option DataType := none
  members : List EnumerationMember := []
  state : EntityState := .unresolved
deriving DecidableEq, Inhabited

namespace Entity

def qualifiedName (e : Entity) : String :=
  e.name.qualified

/-- The class of generated finders. -/
def finderName (e : Entity) : String :=
  e.name.simple ++ "Finder"

def isReadOnly (e : Entity) : Bool :=
  e.access == .readOnly

def isFailed (e : Entity) : Bool :=
  e.state == .failed

end Entity

/-- An attribute demanded by an interface, and the interface that declares it. -/
structure InterfaceAttribute where
  name : String
  dataType : DataType
  declaredBy : String
deriving DecidableEq

structure InterfaceRelationship where
  name : String
  related : String
  cardinality : Cardinality
deriving DecidableEq

structure Interface where
  name : TypeName
  /-- The qualified names of all interfaces above this one. -/
  superInterfaces : List String := []
  attributes : List InterfaceAttribute := []
  asOfAttributes : List InterfaceAsOfDeclaration := []
  relationships : List InterfaceRelationship := []
deriving DecidableEq

namespace Interface

def qualifiedName (i : Interface) : String :=
  i.name.qualified

/-- An interface is itself and every interface above it. -/
def isA (i : Interface) (name : String) : Bool :=
  i.qualifiedName == name || i.superInterfaces.contains name

end Interface

end Metamodel
