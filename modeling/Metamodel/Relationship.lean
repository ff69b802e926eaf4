import Metamodel.Attribute.Basic
import Metamodel.Cardinality
import Metamodel.Join.Basic

/-!
# Relationships

A relationship leads from its owner to a related entity.  One with a reverse name has a counterpart on the related
entity, which `reverse?` makes; a counterpart knows the relationship it reverses, and a declared one reverses none.
-/

namespace Metamodel

/-- What makes a relationship the counterpart of another: which one, and whether its owner depends on the related
entity. -/
structure Reversal where
  forward : RelationshipId
  dependent : Bool
deriving DecidableEq

structure Relationship where
  name : String
  owner : EntityId
  originalOwner : Option EntityId := none
  relatedName : String
  related : Option EntityId := none
  cardinalityKey : Option String := none
  cardinality : Option Cardinality := none
  query : Option String := none
  join : Join := {}
  reverseName : Option String := none
  relatedIsDependent : Option Bool := none
  orderBy : Option String := none
  parameters : Option String := none
  reversal : Option Reversal := none
deriving DecidableEq, Inhabited

namespace Relationship

def ofDeclaration (d : RelationshipDeclaration) (owner : EntityId) : Relationship where
  name := d.name
  owner := owner
  relatedName := d.relatedObject
  cardinalityKey := d.cardinality
  query := d.query
  reverseName := d.reverseName
  relatedIsDependent := d.relatedIsDependent
  orderBy := d.orderBy
  parameters := d.parameters

def isInherited (r : Relationship) : Bool :=
  r.originalOwner.isSome

def isReverse (r : Relationship) : Bool :=
  r.reversal.isSome

def isRelatedDependent (r : Relationship) : Bool :=
  r.relatedIsDependent.getD false

/-- The owner depends on the related entity. -/
def isDependent (r : Relationship) : Bool :=
  r.reversal.any (·.dependent)

def isBidirectional (r : Relationship) : Bool :=
  r.reverseName.isSome

def hasParameters (r : Relationship) : Bool :=
  r.parameters.isSome

/-- A relationship with parameters cannot be set. -/
def hasSetter (r : Relationship) : Bool :=
  !r.hasParameters

def hasFilters (r : Relationship) : Bool :=
  !r.join.filters.isEmpty

/-- The join mentions no third class. -/
def joinsOnlyItsEnds (r : Relationship) : Bool :=
  r.join.otherClasses.isEmpty

def fromMany (r : Relationship) : Bool :=
  r.cardinality.any (·.fromMany)

def toMany (r : Relationship) : Bool :=
  r.cardinality.any (·.toMany)

/-! ### Inheritance -/

/-- What stands against `child` being the relationship `parent` of the superclass, redeclared. -/
def conflicts (child parent : Relationship) : List String :=
  (if child.related = parent.related then []
  else ["related object type mismatch with superclass for relationship '" ++ child.name ++ "'"]) ++
  (match child.cardinalityKey, parent.cardinalityKey with
  | some mine, some theirs =>
    if mine = theirs then [] else ["cardinality mismatch with superclass for relationship '" ++ child.name ++ "'"]
  | _, _ => [])

/-- The settings that `child` leaves open, from `parent`. -/
def filledFrom (child parent : Relationship) : Relationship :=
  { child with
    cardinalityKey := child.cardinalityKey.or parent.cardinalityKey
    query := child.query.or parent.query
    orderBy := child.orderBy.or parent.orderBy
    relatedIsDependent := child.relatedIsDependent.or parent.relatedIsDependent }

/-- The redeclared relationship, filled in any case, with the conflicts that it has. -/
def mergedWith (child parent : Relationship) : Relationship × List String :=
  (child.filledFrom parent, child.conflicts parent)

/-- The copy that another entity inherits. -/
def inheritedBy (r : Relationship) (heir : EntityId) : Relationship :=
  { r with owner := heir, originalOwner := some (r.originalOwner.getD r.owner) }

/-! ### Counterparts -/

/-- The counterpart of the relationship with index `id`, whose owner has the name `ownerName`; there is none without a
reverse name and a related entity. -/
def reverse? (r : Relationship) (id : RelationshipId) (ownerName : String) : Option Relationship :=
  match r.reverseName, r.related with
  | some name, some related => some
    { name := name
      owner := related
      relatedName := ownerName
      related := some r.owner
      cardinalityKey := r.cardinality.map (·.reverse.key)
      cardinality := r.cardinality.map (·.reverse)
      join := r.join.reversed
      reverseName := some r.name
      relatedIsDependent := some false
      reversal := some ⟨id, r.isRelatedDependent⟩ }
  | _, _ => none

end Relationship

end Metamodel
