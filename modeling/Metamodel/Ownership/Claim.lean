import Metamodel.Issue.Gather
import Metamodel.Ownership.Key

/-!
# Ownership of attributes

A relationship that can be set and whose join consists of pairs of its two entities claims attributes of its pairs: the
attribute on the side of which there are many, and between one and one the attribute that is not the primary key.  An
attribute belongs to the relationship with the best claim, and its record of ownership is that of one claim as a whole.
-/

namespace Metamodel

/-- An attribute and the record of ownership that a relationship wants it to have. -/
structure Claim where
  target : AttributeId
  ownership : Ownership

namespace Graph

/-- The relationship can claim attributes at all. -/
def canClaim (r : Relationship) : Bool :=
  r.hasSetter && !r.hasFilters && r.joinsOnlyItsEnds

/-- The claim on the attribute of the related entity. -/
def forwardClaim (g : Graph) (owner : EntityId) (id : RelationshipId) (r : Relationship) (far : AttributeId) : Claim :=
  ⟨far, ⟨id, r.reverseName, some ⟨(g.entity owner).name, r.name⟩⟩⟩

/-- The claim on the attribute of the owner; without a reverse name it has no far end. -/
def backwardClaim (g : Graph) (related : EntityId) (id : RelationshipId) (r : Relationship) (near : AttributeId) :
    Claim :=
  ⟨near, ⟨id, some r.name, r.reverseName.map fun name => ⟨(g.entity related).name, name⟩⟩⟩

/-- The claim of a relationship through one pair of its join. -/
def pairClaim? (g : Graph) (owner related : EntityId) (id : RelationshipId) (r : Relationship) (c : Cardinality)
    (p : JoinPair) : Option Claim :=
  match g.attributeNamed? owner p.thisAttribute, g.attributeNamed? related p.relatedAttribute with
  | some near, some far =>
    let a := g.attributeAt near
    let b := g.attributeAt far
    let dependent := r.isRelatedDependent
    if a.isAsOf || a.isSource then none
    else match c with
      | .oneToMany => some (g.forwardClaim owner id r far)
      | .manyToOne => some (g.backwardClaim related id r near)
      | .manyToMany => none
      | .oneToOne =>
        if dependent || !b.isPrimaryKey then some (g.forwardClaim owner id r far)
        else if !a.isPrimaryKey then some (g.backwardClaim related id r near)
        else none
  | _, _ => none

/-- The claim of a relationship of `owner` through one pair of its join, if it can claim attributes at all. -/
def claimThrough? (g : Graph) (owner : EntityId) (id : RelationshipId) (p : JoinPair) : Option Claim :=
  let r := g.relationshipAt id
  match r.related, r.cardinality with
  | some related, some c => if canClaim r && !g.isFailed related then g.pairClaim? owner related id r c p else none
  | _, _ => none

/-- The claims of a relationship of `owner`, in the order of its pairs. -/
def claims (g : Graph) (owner : EntityId) (id : RelationshipId) : List Claim :=
  (g.relationshipAt id).join.pairs.filterMap (g.claimThrough? owner id)

/-- The claim is at least as good as the ownership that the attribute has. -/
def prevails (g : Graph) (c : Claim) : Bool :=
  match (g.attributeAt c.target).ownership with
  | none => true
  | some incumbent =>
    incumbent.relationship == c.ownership.relationship ||
      (OwnershipKey.ofRelationship g (g.relationshipAt c.ownership.relationship)).precedes
        (OwnershipKey.ofRelationship g (g.relationshipAt incumbent.relationship))

def applyClaim (g : Graph) (c : Claim) : Graph :=
  if g.prevails c then g.modifyAttribute c.target fun a => { a with ownership := some c.ownership } else g

/-- All claims of the relationships of an entity; one that failed has none. -/
def claimOwnership (g : Graph) (owner : EntityId) : Graph :=
  if g.isFailed owner then g
  else ((g.entity owner).relationships.flatMap (g.claims owner)).foldl applyClaim g

end Graph

end Metamodel
