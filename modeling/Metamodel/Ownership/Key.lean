import Metamodel.Graph.Basic

/-!
# The rank of relationships that claim an attribute

Of several relationships that join on one attribute, the one with the smallest key owns it: dependence first, then the
shorter name (in UTF-8 bytes), then the name, the owner, the related entity, and a declared one before a counterpart.
-/

namespace Metamodel

structure OwnershipKey where
  independent : Bool
  nameLength : Nat
  name : String
  owner : String
  related : String
  reverse : Bool
deriving DecidableEq

namespace OwnershipKey

def ofRelationship (g : Graph) (r : Relationship) : OwnershipKey where
  independent := !(r.isDependent || r.isRelatedDependent)
  nameLength := r.name.utf8ByteSize
  name := r.name
  owner := g.qualifiedName r.owner
  related := (r.related.map g.qualifiedName).getD ""
  reverse := r.isReverse

/-- The parts of the keys in their order of weight. -/
def compare (a b : OwnershipKey) : Ordering :=
  (Ord.compare a.independent b.independent).then <|
    (Ord.compare a.nameLength b.nameLength).then <|
      (Ord.compare a.name b.name).then <|
        (Ord.compare a.owner b.owner).then <|
          (Ord.compare a.related b.related).then (Ord.compare a.reverse b.reverse)

/-- `a` has the better claim. -/
def precedes (a b : OwnershipKey) : Bool :=
  a.compare b == .lt

end OwnershipKey

end Metamodel
