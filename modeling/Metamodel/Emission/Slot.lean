import Metamodel.Hierarchy.Ancestors

/-!
# Slots

Objects of one hierarchy share generated resources, so they are emitted together, in one slot, superclasses first.
Imported objects are not emitted.  Slots are in the order of the names of their topmost entities, and the objects of a
slot in the order of their depth and, at equal depth, of their names.
-/

namespace Metamodel.Graph

/-- The objects to emit. -/
def emittedObjects (g : Graph) : List EntityId :=
  (g.idsOfKind .object).filter fun id => !(g.entity id).imported

/-- The order within a slot. -/
def slotOrder (g : Graph) (a b : EntityId) : Bool :=
  ((compare (g.depth a) (g.depth b)).then <|
    (compare (g.qualifiedName a) (g.qualifiedName b)).then (compare a b)).isLE

def rootName (g : Graph) (id : EntityId) : String :=
  g.qualifiedName (g.hierarchyRoot id)

/-- The objects to emit by the name of the topmost entity above them. -/
def hierarchies (g : Graph) : NameMap (List EntityId) :=
  g.emittedObjects.foldl
    (fun m id => m.insert (g.rootName id) ((m.find? (g.rootName id)).getD [] ++ [id])) .empty

def slots (g : Graph) : List (List EntityId) :=
  g.hierarchies.values.map (·.mergeSort g.slotOrder)

end Metamodel.Graph
