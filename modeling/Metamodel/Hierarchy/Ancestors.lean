import Metamodel.Graph.Basic

/-!
# Super entities

The way up from an entity along `superEntity`.  On a cycle it would not end, so it is cut one step after it has as many
steps as there are entities; a way without a repeated entity is never cut.
-/

namespace Metamodel.Graph

/-- The entities above `id`, nearest first, at most `steps` of them. -/
def ancestorsWithin (g : Graph) : Nat → EntityId → List EntityId
  | 0, _ => []
  | steps + 1, id =>
    match (g.entity id).superEntity with
    | none => []
    | some parent => parent :: g.ancestorsWithin steps parent

def ancestors (g : Graph) (id : EntityId) : List EntityId :=
  g.ancestorsWithin (g.entities.size + 1) id

/-- The topmost entity above `id`, which may be `id` itself. -/
def hierarchyRoot (g : Graph) (id : EntityId) : EntityId :=
  (g.ancestors id).getLastD id

/-- The number of entities above `id`. -/
def depth (g : Graph) (id : EntityId) : Nat :=
  (g.ancestors id).length

end Metamodel.Graph
