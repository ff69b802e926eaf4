import Metamodel.Graph.Basic
import Metamodel.Issue.Gather

/-!
# Nesting of embedded values

An embedded value may nest others, but not itself through any number of steps.  `checkNested` finds the types of the
nested values and `visitNested` settles each embedded value as resolved or failed: failed are those that reach a cycle.
The visit goes down into an embedded value only if it has not been there, and so no deeper than there are such values.
-/

namespace Metamodel.Graph

/-! ### Members and targets -/

/-- The names that occur earlier in the list. -/
def repeated (seen : List String) : List String → List String
  | [] => []
  | n :: ns => if seen.contains n then n :: repeated seen ns else repeated (n :: seen) ns

def duplicateMember (object name : String) : Issue :=
  .error .embeddedValues .schema object (some name) ("duplicate member name '" ++ name ++ "'")

private def undefinedNested (object : String) (n : NestedValue) : Issue :=
  .error .embeddedValues .schema object (some n.name)
    ("nested object type '" ++ n.typeName ++ "' is not a defined embedded value object")

/-- The issues of the nested values, after members with the names `seen`. -/
def nestedIssues (object : String) (seen : List String) : List NestedValue → List Issue
  | [] => []
  | n :: ns =>
    (if seen.contains n.name then [duplicateMember object n.name] else []) ++
      (if n.target.isNone then [undefinedNested object n] else []) ++ nestedIssues object (n.name :: seen) ns

def checkNested (g : Graph) (id : EntityId) : Found Graph :=
  let object := g.qualifiedName id
  let names := (g.attributesOf id).map (·.name)
  let nested := (g.entity id).nested.map fun n => { n with target := g.lookup n.typeName .embeddedValue }
  (g.modifyEntity id fun e => { e with nested := nested },
    (repeated [] names).map (duplicateMember object) ++ nestedIssues object names nested)

/-! ### Cycles -/

/-- The part of a path that starts at an entity on it. -/
def cycleAt (path : List EntityId) (id : EntityId) : List EntityId :=
  path.dropWhile (· != id)

def cyclicNesting (g : Graph) (cycle : List EntityId) (id : EntityId) : Issue :=
  .error .embeddedValues .consistency (g.qualifiedName id) none
    ("cyclic nesting of embedded value objects: " ++ " -> ".intercalate ((cycle ++ [id]).map g.qualifiedName))

def nestedTargets (g : Graph) (id : EntityId) : List EntityId :=
  (g.entity id).nested.filterMap (·.target)

/-- Settles an embedded value, reached through the values of `path`, and all values nested in it. -/
def visitNested : Nat → List EntityId → Graph → EntityId → Found Graph
  | 0, _, g, _ => (g, [])
  | steps + 1, path, g, id =>
    match g.stateOf id with
    | .resolved | .failed => (g, [])
    | .inProgress =>
      let cycle := cycleAt path id
      (g.setStates cycle .failed, [cyclicNesting g cycle id])
    | .unresolved =>
      let targets := g.nestedTargets id
      let (g, issues) := gather (visitNested steps (path ++ [id])) (g.setState id .inProgress) targets
      let settled := if targets.all fun t => g.stateOf t == .resolved then EntityState.resolved else .failed
      (if g.stateOf id == .inProgress then g.setState id settled else g, issues)

def resolveEmbeddedValues (g : Graph) : Found Graph :=
  let ids := g.idsOfKind .embeddedValue
  (gather checkNested g ids).andThen (gather (visitNested (ids.length + 1) []) · ids)

end Metamodel.Graph
