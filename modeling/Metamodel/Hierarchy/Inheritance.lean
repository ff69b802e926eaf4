import Metamodel.Attribute.Merge
import Metamodel.Graph.Basic
import Metamodel.Issue.Gather

/-!
# Inheritance

An object inherits the attributes and relationships of its superclass, after the superclass has inherited its own; those
it declares again must agree with them.  `settle` goes up from an object to its superclass and merges on the way back;
a superclass that is undefined, is on the way already or failed itself makes the object fail.  It goes up from an object
only if it has not been there, and so no higher than there are objects.
-/

namespace Metamodel.Graph

/-! ### Members of the superclass -/

/-- A message about a member. -/
abbrev MemberConflict := String × String

/-- A step that may find conflicts. -/
def collect {α : Type} (step : Graph → α → Graph × List MemberConflict) : Graph → List α → Graph × List MemberConflict
  | g, [] => (g, [])
  | g, a :: as =>
    let (g, here) := step g a
    let (g, later) := collect step g as
    (g, here ++ later)

def addInheritedAttribute (child : EntityId) (g : Graph) (a : Attribute) : Graph :=
  g.addAttribute (a.inheritedBy child (g.entity child).defaults)

/-- `parentSource` is the source attribute of the superclass, and `ownSource` says whether the subclass declares one. -/
def inheritAttribute (child : EntityId) (parentSource : Option AttributeId) (ownSource : Bool) (g : Graph)
    (id : AttributeId) : Graph × List MemberConflict :=
  let a := g.attributeAt id
  if some id = parentSource then
    if ownSource then (g, [])
    else
      ((addInheritedAttribute child g a).modifyEntity child fun e => { e with source := some g.attributes.size }, [])
  else match g.attributeNamed? child a.name with
    | none => (addInheritedAttribute child g a, [])
    | some own =>
      let (merged, conflicts) := (g.attributeAt own).mergedWith a
      (g.modifyAttribute own fun _ => merged, conflicts.map fun message => (a.name, message))

/-- A counterpart stays with the object that it was made for. -/
def inheritRelationship (child : EntityId) (g : Graph) (id : RelationshipId) : Graph × List MemberConflict :=
  let r := g.relationshipAt id
  if r.isReverse then (g, [])
  else match g.relationshipNamed? child r.name with
    | none => (g.addRelationship (r.inheritedBy child), [])
    | some own =>
      let (merged, conflicts) := (g.relationshipAt own).mergedWith r
      (g.modifyRelationship own fun _ => merged, conflicts.map fun message => (r.name, message))

/-- A source attribute that is declared where one is inherited. -/
def overriddenSource (own : Attribute) : MemberConflict :=
  (own.name, "source attributes are not allowed to be overridden")

def sourceConflicts (g : Graph) (parent child : EntityId) : List MemberConflict :=
  match (g.entity parent).source, (g.entity child).source with
  | some _, some own => [overriddenSource (g.attributeAt own)]
  | _, _ => []

/-- The members of `parent` merged into `child`. -/
def mergeMembers (g : Graph) (parent child : EntityId) : Graph × List MemberConflict :=
  let source := (g.entity parent).source
  let ownSource := (g.entity child).source.isSome
  let (merged, attributes) := collect (inheritAttribute child source ownSource) g (g.entity parent).attributes
  let (merged, relationships) := collect (inheritRelationship child) merged (merged.entity parent).relationships
  (merged, sourceConflicts g parent child ++ attributes ++ relationships)

/-! ### The way up -/

def inheritanceIssue (g : Graph) (kind : IssueKind) (id : EntityId) (member : Option String)
    (message : String) : Issue :=
  .error .inheritance kind (g.qualifiedName id) member message

/-- The part of a way that starts at an entity on it. -/
def superCycle (path : List EntityId) (id : EntityId) : List EntityId :=
  path.dropWhile (· != id)

/-- The end of the way back to `id`, whose superclass `parent` is settled. -/
def inheritFrom (g : Graph) (superName : String) (parent id : EntityId) : Found Graph :=
  if g.stateOf parent != .resolved then
    if g.isFailed id then (g, [])
    else
      (g.setState id .failed, [inheritanceIssue g .consistency id none
        ("superclass '" ++ superName ++ "' of '" ++ g.qualifiedName id ++ "' failed resolution")])
  else
    let (merged, conflicts) := g.mergeMembers parent id
    (merged.setState id (if conflicts.isEmpty then .resolved else .failed),
      conflicts.map fun (member, message) => inheritanceIssue g .schema id (some member) message)

/-- Settles an object, reached from the objects of `path`, and all objects above it. -/
def settle : Nat → List EntityId → Graph → EntityId → Found Graph
  | 0, _, g, _ => (g, [])
  | steps + 1, path, g, id =>
    match g.stateOf id with
    | .resolved | .failed => (g, [])
    | .inProgress =>
      let cycle := superCycle path id
      (g.setStates cycle .failed, [inheritanceIssue g .consistency id none
        ("cyclic superclass chain " ++ " -> ".intercalate ((cycle ++ [id]).map g.qualifiedName))])
    | .unresolved =>
      match (g.entity id).superName with
      | none => (g.setState id .resolved, [])
      | some superName =>
        match g.lookup superName .object with
        | none => (g.setState id .failed,
            [inheritanceIssue g .schema id none ("SuperClass name '" ++ superName ++ "' not defined")])
        | some parent =>
          let g := g.modifyEntity id fun e => { e with superEntity := some parent, state := .inProgress }
          (settle steps (path ++ [id]) g parent).andThen fun g => g.inheritFrom superName parent id

def resolveInheritance (g : Graph) : Found Graph :=
  let ids := g.idsOfKind .object
  gather (settle (ids.length + 1) []) g ids

end Metamodel.Graph
