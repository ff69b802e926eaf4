import Metamodel.Emission.Pool
import Metamodel.Text.Placeholder

/-!
# Descriptions

The description of an object is a header line and one line for each attribute and each relationship, filled into
templates.
-/

namespace Metamodel

namespace Graph

def placeholder (name : String) : String :=
  "\x7b" ++ name ++ "\x7d"

def headerTemplate : String :=
  placeholder "name" ++ " [" ++ placeholder "kind" ++ "]" ++ placeholder "super"

def attributeTemplate : String :=
  "  " ++ placeholder "name" ++ ": " ++ placeholder "type" ++ placeholder "flags"

def relationshipTemplate : String :=
  "  " ++ placeholder "name" ++ " -> " ++ placeholder "related" ++ " (" ++ placeholder "cardinality" ++ ")" ++
    placeholder "flags"

def flag (on : Bool) (word : String) : String :=
  if on then " " ++ word else ""

def describeHeader (g : Graph) (template : String) (id : EntityId) : String :=
  let e := g.entity id
  let above := match e.superEntity with
    | some parent => " extends " ++ g.qualifiedName parent
    | none => ""
  Text.fill template [("name", e.qualifiedName), ("kind", if e.isReadOnly then "read-only" else "transactional"),
    ("super", above)]

def describeAttribute (g : Graph) (template : String) (a : Attribute) : String :=
  let owner := match a.ownership with
    | some o => " owned-by " ++ (g.relationshipAt o.relationship).name
    | none => ""
  Text.fill template [("name", a.name), ("type", a.dataType.name),
    ("flags", flag a.isPrimaryKey "pk" ++ flag a.isAsOf "as-of" ++ flag a.isInherited "inherited" ++ owner)]

def describeRelationship (g : Graph) (template : String) (r : Relationship) : String :=
  Text.fill template [("name", r.name), ("related", (r.related.map g.qualifiedName).getD r.relatedName),
    ("cardinality", (r.cardinality.map (·.key)).getD ""),
    ("flags", flag r.isRelatedDependent "dependent" ++ flag r.isReverse "reverse")]

/-- The lines of a description, given the templates of its three sorts of lines. -/
def descriptionLines (g : Graph) (header member relationship : String) (id : EntityId) : List String :=
  g.describeHeader header id :: (g.attributesOf id).map (g.describeAttribute member) ++
    (g.relationshipsOf id).map (g.describeRelationship relationship)

end Graph

/-- The name of an object with its description. -/
def describe : Emitter (String × String) := fun g id cache =>
  let header := cache.fetch "header" (.ok Graph.headerTemplate)
  let attributes := header.cache.fetch "attribute" (.ok Graph.attributeTemplate)
  let relationships := attributes.cache.fetch "relationship" (.ok Graph.relationshipTemplate)
  let text := do
    let lines := g.descriptionLines (← header.answer) (← attributes.answer) (← relationships.answer) id
    return (g.qualifiedName id, "\n".intercalate lines)
  (text, relationships.cache)

/-- The descriptions of all objects to emit by name, and the result of their emission. -/
def Graph.descriptions (g : Graph) (workers : Nat) : NameMap String × Except Error EmissionSummary :=
  let pool := g.runPool workers describe
  (.ofList pool.emitted, g.emissionResult pool)

end Metamodel
