import Metamodel.Attribute.Check
import Metamodel.Embedded.Nesting

/-!
# Checks of the members of an object

Issues of the settings of single attributes, before relationships are read, and of all members together at the end.  An
inherited attribute was checked with the class that declares it, and an object that failed is not checked.  `key` is the
name under which the object is reported.
-/

namespace Metamodel.Graph

/-- The problems of the attributes that an object does not inherit. -/
def attributeIssues (g : Graph) (id : EntityId) (key : String) : List Issue :=
  if g.isFailed id then []
  else ((g.attributesOf id).filter (! ·.isInherited)).flatMap fun a =>
    a.problems.map (Issue.error .attributes .schema key (some a.name))

def consistencyIssue (key : String) (member : Option String) (message : String) : Issue :=
  .error .postValidation .consistency key member message

/-- The names of all attributes and relationships of an object. -/
def memberNames (g : Graph) (id : EntityId) : List String :=
  (g.attributesOf id).map (·.name) ++ (g.relationshipsOf id).map (·.name)

def processingDateIssues (g : Graph) (id : EntityId) (key : String) : List Issue :=
  let count := ((g.attributesOf id).filter (·.isProcessingDate)).length
  if count ≤ 1 then []
  else [consistencyIssue key none
    ("only one processing date as-of attribute is allowed, found " ++ toString count)]

/-- A counterpart has the reverse cardinality of the relationship that it reverses. -/
def reversalIssues (g : Graph) (id : EntityId) (key : String) : List Issue :=
  (g.relationshipsOf id).flatMap fun r =>
    match r.reversal with
    | none => []
    | some reversal =>
      let forward := g.relationshipAt reversal.forward
      if r.cardinality = forward.cardinality.map (·.reverse) then []
      else [consistencyIssue key (some r.name) ("reverse relationship '" ++ r.name ++
        "' does not invert the cardinality of '" ++ forward.name ++ "'")]

def memberIssues (g : Graph) (id : EntityId) (key : String) : List Issue :=
  if g.isFailed id then []
  else
    (repeated [] (g.memberNames id)).map (fun name =>
      consistencyIssue key (some name) ("duplicate member name '" ++ name ++ "'")) ++
    processingDateIssues g id key ++ reversalIssues g id key

end Metamodel.Graph
