import Metamodel.Graph.Basic
import Metamodel.Issue.Gather
import Metamodel.Text.FirstLetter

/-!
# Expansion of embedded values

The uses of embedded values that an object declares become mapped attributes of the object, in the order of the
declarations, values before the values nested in them.  A column that is bound already is left alone.
-/

namespace Metamodel.Graph

/-- The name of a nested value: its path in camel case. -/
def nestedName (path : List String) : String :=
  Text.firstLower (String.join (path.map Text.firstUpper))

def expansionIssue (kind : IssueKind) (object member message : String) : Issue :=
  .error .attributes kind object (some member) message

/-- The attribute of the object for one mapping of the embedded value `valueName`, whose type is `value`. -/
def mapColumn (owner value : EntityId) (valueName : String) (g : Graph) (m : ColumnMapping) : Found Graph :=
  let object := g.qualifiedName owner
  match g.attributeNamed? value m.member with
  | none => (g, [expansionIssue .schema object valueName
      ("embedded value object " ++ g.qualifiedName value ++ " has no attribute '" ++ m.member ++ "'")])
  | some source =>
    if (g.attributesOf owner).any fun a => a.columnName == some m.columnName then (g, [])
    else
      let name := m.underlying.getD (valueName ++ Text.firstUpper m.member)
      if g.hasMember owner name then
        (g, [expansionIssue .consistency object name ("mapped attribute '" ++ name ++ "' of embedded value '" ++
          valueName ++ "' collides with an existing member")])
      else
        let source := g.attributeAt source
        let settings : MappedSettings :=
          { embeddedValue := valueName
            member := m.member
            columnName := m.columnName
            nullable := source.isNullable
            maxLength := source.maxLength }
        (g.addAttribute (.ofMapping name source.dataType settings owner (g.entity owner).defaults), [])

/-- The type of the value that `value` nests under a name. -/
def nestedTarget? (g : Graph) (value : EntityId) (name : String) : Option EntityId :=
  ((g.entity value).nested.find? (·.name == name)).bind (·.target)

mutual

/-- The attributes for the use of an embedded value of type `value`, nested in the values named by `path`. -/
def expand (owner : EntityId) (path : List String) (value : EntityId) (g : Graph) :
    EmbeddedValueDeclaration → Found Graph
  | .mk name _ mappings nested =>
    let path := path ++ [name]
    (gather (mapColumn owner value (nestedName path)) g mappings).andThen fun g =>
      expandNested owner path value g nested

def expandNested (owner : EntityId) (path : List String) (value : EntityId) (g : Graph) :
    List EmbeddedValueDeclaration → Found Graph
  | [] => (g, [])
  | d :: ds =>
    let here := match g.nestedTarget? value d.name with
      | some target => expand owner path target g d
      | none => (g, [expansionIssue .schema (g.qualifiedName owner) (nestedName path)
          ("embedded value object " ++ g.qualifiedName value ++ " has no nested object '" ++ d.name ++ "'")])
    here.andThen fun g => expandNested owner path value g ds

end

/-- The attributes for one use of an embedded value by an object. -/
def expandValue (owner : EntityId) (g : Graph) (d : EmbeddedValueDeclaration) : Found Graph :=
  let issue := expansionIssue .schema (g.qualifiedName owner) d.name
  match d.typeName with
  | none => (g, [issue ("embedded value '" ++ d.name ++ "' does not declare its type")])
  | some typeName =>
    match g.lookup typeName .embeddedValue with
    | none => (g, [issue ("embedded value type '" ++ typeName ++ "' is not defined")])
    | some value =>
      if g.isFailed value then (g, [issue ("embedded value type '" ++ typeName ++ "' failed resolution")])
      else expand owner [] value g d

def expandValues (owner : EntityId) (g : Graph) (ds : List EmbeddedValueDeclaration) : Found Graph :=
  gather (expandValue owner) g ds

end Metamodel.Graph
