import Metamodel.Config
import Metamodel.Graph.Basic
import Metamodel.Issue.Gather

/-!
# The graph of declarations

Enumerations, embedded value objects and objects become entities, each sort in the order of its keys, with the members
that they declare themselves; references to other types stay names.  A type whose name is taken is left out and
reported.
-/

namespace Metamodel

def duplicateType (key : String) : Issue :=
  .error .names .schema key none ("duplicate type name '" ++ key ++ "'")

namespace Graph

def addAttributes {α : Type} (g : Graph) (make : α → Attribute) (ds : List α) : Graph :=
  ds.foldl (fun g d => g.addAttribute (make d)) g

def declareEnumeration (g : Graph) (entry : String × EnumerationDeclaration) : Found Graph :=
  let (key, d) := entry
  let e : Entity :=
    { name := d.name, kind := .enumeration, persistedType := some d.persistedType, members := d.members }
  match g.addEntity? e with
  | none => (g, [duplicateType key])
  | some (g, _) => (g, [])

def embeddedAttribute (id : EntityId) (a : EmbeddedAttributeDeclaration) : Attribute :=
  .ofDeclaration { name := a.name, dataType := a.dataType, column := { nullable := a.nullable, maxLength := a.maxLength } }
    id {}

def declareEmbedded (g : Graph) (entry : String × EmbeddedObjectDeclaration) : Found Graph :=
  let (key, d) := entry
  let nested := d.nested.map fun n => { name := n.name, typeName := n.typeName : NestedValue }
  match g.addEntity? { name := d.name, kind := .embeddedValue, nested := nested } with
  | none => (g, [duplicateType key])
  | some (g, id) => (g.addAttributes (embeddedAttribute id) d.attributes, [])

/-- The type of an enumeration attribute is that of the values stored for it; `int`, while there is no such
enumeration. -/
def enumerationAttribute (g : Graph) (id : EntityId) (defaults : MemberDefaults)
    (d : EnumerationAttributeDeclaration) : Attribute :=
  let persistedType := (g.lookup d.enumeration .enumeration).bind fun e => (g.entity e).persistedType
  .ofEnumeration d.name (persistedType.getD .int) (.ofDeclaration d) id defaults

def addSource (g : Graph) (id : EntityId) (defaults : MemberDefaults) : Option SourceDeclaration → Graph
  | none => g
  | some d =>
    (g.addAttribute (.ofSource d id defaults)).modifyEntity id fun e =>
      { e with source := some g.attributes.size }

/-- The members that an object declares itself, in the order of the sorts of attributes. -/
def addMembers (g : Graph) (id : EntityId) (defaults : MemberDefaults) (d : ObjectDeclaration) : Graph :=
  let g := g.addAttributes (Attribute.ofDeclaration · id defaults) d.attributes
  let g := g.addAttributes (Attribute.ofAsOf · id defaults) d.asOfAttributes
  let g := g.addAttributes (g.enumerationAttribute id defaults) d.enumerationAttributes
  let g := g.addSource id defaults d.sourceAttribute
  d.relationships.foldl (fun g r => g.addRelationship (.ofDeclaration r id)) g

/-- The graph, and the objects declared so far with their keys. -/
abbrev WithKeys := Graph × List (EntityId × String)

def declareObject (config : Config) (s : WithKeys) (entry : String × ObjectDeclaration) : Found WithKeys :=
  let (key, d) := entry
  let defaults : MemberDefaults :=
    { finalGetters := d.defaultFinalGetters.getD config.defaultFinalGetters, timezone := config.defaultTimezone }
  let e : Entity :=
    { name := d.name
      kind := .object
      defaults := defaults
      access := d.access
      imported := d.imported
      superName := d.superClass
      interfaces := d.interfaces }
  match s.1.addEntity? e with
  | none => (s, [duplicateType key])
  | some (g, id) => ((g.addMembers id defaults d, s.2 ++ [(id, key)]), [])

def ofDeclarations (config : Config) (d : Declarations) : Found WithKeys :=
  let (g, enumerations) := gather declareEnumeration empty d.enumerations.entries
  let (g, embedded) := gather declareEmbedded g d.embeddedObjects.entries
  let (s, objects) := gather (declareObject config) (g, []) d.objects.entries
  (s, enumerations ++ embedded ++ objects)

end Graph

end Metamodel
