import Metamodel.DataType
import Metamodel.NameMap
import Metamodel.TypeName

/-!
# Declarations

What a metamodel declares, before anything is resolved: objects with their attributes and relationships, embedded value
objects, enumerations and interfaces, in four maps keyed by name.  A key need not be the name of the declaration under
it.  An optional setting that is left out is `none`.
-/

namespace Metamodel

/-! ### Settings of attributes -/

/-- How a primary key gets its next value. -/
inductive KeyGenerator where
  | max | simulatedSequence
deriving DecidableEq

def KeyGenerator.name : KeyGenerator → String
  | max => "Max"
  | simulatedSequence => "SimulatedSequence"

/-- A sequence kept in a table. -/
structure SequenceDeclaration where
  sequenceName : String
  batchSize : Option UInt32 := none
  initialValue : Option Int64 := none
  incrementSize : Option UInt32 := none
deriving DecidableEq

/-- The settings of an attribute that is one column. -/
structure ColumnSettings where
  columnName : Option String := none
  nullable : Option Bool := none
  primaryKey : Bool := false
  identity : Bool := false
  mutablePrimaryKey : Bool := false
  maxLength : Option UInt32 := none
  trim : Option Bool := none
  truncate : Option Bool := none
  poolable : Option Bool := none
  timezone : Option TimezonePolicy := none
  defaultIfNull : Option String := none
  precision : Option Int32 := none
  scale : Option Int32 := none
  readOnly : Bool := false
  finalGetter : Option Bool := none
  setAsString : Bool := false
  keyGenerator : Option KeyGenerator := none
  sequence : Option SequenceDeclaration := none
deriving DecidableEq

/-- The settings of an attribute that is a period of validity, kept in two columns. -/
structure AsOfSettings where
  fromColumn : Option String := none
  toColumn : Option String := none
  infinityDate : Option String := none
  infinityIsNull : Bool := false
  defaultIfNotSpecified : Option String := none
  toIsInclusive : Option Bool := none
  isProcessingDate : Bool := false
  timezone : Option TimezonePolicy := none
  poolable : Option Bool := none
  finalGetter : Option Bool := none
deriving DecidableEq

/-! ### Members of objects -/

structure AttributeDeclaration where
  name : String
  dataType : DataType
  column : ColumnSettings := {}
deriving DecidableEq

structure AsOfDeclaration where
  name : String
  settings : AsOfSettings := {}
deriving DecidableEq

/-- The attribute that tells from which database an object comes. -/
structure SourceDeclaration where
  name : String
  dataType : DataType
deriving DecidableEq

structure EnumerationAttributeDeclaration where
  name : String
  enumeration : String
  columnName : Option String := none
  nullable : Option Bool := none
  primaryKey : Bool := false
  sequence : Option SequenceDeclaration := none
  timezone : Option TimezonePolicy := none
deriving DecidableEq

/-- A column for an attribute of an embedded value; `underlying` names the resulting attribute of the owner. -/
structure ColumnMapping where
  member : String
  columnName : String
  underlying : Option String := none
deriving DecidableEq

/-- The use of an embedded value object as a member, with the columns of its attributes and of the values nested in it.
Only the outermost use names a type. -/
inductive EmbeddedValueDeclaration where
  | mk (name : String) (typeName : Option String) (mappings : List ColumnMapping)
    (nested : List EmbeddedValueDeclaration)

namespace EmbeddedValueDeclaration

def name : EmbeddedValueDeclaration → String
  | mk name _ _ _ => name

def typeName : EmbeddedValueDeclaration → Option String
  | mk _ typeName _ _ => typeName

def mappings : EmbeddedValueDeclaration → List ColumnMapping
  | mk _ _ mappings _ => mappings

def nested : EmbeddedValueDeclaration → List EmbeddedValueDeclaration
  | mk _ _ _ nested => nested

end EmbeddedValueDeclaration

structure RelationshipDeclaration where
  name : String
  relatedObject : String
  cardinality : Option String := none
  query : Option String := none
  reverseName : Option String := none
  relatedIsDependent : Option Bool := none
  orderBy : Option String := none
  parameters : Option String := none
deriving DecidableEq

/-! ### Types -/

inductive AccessMode where
  | transactional | readOnly
deriving DecidableEq

def AccessMode.name : AccessMode → String
  | transactional => "transactional"
  | readOnly => "read-only"

structure ObjectDeclaration where
  name : TypeName
  superClass : Option String := none
  access : AccessMode := .transactional
  imported : Bool := false
  defaultFinalGetters : Option Bool := none
  attributes : List AttributeDeclaration := []
  asOfAttributes : List AsOfDeclaration := []
  sourceAttribute : Option SourceDeclaration := none
  enumerationAttributes : List EnumerationAttributeDeclaration := []
  embeddedValues : List EmbeddedValueDeclaration := []
  relationships : List RelationshipDeclaration := []
  interfaces : List String := []

structure EmbeddedAttributeDeclaration where
  name : String
  dataType : DataType
  nullable : Option Bool := none
  maxLength : Option UInt32 := none
deriving DecidableEq

/-- A value object nested in another. -/
structure NestedDeclaration where
  name : String
  typeName : String
deriving DecidableEq

structure EmbeddedObjectDeclaration where
  name : TypeName
  attributes : List EmbeddedAttributeDeclaration := []
  nested : List NestedDeclaration := []
deriving DecidableEq

/-- A member of an enumeration and the text of the value that is stored for it. -/
structure EnumerationMember where
  name : String
  persistedValue : String
deriving DecidableEq

structure EnumerationDeclaration where
  name : TypeName
  persistedType : DataType
  members : List EnumerationMember := []
deriving DecidableEq

structure InterfaceAttributeDeclaration where
  name : String
  dataType : DataType
deriving DecidableEq

structure InterfaceAsOfDeclaration where
  name : String
  isProcessingDate : Bool := false
deriving DecidableEq

structure InterfaceRelationshipDeclaration where
  name : String
  relatedObject : String
  cardinality : String
deriving DecidableEq

structure InterfaceDeclaration where
  name : TypeName
  superInterfaces : List String := []
  attributes : List InterfaceAttributeDeclaration := []
  asOfAttributes : List InterfaceAsOfDeclaration := []
  relationships : List InterfaceRelationshipDeclaration := []
deriving DecidableEq

structure Declarations where
  objects : NameMap ObjectDeclaration := .empty
  embeddedObjects : NameMap EmbeddedObjectDeclaration := .empty
  enumerations : NameMap EnumerationDeclaration := .empty
  interfaces : NameMap InterfaceDeclaration := .empty

namespace Declarations

/-- The number of declarations of all four sorts. -/
def size (d : Declarations) : Nat :=
  d.objects.size + d.embeddedObjects.size + d.enumerations.size + d.interfaces.size

/-! Each of the following adds a declaration under its qualified name, in place of an earlier one of that name. -/

def addObject (d : Declarations) (o : ObjectDeclaration) : Declarations :=
  { d with objects := d.objects.insert o.name.qualified o }

def addEmbeddedObject (d : Declarations) (o : EmbeddedObjectDeclaration) : Declarations :=
  { d with embeddedObjects := d.embeddedObjects.insert o.name.qualified o }

def addEnumeration (d : Declarations) (e : EnumerationDeclaration) : Declarations :=
  { d with enumerations := d.enumerations.insert e.name.qualified e }

def addInterface (d : Declarations) (i : InterfaceDeclaration) : Declarations :=
  { d with interfaces := d.interfaces.insert i.name.qualified i }

end Declarations

end Metamodel
