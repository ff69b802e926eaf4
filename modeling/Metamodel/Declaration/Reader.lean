import Metamodel.Declaration.Basic
import Metamodel.Error
import Metamodel.Json.Shape

/-!
# Reading declarations

The fields of each declaration with their types and defaults, and `Declarations.ofText`, which reads a whole metamodel.
A text that is not strict JSON is refused without a reason once anything is wrong with it.
-/

namespace Metamodel

open Json (Fields Library Decoder field fieldD)
open Json.Library (text bool uint32 int32 int64 option variant list nameMap record recursive)

namespace Decode

variable {D : Type → Type} [Library D]

def named {α : Type} (name : α → String) (values : List α) : D α :=
  variant (values.map fun a => (name a, a))

def dataType : D DataType :=
  named DataType.name DataType.all

def timezone : D TimezonePolicy :=
  named TimezonePolicy.name TimezonePolicy.all

def optional {α : Type} (name : String) (decode : D α) : Fields D (Option α) :=
  fieldD name (option decode) none

def flag (name : String) : Fields D Bool :=
  fieldD name bool false

def many {α : Type} (name : String) (decode : D α) : Fields D (List α) :=
  fieldD name (list decode) []

def typeName : Fields D TypeName :=
  TypeName.mk <$> field "package" text <*> field "class_name" text

def sequenceDeclaration : D SequenceDeclaration :=
  record "SimulatedSequenceDecl" <|
    SequenceDeclaration.mk <$> field "sequence_name" text <*> optional "batch_size" uint32
      <*> optional "initial_value" int64 <*> optional "increment_size" uint32

def columnSettings : Fields D ColumnSettings :=
  ColumnSettings.mk <$> optional "column_name" text <*> optional "nullable" bool <*> flag "primary_key"
    <*> flag "identity" <*> flag "mutable_primary_key" <*> optional "max_length" uint32 <*> optional "trim" bool
    <*> optional "truncate" bool <*> optional "poolable" bool <*> optional "timezone_conversion" timezone
    <*> optional "default_if_null" text <*> optional "precision" int32 <*> optional "scale" int32
    <*> flag "read_only" <*> optional "final_getter" bool <*> flag "set_as_string"
    <*> optional "primary_key_generator_strategy" (named KeyGenerator.name [.max, .simulatedSequence])
    <*> optional "simulated_sequence" sequenceDeclaration

def attributeDeclaration : D AttributeDeclaration :=
  record "AttributeDecl" <|
    AttributeDeclaration.mk <$> field "name" text <*> field "data_type" dataType <*> columnSettings

def asOfSettings : Fields D AsOfSettings :=
  AsOfSettings.mk <$> optional "from_column_name" text <*> optional "to_column_name" text
    <*> optional "infinity_date" text <*> flag "infinity_is_null" <*> optional "default_if_not_specified" text
    <*> optional "to_is_inclusive" bool <*> flag "is_processing_date" <*> optional "timezone_conversion" timezone
    <*> optional "poolable" bool <*> optional "final_getter" bool

def asOfDeclaration : D AsOfDeclaration :=
  record "AsOfAttributeDecl" <| AsOfDeclaration.mk <$> field "name" text <*> asOfSettings

def sourceDeclaration : D SourceDeclaration :=
  record "SourceAttributeDecl" <| SourceDeclaration.mk <$> field "name" text <*> field "data_type" dataType

def enumerationAttributeDeclaration : D EnumerationAttributeDeclaration :=
  record "EnumerationAttributeDecl" <|
    EnumerationAttributeDeclaration.mk <$> field "name" text <*> field "enumeration" text
      <*> optional "column_name" text <*> optional "nullable" bool <*> flag "primary_key"
      <*> optional "simulated_sequence" sequenceDeclaration <*> optional "timezone_conversion" timezone

def columnMapping : D ColumnMapping :=
  record "EmbeddedMappingDecl" <|
    ColumnMapping.mk <$> field "attribute" text <*> field "column_name" text
      <*> optional "underlying_attribute" text

/-- The use of an embedded value, given how to read the values nested in it. -/
def embeddedValueLevel (inner : D EmbeddedValueDeclaration) : D EmbeddedValueDeclaration :=
  record "EmbeddedValueDecl" <|
    EmbeddedValueDeclaration.mk <$> field "name" text <*> optional "type_name" text
      <*> many "mappings" columnMapping <*> many "nested" inner

def embeddedValueDeclaration : D EmbeddedValueDeclaration :=
  recursive embeddedValueLevel

def relationshipDeclaration : D RelationshipDeclaration :=
  record "RelationshipDecl" <|
    RelationshipDeclaration.mk <$> field "name" text <*> field "related_object" text
      <*> optional "cardinality" text <*> optional "query" text <*> optional "reverse_name" text
      <*> optional "related_is_dependent" bool <*> optional "order_by" text <*> optional "parameters" text

def objectDeclaration : D ObjectDeclaration :=
  record "ObjectDecl" <|
    ObjectDeclaration.mk <$> typeName <*> optional "super_class" text
      <*> fieldD "object_type" (named AccessMode.name [.transactional, .readOnly]) .transactional
      <*> flag "imported" <*> optional "default_final_getters" bool <*> many "attributes" attributeDeclaration
      <*> many "as_of_attributes" asOfDeclaration <*> optional "source_attribute" sourceDeclaration
      <*> many "enumeration_attributes" enumerationAttributeDeclaration
      <*> many "embedded_values" embeddedValueDeclaration <*> many "relationships" relationshipDeclaration
      <*> many "interfaces" text

def embeddedAttributeDeclaration : D EmbeddedAttributeDeclaration :=
  record "EmbeddedAttributeDecl" <|
    EmbeddedAttributeDeclaration.mk <$> field "name" text <*> field "data_type" dataType
      <*> optional "nullable" bool <*> optional "max_length" uint32

def nestedDeclaration : D NestedDeclaration :=
  record "NestedObjectDecl" <| NestedDeclaration.mk <$> field "name" text <*> field "type_name" text

def embeddedObjectDeclaration : D EmbeddedObjectDeclaration :=
  record "EmbeddedValueObjectDecl" <|
    EmbeddedObjectDeclaration.mk <$> typeName <*> many "attributes" embeddedAttributeDeclaration
      <*> many "nested" nestedDeclaration

def enumerationMember : D EnumerationMember :=
  record "EnumerationMemberDecl" <| EnumerationMember.mk <$> field "name" text <*> field "persisted_value" text

def enumerationDeclaration : D EnumerationDeclaration :=
  record "EnumerationDecl" <|
    EnumerationDeclaration.mk <$> typeName <*> field "persisted_type" dataType <*> many "members" enumerationMember

def interfaceAttribute : D InterfaceAttributeDeclaration :=
  record "InterfaceAttributeDecl" <|
    InterfaceAttributeDeclaration.mk <$> field "name" text <*> field "data_type" dataType

def interfaceAsOf : D InterfaceAsOfDeclaration :=
  record "InterfaceAsOfAttributeDecl" <|
    InterfaceAsOfDeclaration.mk <$> field "name" text <*> flag "is_processing_date"

def interfaceRelationship : D InterfaceRelationshipDeclaration :=
  record "InterfaceRelationshipDecl" <|
    InterfaceRelationshipDeclaration.mk <$> field "name" text <*> field "related_object" text
      <*> field "cardinality" text

def interfaceDeclaration : D InterfaceDeclaration :=
  record "InterfaceDecl" <|
    InterfaceDeclaration.mk <$> typeName <*> many "super_interfaces" text <*> many "attributes" interfaceAttribute
      <*> many "as_of_attributes" interfaceAsOf <*> many "relationships" interfaceRelationship

def declarations : D Declarations :=
  record "Metamodel" <|
    Declarations.mk <$> fieldD "objects" (nameMap objectDeclaration) .empty
      <*> fieldD "embedded_value_objects" (nameMap embeddedObjectDeclaration) .empty
      <*> fieldD "enumerations" (nameMap enumerationDeclaration) .empty
      <*> fieldD "interfaces" (nameMap interfaceDeclaration) .empty

end Decode

/-- The result of decoding a whole text that denotes `j`. -/
def ofJson {α : Type} (decoder : Decoder α) (j : Json) : Except Error α :=
  (Library.decode decoder Json.maxDepth j).mapError .malformed

/-- The declarations that a text holds, read with a library. -/
def Declarations.ofTextWith (D : Type → Type) [Library D] (s : String) : Except Error Declarations :=
  (Library.read (D := D) Decode.declarations s).mapError .malformed

def Declarations.ofText (s : String) : Except Error Declarations :=
  ofTextWith Decoder s

end Metamodel
