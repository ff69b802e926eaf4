import Metamodel.Declaration.Basic
import Metamodel.Json.Shape

/-!
# Writing declarations

Every field is written, in its order of declaration, an optional one that is not set as `null`; the maps are in the
order of their keys.
-/

namespace Metamodel

open Json

def strings (xs : List String) : Json :=
  list text xs

def optionalText (s : Option String) : Json :=
  option text s

def optionalBool (b : Option Bool) : Json :=
  option .bool b

def DataType.toJson (t : DataType) : Json :=
  text t.name

def TimezonePolicy.toJson (p : TimezonePolicy) : Json :=
  text p.name

def KeyGenerator.toJson (g : KeyGenerator) : Json :=
  text g.name

def AccessMode.toJson (m : AccessMode) : Json :=
  text m.name

def SequenceDeclaration.toJson (s : SequenceDeclaration) : Json :=
  .record [("sequence_name", text s.sequenceName), ("batch_size", option (nat ·.toNat) s.batchSize),
    ("initial_value", option (int ·.toInt) s.initialValue),
    ("increment_size", option (nat ·.toNat) s.incrementSize)]

def ColumnSettings.fields (c : ColumnSettings) : List (String × Json) :=
  [("column_name", optionalText c.columnName), ("nullable", optionalBool c.nullable),
    ("primary_key", .bool c.primaryKey), ("identity", .bool c.identity),
    ("mutable_primary_key", .bool c.mutablePrimaryKey), ("max_length", option (nat ·.toNat) c.maxLength),
    ("trim", optionalBool c.trim), ("truncate", optionalBool c.truncate), ("poolable", optionalBool c.poolable),
    ("timezone_conversion", option (·.toJson) c.timezone), ("default_if_null", optionalText c.defaultIfNull),
    ("precision", option (int ·.toInt) c.precision), ("scale", option (int ·.toInt) c.scale),
    ("read_only", .bool c.readOnly), ("final_getter", optionalBool c.finalGetter),
    ("set_as_string", .bool c.setAsString),
    ("primary_key_generator_strategy", option (·.toJson) c.keyGenerator),
    ("simulated_sequence", option (·.toJson) c.sequence)]

def AttributeDeclaration.toJson (a : AttributeDeclaration) : Json :=
  .record ([("name", text a.name), ("data_type", a.dataType.toJson)] ++ a.column.fields)

def AsOfSettings.fields (s : AsOfSettings) : List (String × Json) :=
  [("from_column_name", optionalText s.fromColumn), ("to_column_name", optionalText s.toColumn),
    ("infinity_date", optionalText s.infinityDate), ("infinity_is_null", .bool s.infinityIsNull),
    ("default_if_not_specified", optionalText s.defaultIfNotSpecified),
    ("to_is_inclusive", optionalBool s.toIsInclusive), ("is_processing_date", .bool s.isProcessingDate),
    ("timezone_conversion", option (·.toJson) s.timezone), ("poolable", optionalBool s.poolable),
    ("final_getter", optionalBool s.finalGetter)]

def AsOfDeclaration.toJson (a : AsOfDeclaration) : Json :=
  .record (("name", text a.name) :: a.settings.fields)

def SourceDeclaration.toJson (s : SourceDeclaration) : Json :=
  .record [("name", text s.name), ("data_type", s.dataType.toJson)]

def EnumerationAttributeDeclaration.toJson (a : EnumerationAttributeDeclaration) : Json :=
  .record [("name", text a.name), ("enumeration", text a.enumeration),
    ("column_name", optionalText a.columnName), ("nullable", optionalBool a.nullable),
    ("primary_key", .bool a.primaryKey), ("simulated_sequence", option (·.toJson) a.sequence),
    ("timezone_conversion", option (·.toJson) a.timezone)]

def ColumnMapping.toJson (m : ColumnMapping) : Json :=
  .record [("attribute", text m.member), ("column_name", text m.columnName),
    ("underlying_attribute", optionalText m.underlying)]

mutual

def EmbeddedValueDeclaration.toJson : EmbeddedValueDeclaration → Json
  | .mk name typeName mappings nested =>
    .record [("name", text name), ("type_name", optionalText typeName),
      ("mappings", list (·.toJson) mappings), ("nested", .array (EmbeddedValueDeclaration.listToJson nested))]

def EmbeddedValueDeclaration.listToJson : List EmbeddedValueDeclaration → List Json
  | [] => []
  | v :: vs => v.toJson :: EmbeddedValueDeclaration.listToJson vs

end

def RelationshipDeclaration.toJson (r : RelationshipDeclaration) : Json :=
  .record [("name", text r.name), ("related_object", text r.relatedObject),
    ("cardinality", optionalText r.cardinality), ("query", optionalText r.query),
    ("reverse_name", optionalText r.reverseName), ("related_is_dependent", optionalBool r.relatedIsDependent),
    ("order_by", optionalText r.orderBy), ("parameters", optionalText r.parameters)]

def TypeName.fields (n : TypeName) : List (String × Json) :=
  [("package", text n.package), ("class_name", text n.simple)]

def ObjectDeclaration.toJson (o : ObjectDeclaration) : Json :=
  .record (o.name.fields ++ [("super_class", optionalText o.superClass), ("object_type", o.access.toJson),
    ("imported", .bool o.imported), ("default_final_getters", optionalBool o.defaultFinalGetters),
    ("attributes", list (·.toJson) o.attributes), ("as_of_attributes", list (·.toJson) o.asOfAttributes),
    ("source_attribute", option (·.toJson) o.sourceAttribute),
    ("enumeration_attributes", list (·.toJson) o.enumerationAttributes),
    ("embedded_values", list (·.toJson) o.embeddedValues),
    ("relationships", list (·.toJson) o.relationships), ("interfaces", strings o.interfaces)])

def EmbeddedAttributeDeclaration.toJson (a : EmbeddedAttributeDeclaration) : Json :=
  .record [("name", text a.name), ("data_type", a.dataType.toJson), ("nullable", optionalBool a.nullable),
    ("max_length", option (nat ·.toNat) a.maxLength)]

def NestedDeclaration.toJson (n : NestedDeclaration) : Json :=
  .record [("name", text n.name), ("type_name", text n.typeName)]

def EmbeddedObjectDeclaration.toJson (o : EmbeddedObjectDeclaration) : Json :=
  .record (o.name.fields ++ [("attributes", list (·.toJson) o.attributes), ("nested", list (·.toJson) o.nested)])

def EnumerationMember.toJson (m : EnumerationMember) : Json :=
  .record [("name", text m.name), ("persisted_value", text m.persistedValue)]

def EnumerationDeclaration.toJson (e : EnumerationDeclaration) : Json :=
  .record (e.name.fields ++ [("persisted_type", e.persistedType.toJson), ("members", list (·.toJson) e.members)])

def InterfaceAttributeDeclaration.toJson (a : InterfaceAttributeDeclaration) : Json :=
  .record [("name", text a.name), ("data_type", a.dataType.toJson)]

def InterfaceAsOfDeclaration.toJson (a : InterfaceAsOfDeclaration) : Json :=
  .record [("name", text a.name), ("is_processing_date", .bool a.isProcessingDate)]

def InterfaceRelationshipDeclaration.toJson (r : InterfaceRelationshipDeclaration) : Json :=
  .record [("name", text r.name), ("related_object", text r.relatedObject), ("cardinality", text r.cardinality)]

def InterfaceDeclaration.toJson (i : InterfaceDeclaration) : Json :=
  .record (i.name.fields ++ [("super_interfaces", strings i.superInterfaces),
    ("attributes", list (·.toJson) i.attributes), ("as_of_attributes", list (·.toJson) i.asOfAttributes),
    ("relationships", list (·.toJson) i.relationships)])

def mapToJson {α : Type} (encode : α → Json) (m : NameMap α) : Json :=
  .record (m.entries.map fun (name, a) => (name, encode a))

def Declarations.toJson (d : Declarations) : Json :=
  .record [("objects", mapToJson (·.toJson) d.objects),
    ("embedded_value_objects", mapToJson (·.toJson) d.embeddedObjects),
    ("enumerations", mapToJson (·.toJson) d.enumerations), ("interfaces", mapToJson (·.toJson) d.interfaces)]

/-- The text of the declarations, printed with a library. -/
def Declarations.toTextWith (D : Type → Type) [Library D] (d : Declarations) : String :=
  Library.print D d.toJson

/-- The text of the declarations, one field or item a line. -/
def Declarations.toText (d : Declarations) : String :=
  d.toTextWith Decoder

end Metamodel
