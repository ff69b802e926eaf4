import Metamodel.Declaration.Basic

/-!
# Building declarations

One setting or member at a time, on top of the structure instances `{ name := … }`, whose other fields have defaults.
Members are added at the end.
-/

namespace Metamodel

namespace AttributeDeclaration

def withPrimaryKey (a : AttributeDeclaration) : AttributeDeclaration :=
  { a with column.primaryKey := true }

def withColumn (a : AttributeDeclaration) (column : String) : AttributeDeclaration :=
  { a with column.columnName := some column }

def withNullable (a : AttributeDeclaration) (nullable : Bool) : AttributeDeclaration :=
  { a with column.nullable := some nullable }

def withMaxLength (a : AttributeDeclaration) (length : UInt32) : AttributeDeclaration :=
  { a with column.maxLength := some length }

def withTrim (a : AttributeDeclaration) (trim : Bool) : AttributeDeclaration :=
  { a with column.trim := some trim }

def withPoolable (a : AttributeDeclaration) (poolable : Bool) : AttributeDeclaration :=
  { a with column.poolable := some poolable }

def withTimezone (a : AttributeDeclaration) (policy : TimezonePolicy) : AttributeDeclaration :=
  { a with column.timezone := some policy }

def withPrecision (a : AttributeDeclaration) (precision scale : Int32) : AttributeDeclaration :=
  { a with column.precision := some precision, column.scale := some scale }

def withDefault (a : AttributeDeclaration) (expression : String) : AttributeDeclaration :=
  { a with column.defaultIfNull := some expression }

def withKeyGenerator (a : AttributeDeclaration) (generator : KeyGenerator) : AttributeDeclaration :=
  { a with column.keyGenerator := some generator }

def withSequence (a : AttributeDeclaration) (sequence : SequenceDeclaration) : AttributeDeclaration :=
  { a with column.sequence := some sequence }

def withSetAsString (a : AttributeDeclaration) : AttributeDeclaration :=
  { a with column.setAsString := true }

end AttributeDeclaration

namespace AsOfDeclaration

def withColumns (a : AsOfDeclaration) (fromColumn toColumn : String) : AsOfDeclaration :=
  { a with settings.fromColumn := some fromColumn, settings.toColumn := some toColumn }

def withInfinityDate (a : AsOfDeclaration) (expression : String) : AsOfDeclaration :=
  { a with settings.infinityDate := some expression }

def withProcessingDate (a : AsOfDeclaration) : AsOfDeclaration :=
  { a with settings.isProcessingDate := true }

def withDefault (a : AsOfDeclaration) (expression : String) : AsOfDeclaration :=
  { a with settings.defaultIfNotSpecified := some expression }

end AsOfDeclaration

def EnumerationAttributeDeclaration.withColumn (a : EnumerationAttributeDeclaration) (column : String) :
    EnumerationAttributeDeclaration :=
  { a with columnName := some column }

namespace EmbeddedValueDeclaration

def withMapping (v : EmbeddedValueDeclaration) (member column : String) : EmbeddedValueDeclaration :=
  mk v.name v.typeName (v.mappings ++ [{ member := member, columnName := column }]) v.nested

def withNested (v w : EmbeddedValueDeclaration) : EmbeddedValueDeclaration :=
  mk v.name v.typeName v.mappings (v.nested ++ [w])

end EmbeddedValueDeclaration

namespace RelationshipDeclaration

def withReverseName (r : RelationshipDeclaration) (name : String) : RelationshipDeclaration :=
  { r with reverseName := some name }

def withDependent (r : RelationshipDeclaration) : RelationshipDeclaration :=
  { r with relatedIsDependent := some true }

def withOrderBy (r : RelationshipDeclaration) (orderBy : String) : RelationshipDeclaration :=
  { r with orderBy := some orderBy }

def withParameters (r : RelationshipDeclaration) (parameters : String) : RelationshipDeclaration :=
  { r with parameters := some parameters }

end RelationshipDeclaration

namespace ObjectDeclaration

def withSuperClass (o : ObjectDeclaration) (name : String) : ObjectDeclaration :=
  { o with superClass := some name }

def withReadOnly (o : ObjectDeclaration) : ObjectDeclaration :=
  { o with access := .readOnly }

def withImported (o : ObjectDeclaration) : ObjectDeclaration :=
  { o with imported := true }

def withFinalGetters (o : ObjectDeclaration) (finalGetters : Bool) : ObjectDeclaration :=
  { o with defaultFinalGetters := some finalGetters }

def withAttribute (o : ObjectDeclaration) (a : AttributeDeclaration) : ObjectDeclaration :=
  { o with attributes := o.attributes ++ [a] }

def withAsOf (o : ObjectDeclaration) (a : AsOfDeclaration) : ObjectDeclaration :=
  { o with asOfAttributes := o.asOfAttributes ++ [a] }

def withSource (o : ObjectDeclaration) (s : SourceDeclaration) : ObjectDeclaration :=
  { o with sourceAttribute := some s }

def withEnumeration (o : ObjectDeclaration) (a : EnumerationAttributeDeclaration) : ObjectDeclaration :=
  { o with enumerationAttributes := o.enumerationAttributes ++ [a] }

def withEmbeddedValue (o : ObjectDeclaration) (v : EmbeddedValueDeclaration) : ObjectDeclaration :=
  { o with embeddedValues := o.embeddedValues ++ [v] }

def withRelationship (o : ObjectDeclaration) (r : RelationshipDeclaration) : ObjectDeclaration :=
  { o with relationships := o.relationships ++ [r] }

def withInterface (o : ObjectDeclaration) (name : String) : ObjectDeclaration :=
  { o with interfaces := o.interfaces ++ [name] }

end ObjectDeclaration

namespace EmbeddedObjectDeclaration

def withAttribute (o : EmbeddedObjectDeclaration) (name : String) (t : DataType) : EmbeddedObjectDeclaration :=
  { o with attributes := o.attributes ++ [{ name := name, dataType := t }] }

def withNested (o : EmbeddedObjectDeclaration) (name typeName : String) : EmbeddedObjectDeclaration :=
  { o with nested := o.nested ++ [{ name := name, typeName := typeName }] }

end EmbeddedObjectDeclaration

def EnumerationDeclaration.withMember (e : EnumerationDeclaration) (name value : String) : EnumerationDeclaration :=
  { e with members := e.members ++ [{ name := name, persistedValue := value }] }

namespace InterfaceDeclaration

def withSuperInterface (i : InterfaceDeclaration) (name : String) : InterfaceDeclaration :=
  { i with superInterfaces := i.superInterfaces ++ [name] }

def withAttribute (i : InterfaceDeclaration) (name : String) (t : DataType) : InterfaceDeclaration :=
  { i with attributes := i.attributes ++ [{ name := name, dataType := t }] }

def withAsOf (i : InterfaceDeclaration) (name : String) (isProcessingDate : Bool) : InterfaceDeclaration :=
  { i with asOfAttributes := i.asOfAttributes ++ [{ name := name, isProcessingDate := isProcessingDate }] }

def withRelationship (i : InterfaceDeclaration) (name related cardinality : String) : InterfaceDeclaration :=
  { i with relationships := i.relationships ++
      [{ name := name, relatedObject := related, cardinality := cardinality }] }

end InterfaceDeclaration

end Metamodel
