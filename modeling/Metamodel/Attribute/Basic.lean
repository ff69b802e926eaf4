import Metamodel.Declaration.Basic
import Metamodel.Error

/-!
# Attributes

A member of an entity that is kept in one column, or in two, or in none.  The kinds are closed, and each derived
property is a decision over them.  Entities, attributes and relationships refer to each other by their index in the
graph that holds them.  An inherited attribute knows the entity that declares it; ownership by a relationship is there
as a whole or not at all.
-/

namespace Metamodel

abbrev EntityId := Nat
abbrev AttributeId := Nat
abbrev RelationshipId := Nat

/-- What the members of an entity fall back on. -/
structure MemberDefaults where
  finalGetters : Bool := false
  timezone : TimezonePolicy := .keep
deriving DecidableEq, Inhabited

structure EnumerationSettings where
  enumeration : String
  /-- The entity and the class of the enumeration, once it has been found. -/
  target : Option EntityId := none
  className : Option String := none
  columnName : Option String := none
  nullable : Option Bool := none
  members : List EnumerationMember := []
  /-- What the declaration asks for and an enumeration attribute cannot have. -/
  unsupported : List Capability := []
deriving DecidableEq

def EnumerationSettings.ofDeclaration (d : EnumerationAttributeDeclaration) : EnumerationSettings where
  enumeration := d.enumeration
  columnName := d.columnName
  nullable := d.nullable
  unsupported :=
    (if d.primaryKey then [.primaryKey] else []) ++ (if d.sequence.isSome then [.simulatedSequence] else []) ++
      (if d.timezone.isSome then [.timezonePolicy] else [])

/-- An attribute of an embedded value, kept in a column of the entity that holds the value. -/
structure MappedSettings where
  embeddedValue : String
  member : String
  columnName : String
  nullable : Bool
  maxLength : Option UInt32
deriving DecidableEq

inductive AttributeKind where
  | column (settings : ColumnSettings)
  | asOf (settings : AsOfSettings)
  | enumeration (settings : EnumerationSettings)
  | source
  | mapped (settings : MappedSettings)
deriving DecidableEq, Inhabited

def AttributeKind.name : AttributeKind → String
  | column _ => "plain"
  | asOf _ => "as-of"
  | enumeration _ => "enumeration"
  | source => "source"
  | mapped _ => "mapped"

/-- The far end of a relationship, seen from the attribute that it owns. -/
structure FarEnd where
  type : TypeName
  name : String
deriving DecidableEq

structure Ownership where
  relationship : RelationshipId
  name : Option String
  farEnd : Option FarEnd
deriving DecidableEq

structure Attribute where
  name : String
  owner : EntityId
  originalOwner : Option EntityId := none
  dataType : DataType
  defaults : MemberDefaults
  kind : AttributeKind
  ownership : Option Ownership := none
deriving DecidableEq, Inhabited

namespace Attribute

/-! ### The five kinds -/

def ofDeclaration (d : AttributeDeclaration) (owner : EntityId) (defaults : MemberDefaults) : Attribute where
  name := d.name
  owner := owner
  dataType := d.dataType
  defaults := defaults
  kind := .column d.column

/-- An as-of attribute is a point in time. -/
def ofAsOf (d : AsOfDeclaration) (owner : EntityId) (defaults : MemberDefaults) : Attribute where
  name := d.name
  owner := owner
  dataType := .timestamp
  defaults := defaults
  kind := .asOf d.settings

def ofSource (d : SourceDeclaration) (owner : EntityId) (defaults : MemberDefaults) : Attribute where
  name := d.name
  owner := owner
  dataType := d.dataType
  defaults := defaults
  kind := .source

def ofEnumeration (name : String) (persistedType : DataType) (settings : EnumerationSettings) (owner : EntityId)
    (defaults : MemberDefaults) : Attribute where
  name := name
  owner := owner
  dataType := persistedType
  defaults := defaults
  kind := .enumeration settings

def ofMapping (name : String) (dataType : DataType) (settings : MappedSettings) (owner : EntityId)
    (defaults : MemberDefaults) : Attribute where
  name := name
  owner := owner
  dataType := dataType
  defaults := defaults
  kind := .mapped settings

/-- The copy that another entity inherits.  It belongs to no relationship yet. -/
def inheritedBy (a : Attribute) (heir : EntityId) (defaults : MemberDefaults) : Attribute :=
  { a with
    owner := heir
    defaults := defaults
    originalOwner := some (a.originalOwner.getD a.owner)
    ownership := none }

/-! ### Properties -/

def isInherited (a : Attribute) : Bool :=
  a.originalOwner.isSome

def isAsOf (a : Attribute) : Bool :=
  match a.kind with
  | .asOf _ => true
  | _ => false

def isSource (a : Attribute) : Bool :=
  match a.kind with
  | .source => true
  | _ => false

def isEnumeration (a : Attribute) : Bool :=
  match a.kind with
  | .enumeration _ => true
  | _ => false

def isMapped (a : Attribute) : Bool :=
  match a.kind with
  | .mapped _ => true
  | _ => false

/-- The column of an attribute that has exactly one. -/
def columnName (a : Attribute) : Option String :=
  match a.kind with
  | .column s => s.columnName
  | .enumeration s => s.columnName
  | .mapped s => some s.columnName
  | .asOf _ | .source => none

/-- A column may be null unless it is declared otherwise; a primary key only if it is declared so. -/
def isNullable (a : Attribute) : Bool :=
  match a.kind with
  | .column s => s.nullable.getD (!s.primaryKey)
  | .enumeration s => s.nullable.getD true
  | .mapped s => s.nullable
  | .asOf _ | .source => false

def isPrimaryKey (a : Attribute) : Bool :=
  match a.kind with
  | .column s => s.primaryKey
  | _ => false

def isIdentity (a : Attribute) : Bool :=
  match a.kind with
  | .column s => s.identity
  | _ => false

def isReadOnly (a : Attribute) : Bool :=
  match a.kind with
  | .column s => s.readOnly
  | .asOf _ | .source => true
  | .enumeration _ | .mapped _ => false

def isPoolable (a : Attribute) : Bool :=
  match a.kind with
  | .column s => a.dataType.isPoolable && s.poolable.getD true
  | .asOf s => s.poolable.getD true
  | .source => a.dataType.isTextual
  | .mapped _ => a.dataType.isPoolable
  | .enumeration _ => false

def mustTrim (a : Attribute) : Bool :=
  match a.kind with
  | .column s => a.dataType.isTextual && s.trim.getD true
  | .mapped _ => a.dataType.isTextual
  | _ => false

def mustTruncate (a : Attribute) : Bool :=
  match a.kind with
  | .column s => s.truncate.getD false
  | _ => false

def maxLength (a : Attribute) : Option UInt32 :=
  match a.kind with
  | .column s => s.maxLength
  | .mapped s => s.maxLength
  | _ => none

def finderType (a : Attribute) : String :=
  if a.isAsOf then "AsOfAttribute" else a.dataType.finderType

def timezone (a : Attribute) : TimezonePolicy :=
  match a.kind with
  | .column s => s.timezone.getD .keep
  | .asOf s => s.timezone.getD a.defaults.timezone
  | _ => .keep

def needsTimezoneConversion (a : Attribute) : Bool :=
  a.dataType == .timestamp && a.timezone != .keep

/-- Only columns and as-of attributes have a timezone policy. -/
def withTimezone (a : Attribute) (policy : TimezonePolicy) : Except Error Attribute :=
  match a.kind with
  | .column s => .ok { a with kind := .column { s with timezone := some policy } }
  | .asOf s => .ok { a with kind := .asOf { s with timezone := some policy } }
  | _ => .error (.unsupported a.name .timezonePolicy)

def defaultExpression (a : Attribute) : Option String :=
  match a.kind with
  | .column s => s.defaultIfNull
  | .asOf s => s.defaultIfNotSpecified
  | _ => none

def hasFinalGetter (a : Attribute) : Bool :=
  match a.kind with
  | .column s => s.finalGetter.getD a.defaults.finalGetters
  | .asOf s => s.finalGetter.getD a.defaults.finalGetters
  | _ => a.defaults.finalGetters

/-- To ask an enumeration attribute for a generator is an error; other kinds than columns have none. -/
def keyGenerator (a : Attribute) : Except Error (Option KeyGenerator) :=
  match a.kind with
  | .column s => .ok s.keyGenerator
  | .enumeration _ => .error (.unsupported a.name .primaryKeyGenerator)
  | _ => .ok none

def sequence (a : Attribute) : Except Error (Option SequenceDeclaration) :=
  match a.kind with
  | .column s => .ok s.sequence
  | .enumeration _ => .error (.unsupported a.name .simulatedSequence)
  | _ => .ok none

def enumerationMembers (a : Attribute) : List EnumerationMember :=
  match a.kind with
  | .enumeration s => s.members
  | _ => []

def asOfSettings? (a : Attribute) : Option AsOfSettings :=
  match a.kind with
  | .asOf s => some s
  | _ => none

def toIsInclusive (a : Attribute) : Bool :=
  a.asOfSettings?.any (·.toIsInclusive.getD true)

def isProcessingDate (a : Attribute) : Bool :=
  a.asOfSettings?.any (·.isProcessingDate)

/-- The two columns of an as-of attribute, as far as they are declared. -/
def asOfColumns (a : Attribute) : Option (Option String × Option String) :=
  a.asOfSettings?.map fun s => (s.fromColumn, s.toColumn)

end Attribute

end Metamodel
