import Metamodel.DataType

/-!
# Errors

What can go wrong between a metamodel text and the emitted output, each with its message.
-/

namespace Metamodel

/-- Something that an attribute may be asked for and not every kind of attribute has. -/
inductive Capability where
  | primaryKey | primaryKeyGenerator | simulatedSequence | timezonePolicy
deriving DecidableEq

def Capability.name : Capability → String
  | primaryKey => "PrimaryKey"
  | primaryKeyGenerator => "PrimaryKeyGenerator"
  | simulatedSequence => "SimulatedSequence"
  | timezonePolicy => "TimezoneConversion"

def Capability.all : List Capability :=
  [primaryKey, primaryKeyGenerator, simulatedSequence, timezonePolicy]

def Capability.phrase : Capability → String
  | primaryKey => "primary key membership"
  | primaryKeyGenerator => "a primary key generator strategy"
  | simulatedSequence => "a simulated sequence"
  | timezonePolicy => "a timezone conversion policy"

inductive Error where
  | unknownCardinality (key : String)
  | unsupported (member : String) (capability : Capability)
  | unknownObject (name : String)
  /-- Resolution found errors; `report` lists them. -/
  | unresolved (errors : Nat) (report : String)
  | emission (reason : String)
  /-- One text for each entity that could not be emitted. -/
  | emissions (failures : List String)
  /-- The text is no metamodel; without a reason, it is not even JSON. -/
  | malformed (reason : Option String)
deriving DecidableEq

def Error.message : Error → String
  | unknownCardinality key =>
    "unknown cardinality '" ++ key ++ "' (expected one-to-one, one-to-many, many-to-one or many-to-many)"
  | unsupported member capability =>
    "attribute '" ++ member ++ "' does not support " ++ capability.phrase
  | unknownObject name => "unknown object type '" ++ name ++ "'"
  | unresolved errors report =>
    "one or more error(s) while validating the metamodel (" ++ toString errors ++ " error(s)):\n" ++ report
  | emission reason => "emission error: " ++ reason
  | emissions failures =>
    "emission failed for " ++ toString failures.length ++ " object(s): " ++ "; ".intercalate failures
  | malformed none => "metamodel error"
  | malformed (some reason) => "metamodel error: " ++ reason

end Metamodel
