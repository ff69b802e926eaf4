import Metamodel.Text.Blank
import Metamodel.Text.Integer

/-!
# Data types

The types that an attribute can have, with their spelling in declarations, in generated stream code and in finders.
`ofName?_name` says that a spelling denotes one type.
-/

namespace Metamodel

inductive DataType where
  | boolean | byte | char | short | int | long | float | double
  | string | date | timestamp | time | bigDecimal | byteArray
deriving DecidableEq, Inhabited

namespace DataType

/-- All types, in their order of declaration. -/
def all : List DataType :=
  [boolean, byte, char, short, int, long, float, double, string, date, timestamp, time, bigDecimal, byteArray]

/-- The spelling in a declaration. -/
def name : DataType → String
  | boolean => "boolean"
  | byte => "byte"
  | char => "char"
  | short => "short"
  | int => "int"
  | long => "long"
  | float => "float"
  | double => "double"
  | string => "String"
  | date => "Date"
  | timestamp => "Timestamp"
  | time => "Time"
  | bigDecimal => "BigDecimal"
  | byteArray => "byte[]"

def ofName? (s : String) : Option DataType :=
  all.find? (·.name == s)

theorem ofName?_name (t : DataType) : ofName? t.name = some t := by
  cases t <;> decide

def isTextual (t : DataType) : Bool :=
  t == string

/-- Values of these types are shared through a pool. -/
def isPoolable (t : DataType) : Bool :=
  t == string || t == timestamp

/-- A database takes a literal of these types as a string. -/
def isSetAsString (t : DataType) : Bool :=
  t == date || t == timestamp

/-- The ending of the method that writes or reads a value on an object stream. -/
def streamType : DataType → String
  | boolean => "Boolean"
  | byte => "Byte"
  | char => "Char"
  | short => "Short"
  | int => "Int"
  | long => "Long"
  | float => "Float"
  | double => "Double"
  | string | date | timestamp | time | bigDecimal | byteArray => "Object"

/-- The cast of a value that is read as an object. -/
def streamCast (t : DataType) : String :=
  if t.streamType == "Object" then "(" ++ t.name ++ ") " else ""

/-- The finder attribute class. -/
def finderType : DataType → String
  | boolean => "BooleanAttribute"
  | byte => "ByteAttribute"
  | char => "CharAttribute"
  | short => "ShortAttribute"
  | int => "IntegerAttribute"
  | long => "LongAttribute"
  | float => "FloatAttribute"
  | double => "DoubleAttribute"
  | string => "StringAttribute"
  | date => "DateAttribute"
  | timestamp => "TimestampAttribute"
  | time => "TimeAttribute"
  | bigDecimal => "BigDecimalAttribute"
  | byteArray => "ByteArrayAttribute"

/-- The width in bits of the types whose literals are signed integers. -/
def wordSize? : DataType → Option Nat
  | byte => some 8
  | short => some 16
  | int => some 32
  | long => some 64
  | _ => none

/-- Whether a literal can be a value of the type.  Blanks around integers and truth values do not count; the types
without a checked form accept every literal. -/
def accepts (t : DataType) (literal : String) : Bool :=
  match t.wordSize?, t with
  | some bits, _ => (Text.word? bits (Text.trim literal.toList)).isSome
  | none, boolean => Text.trimmed literal == "true" || Text.trimmed literal == "false"
  | none, char => literal.length == 1
  | none, _ => true

/-- The place of the type in the order of declaration. -/
def position (t : DataType) : Nat :=
  all.idxOf t

end DataType

/-- What happens to a point in time on its way to and from the database. -/
inductive TimezonePolicy where
  | keep | toUtc | toDatabase
deriving DecidableEq, Inhabited

namespace TimezonePolicy

def name : TimezonePolicy → String
  | keep => "none"
  | toUtc => "convert-to-utc"
  | toDatabase => "convert-to-database-timezone"

def all : List TimezonePolicy :=
  [keep, toUtc, toDatabase]

def ofName? (s : String) : Option TimezonePolicy :=
  all.find? (·.name == s)

end TimezonePolicy

end Metamodel
