import Metamodel.Attribute.Basic
import Metamodel.Text.Blank

/-!
# Statements that stream an attribute

The statements of generated code that write an attribute to an object stream and read it back.  The form depends on the
kind of the attribute, its type and its timezone policy, and for reading also on whether values are shared in a pool.
-/

namespace Metamodel

/-- A text between brackets, blanks around it left out. -/
def bracketed? (cs : List Char) : Option (List Char) :=
  match cs with
  | '[' :: rest => if rest.getLast? = some ']' then some rest.dropLast else none
  | _ => none

namespace Attribute

/-- The expression for the end of time of an as-of attribute: what stands in the brackets of its infinity date. -/
def infinityExpression (a : Attribute) : Option String :=
  a.asOfSettings?.map fun s =>
    if s.infinityIsNull then "NullDataTimestamp.getInstance()"
    else match s.infinityDate with
      | none => "null"
      | some date =>
        let date := Text.trim date.toList
        String.ofList ((bracketed? date).getD date)

def field (a : Attribute) : String :=
  "this." ++ a.name

def infinity (a : Attribute) : String :=
  a.infinityExpression.getD "null"

/-- What a method name says when values keep their timezone. -/
def timezonePrefix (a : Attribute) : String :=
  if a.timezone == .keep then "TimezoneInsensitive" else ""

def enumerationClass (s : EnumerationSettings) : String :=
  s.className.getD s.enumeration

def writeStatement (a : Attribute) : String :=
  let f := a.field
  match a.kind with
  | .asOf _ =>
    "MithraTimestamp.write" ++ a.timezonePrefix ++ "TimestampWithInfinity(out, " ++ f ++ ", " ++ a.infinity ++ ")"
  | .enumeration s =>
    "out.write" ++ a.dataType.streamType ++ "(" ++ enumerationClass s ++ ".toPersistedValue(" ++ f ++ "))"
  | _ =>
    match a.dataType with
    | .byteArray =>
      "if (" ++ f ++ " == null) \x7b out.writeInt(-1); \x7d else \x7b out.writeInt(" ++ f ++
        ".length); out.write(" ++ f ++ "); \x7d"
    | .timestamp => "MithraTimestamp.write" ++ a.timezonePrefix ++ "Timestamp(out, " ++ f ++ ")"
    | .date => "MithraTimestamp.writeTimezoneInsensitiveDate(out, " ++ f ++ ")"
    | t => "out.write" ++ t.streamType ++ "(" ++ f ++ ")"

/-- The expression that reads a value; a byte array has none, it is read in place. -/
private def readExpression? (a : Attribute) : Option String :=
  match a.kind with
  | .asOf _ =>
    some ("MithraTimestamp.read" ++ a.timezonePrefix ++ "TimestampWithInfinity(in, " ++ a.infinity ++ ")")
  | .enumeration s =>
    some (enumerationClass s ++ ".fromPersistedValue(" ++ a.dataType.streamCast ++ "in.read" ++
      a.dataType.streamType ++ "())")
  | _ =>
    match a.dataType with
    | .byteArray => none
    | .timestamp => some ("MithraTimestamp.read" ++ a.timezonePrefix ++ "Timestamp(in)")
    | .date => some "MithraTimestamp.readTimezoneInsensitiveDate(in)"
    | t => some (t.streamCast ++ "in.read" ++ t.streamType ++ "()")

/-- `finder` is the class that knows whether the cache is full. -/
def readStatement (a : Attribute) (finder : String) : String :=
  let f := a.field
  match a.readExpression? with
  | none =>
    "int " ++ a.name ++ "Length = in.readInt(); if (" ++ a.name ++ "Length == -1) \x7b " ++ f ++
      " = null; \x7d else \x7b " ++ f ++ " = new byte[" ++ a.name ++ "Length]; in.readFully(" ++ f ++ "); \x7d"
  | some value =>
    if a.isPoolable then
      f ++ " = " ++ a.dataType.name ++ "Pool.getInstance().getOrAddToCache(" ++ value ++ ", " ++ finder ++
        ".isFullCache())"
    else f ++ " = " ++ value

end Attribute

end Metamodel
