import Metamodel.Attribute.Basic

/-!
# Redeclared attributes

A subclass may declare an attribute of its superclass again.  The two must agree on what the attribute is
(`conflicts`); where they do, settings that the subclass leaves open are taken over (`filledFrom`).  A conflict leaves
the attribute of the subclass as it was.
-/

namespace Metamodel

def ColumnSettings.filledFrom (mine theirs : ColumnSettings) : ColumnSettings :=
  { mine with
    poolable := mine.poolable.or theirs.poolable
    trim := mine.trim.or theirs.trim
    truncate := mine.truncate.or theirs.truncate
    nullable := mine.nullable.or theirs.nullable
    timezone := mine.timezone.or theirs.timezone
    finalGetter := mine.finalGetter.or theirs.finalGetter
    maxLength := mine.maxLength.or theirs.maxLength
    precision := mine.precision.or theirs.precision
    scale := mine.scale.or theirs.scale
    columnName := mine.columnName.or theirs.columnName
    defaultIfNull := mine.defaultIfNull.or theirs.defaultIfNull }

/-- An infinity date is of no use where infinity is null. -/
def AsOfSettings.filledFrom (mine theirs : AsOfSettings) : AsOfSettings :=
  { mine with
    infinityDate := if mine.infinityIsNull then mine.infinityDate else mine.infinityDate.or theirs.infinityDate
    fromColumn := mine.fromColumn.or theirs.fromColumn
    toColumn := mine.toColumn.or theirs.toColumn
    toIsInclusive := mine.toIsInclusive.or theirs.toIsInclusive
    defaultIfNotSpecified := mine.defaultIfNotSpecified.or theirs.defaultIfNotSpecified
    poolable := mine.poolable.or theirs.poolable
    timezone := mine.timezone.or theirs.timezone
    finalGetter := mine.finalGetter.or theirs.finalGetter }

def EnumerationSettings.filledFrom (mine theirs : EnumerationSettings) : EnumerationSettings :=
  { mine with
    columnName := mine.columnName.or theirs.columnName
    nullable := mine.nullable.or theirs.nullable }

namespace Attribute

/-- What stands against `child` being the attribute `parent` of the superclass, redeclared. -/
def conflicts (child parent : Attribute) : List String :=
  if child.kind.name ≠ parent.kind.name then
    ["attribute '" ++ child.name ++ "' is declared as " ++ child.kind.name ++ " but as " ++ parent.kind.name ++
      " in superclass"]
  else
    (if child.dataType = parent.dataType then []
    else ["type " ++ child.dataType.name ++ " of attribute '" ++ child.name ++ "' does not match type " ++
      parent.dataType.name ++ " of the same attribute in superclass"]) ++
    (match child.kind, parent.kind with
    | .column mine, .column theirs =>
      if mine.primaryKey = theirs.primaryKey then []
      else if theirs.primaryKey then ["attribute '" ++ child.name ++ "' is a primary key in superclass"]
      else ["attribute '" ++ child.name ++ "' is not a primary key in superclass"]
    | .asOf mine, .asOf theirs =>
      if mine.isProcessingDate = theirs.isProcessingDate then []
      else ["as-of attribute '" ++ child.name ++ "' disagrees with superclass on being a processing date"]
    | .enumeration mine, .enumeration theirs =>
      if mine.target = theirs.target then []
      else ["attribute '" ++ child.name ++ "' uses enumeration '" ++ mine.enumeration ++
        "' but superclass uses '" ++ theirs.enumeration ++ "'"]
    | _, _ => [])

/-- The settings that `child` leaves open, from `parent`. -/
def filledFrom (child parent : Attribute) : Attribute :=
  match child.kind, parent.kind with
  | .column mine, .column theirs => { child with kind := .column (mine.filledFrom theirs) }
  | .asOf mine, .asOf theirs => { child with kind := .asOf (mine.filledFrom theirs) }
  | .enumeration mine, .enumeration theirs => { child with kind := .enumeration (mine.filledFrom theirs) }
  | _, _ => child

/-- The redeclared attribute with the conflicts that it has. -/
def mergedWith (child parent : Attribute) : Attribute × List String :=
  match child.conflicts parent with
  | [] => (child.filledFrom parent, [])
  | conflicts => (child, conflicts)

end Attribute

end Metamodel
