import Metamodel.Attribute.Stream

/-!
# Checks of an attribute

`Attribute.problems` lists what is wrong with the settings of a single attribute, in a fixed order of rules.
-/

namespace Metamodel

private def require (ok : Bool) (problem : String) : List String :=
  if ok then [] else [problem]

private def ticks (s : String) : String :=
  "'" ++ s ++ "'"

namespace Attribute

private def precisionProblems (name : String) (precision scale : Int32) : List String :=
  require (0 ≤ scale.toInt) ("BigDecimal attribute " ++ ticks name ++ " has negative scale " ++ toString scale.toInt) ++
    require (1 ≤ precision.toInt) ("BigDecimal attribute " ++ ticks name ++
      " must have a precision of at least 1, got " ++ toString precision.toInt) ++
    require (scale.toInt ≤ precision.toInt) ("BigDecimal attribute " ++ ticks name ++ " has scale " ++
      toString scale.toInt ++ " greater than precision " ++ toString precision.toInt)

def columnProblems (name : String) (t : DataType) (s : ColumnSettings) : List String :=
  let sequenced := s.keyGenerator == some .simulatedSequence
  require (s.sequence.isNone || sequenced) ("attribute " ++ ticks name ++
      " declares a simulated sequence but its primary key generator strategy is not SimulatedSequence") ++
    require (!sequenced || s.sequence.isSome) ("attribute " ++ ticks name ++
      " uses the SimulatedSequence strategy without declaring a simulated sequence") ++
    require (s.poolable != some true || t.isPoolable) ("cannot pool attribute " ++ ticks name ++
      ": only String and Timestamp attributes can be pooled") ++
    require (s.trim != some true || t.isTextual) ("cannot trim attribute " ++ ticks name ++
      ": only String attributes can be trimmed") ++
    require (!s.setAsString || t.isSetAsString) ("attribute " ++ ticks name ++
      " cannot be set as string: only Date and Timestamp attributes support it") ++
    require (s.timezone.getD .keep == .keep || t == .timestamp) ("timezone conversion on attribute " ++ ticks name ++
      " only applies to Timestamp attributes") ++
    (if t != .bigDecimal then []
    else match s.precision, s.scale with
      | some precision, some scale => precisionProblems name precision scale
      | _, _ => ["BigDecimal attribute " ++ ticks name ++ " must declare both precision and scale"])

def asOfProblems (name : String) (s : AsOfSettings) : List String :=
  require (s.fromColumn.isSome && s.toColumn.isSome) ("as-of attribute " ++ ticks name ++
      " must declare both from and to columns") ++
    (match s.infinityDate with
    | none => []
    | some date =>
      let date := Text.trim date.toList
      if s.infinityIsNull then
        ["as-of attribute " ++ ticks name ++ " cannot declare an infinity date when infinity is null"]
      else require (bracketed? date).isSome ("infinity date of as-of attribute " ++ ticks name ++
        " must be a bracketed expression, got " ++ ticks (String.ofList date)))

def enumerationProblems (name : String) (s : EnumerationSettings) : List String :=
  require s.target.isSome ("enumeration " ++ ticks s.enumeration ++ " referenced by attribute " ++ ticks name ++
      " is not defined") ++
    s.unsupported.map fun c => (Error.unsupported name c).message

def problems (a : Attribute) : List String :=
  match a.kind with
  | .column s => columnProblems a.name a.dataType s
  | .asOf s => asOfProblems a.name s
  | .enumeration s => enumerationProblems a.name s
  | .source =>
    require (a.dataType == .int || a.dataType == .long || a.dataType == .string) ("source attribute " ++
      ticks a.name ++ " must be int, long or String, not " ++ a.dataType.name)
  | .mapped _ => []

end Attribute

end Metamodel
