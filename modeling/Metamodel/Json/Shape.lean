import Metamodel.Json.Double
import Metamodel.Json.Library
import Metamodel.Json.Printer
import Metamodel.Json.Reader
import Metamodel.Text.Quoted

/-!
# The shape of JSON values

A `Decoder` turns a value into a typed one or says what is wrong with its shape.  Its first argument is the number of
containers that may still be opened.  The problem reported is the first in the order of the text; the fields of a record
therefore keep, with each problem, the position of the member that has it.

A record is an object, in which members of other names are skipped, or an array of its fields in order.  With the texts
of `Json.toPretty` and `Json.ofText?`, the decoders are the library that declarations are read and written with.
-/

namespace Metamodel.Json

inductive ShapeError where
  | invalidType (found : Json) (wanted : String)
  | invalidValue (found : Int) (wanted : String)
  | invalidLength (found : Nat) (record : String) (fields : Nat)
  | missingField (name : String)
  | duplicateField (name : String)
  | unknownVariant (name : String) (known : List String)
  | valueExpected
  | surplusItems
  | brokenText
  | tooDeep

/-- The kind of a value, with the value itself if it is a scalar. -/
def found : Json → String
  | .null => "null"
  | .bool true => "boolean `true`"
  | .bool false => "boolean `false`"
  | .number n =>
    match n.int?, n.magnitude? with
    | some i, _ => "integer `" ++ toString i ++ "`"
    | none, some f => "floating point `" ++ doubleText n.negative f ++ "`"
    | none, none => "number"
  | .string s => "string " ++ Text.quote (s.getD "")
  | .array _ => "sequence"
  | .object _ => "map"

private def ticked (s : String) : String :=
  "`" ++ s ++ "`"

def ShapeError.message : ShapeError → String
  | .invalidType j wanted => "invalid type: " ++ found j ++ ", expected " ++ wanted
  | .invalidValue i wanted => "invalid value: integer `" ++ toString i ++ "`, expected " ++ wanted
  | .invalidLength n record fields =>
    "invalid length " ++ toString n ++ ", expected struct " ++ record ++ " with " ++ toString fields ++
      (if fields = 1 then " element" else " elements")
  | .missingField name => "missing field " ++ ticked name
  | .duplicateField name => "duplicate field " ++ ticked name
  | .unknownVariant name known =>
    "unknown variant " ++ ticked name ++ ", expected " ++
      (match known with
      | [a] => ticked a
      | [a, b] => ticked a ++ " or " ++ ticked b
      | known => "one of " ++ ", ".intercalate (known.map ticked))
  | .valueExpected => "expected value"
  | .surplusItems => "trailing characters"
  | .brokenText => "lone leading surrogate in hex escape"
  | .tooDeep => "recursion limit exceeded"

abbrev Decoder (α : Type) := Nat → Json → Except ShapeError α

namespace Decode

/-! ### Scalars -/

def text : Decoder String
  | _, .string (some s) => .ok s
  | _, .string none => .error .brokenText
  | _, j => .error (.invalidType j "a string")

def bool : Decoder Bool
  | _, .bool b => .ok b
  | _, j => .error (.invalidType j "a boolean")

/-- An integer of a range; `wanted` is the name of the range. -/
def integer (wanted : String) (first last : Int) : Decoder Int
  | _, .number n =>
    match n.int? with
    | some i => if first ≤ i ∧ i ≤ last then .ok i else .error (.invalidValue i wanted)
    | none => .error (.invalidType (.number n) wanted)
  | _, j => .error (.invalidType j wanted)

def uint32 : Decoder UInt32 :=
  fun depth j => (integer "u32" 0 (UInt32.size - 1) depth j).map fun i => UInt32.ofNat i.toNat

def int32 : Decoder Int32 :=
  fun depth j => (integer "i32" Int32.minValue.toInt Int32.maxValue.toInt depth j).map Int32.ofInt

def int64 : Decoder Int64 :=
  fun depth j => (integer "i64" Int64.minValue.toInt Int64.maxValue.toInt depth j).map Int64.ofInt

def option {α : Type} (decode : Decoder α) : Decoder (Option α)
  | _, .null => .ok none
  | depth, j => (decode depth j).map some

/-- One of a list of names: a string, or an object with that one key and the value `null`. -/
def variant {α : Type} (table : List (String × α)) : Decoder α
  | _, .string s => named s
  | 0, .object _ => .error .tooDeep
  | _ + 1, .object ((name, value) :: more) => do
    let a ← named name
    match value, more with
    | .null, [] => return a
    | .null, _ => .error .valueExpected
    | value, _ => .error (.invalidType value "unit")
  | _, _ => .error .valueExpected
where
  named : Option String → Except ShapeError α
    | none => .error .brokenText
    | some name =>
      match table.lookup name with
      | some a => .ok a
      | none => .error (.unknownVariant name (table.map (·.1)))

/-! ### Containers -/

def list {α : Type} (decode : Decoder α) : Decoder (List α)
  | 0, .array _ => .error .tooDeep
  | depth + 1, .array items => items.mapM (decode depth)
  | _, j => .error (.invalidType j "a sequence")

/-- An object read as a map; a repeated name replaces the earlier one. -/
def nameMap {α : Type} (decode : Decoder α) : Decoder (NameMap α)
  | 0, .object _ => .error .tooDeep
  | depth + 1, .object members => do
    let bindings ← members.mapM fun (name, value) =>
      match name with
      | some name => (decode depth value).map fun a => (name, a)
      | none => .error .brokenText
    return .ofList bindings
  | _, j => .error (.invalidType j "a map")

/-! ### Records -/

/-- A problem and the position of the member that has it; a field that is missing comes after all members. -/
structure Fault where
  position : Nat
  error : ShapeError

/-- The fault that comes first in the text. -/
def Fault.first (a b : Fault) : Fault :=
  if a.position ≤ b.position then a else b

/-- The value of one field, read by `decode`, or `absent` when the record does not have it. -/
def fieldValue {α : Type} (depth : Nat) (missing : String → ShapeError) (members : List (Option String × Json))
    (name : String) (decode : Decoder α) (absent : Option α) : Except Fault α :=
  match members.findIdx? (·.1 == some name), members.lookup (some name) with
  | some position, some value => (decode depth value).mapError fun e => ⟨position, e⟩
  | _, _ =>
    match absent with
    | some a => .ok a
    | none => .error ⟨members.length, missing name⟩

/-- The value that is made of the fields of a record, or the fault that comes first. -/
def fieldsValue {α : Type} (depth : Nat) (missing : String → ShapeError) (members : List (Option String × Json)) :
    Fields Decoder α → Except Fault α
  | .const a => .ok a
  | .next before name decode absent =>
    match fieldsValue depth missing members before, fieldValue depth missing members name decode absent with
    | .ok g, .ok a => .ok (g a)
    | .error e, .ok _ => .error e
    | .ok _, .error e => .error e
    | .error e, .error e' => .error (e.first e')

/-- The first member whose name is broken or repeats a field. -/
def nameFault? (fields : List String) (members : List (Option String × Json)) : Option Fault :=
  go 0 [] members
where
  go (position : Nat) (seen : List String) : List (Option String × Json) → Option Fault
    | [] => none
    | (none, _) :: _ => some ⟨position, .brokenText⟩
    | (some name, _) :: rest =>
      if name ∈ seen then some ⟨position, .duplicateField name⟩
      else go (position + 1) (if name ∈ fields then name :: seen else seen) rest

def record {α : Type} (name : String) (fields : Fields Decoder α) : Decoder α
  | 0, .object _ => .error .tooDeep
  | 0, .array _ => .error .tooDeep
  | depth + 1, .object members =>
    match fieldsValue depth .missingField members fields, nameFault? fields.names members with
    | .ok a, none => .ok a
    | .ok _, some e => .error e.error
    | .error e, none => .error e.error
    | .error e, some e' => .error (e.first e').error
  | depth + 1, .array items =>
    let size := fields.names.length
    match fieldsValue depth (fun _ => .invalidLength items.length name size)
        ((fields.names.map some).zip items) fields with
    | .error e => .error e.error
    | .ok a => if size < items.length then .error .surplusItems else .ok a
  | _, j => .error (.invalidType j ("struct " ++ name))

/-- The decoder with at most `levels` of itself within each other. -/
def unfolded {α : Type} (level : Decoder α → Decoder α) : Nat → Decoder α
  | 0 => level fun _ _ => .error .tooDeep
  | levels + 1 => level (unfolded level levels)

/-- What is inside lies at least one container further in, so the levels do not run out before the containers do. -/
def recursive {α : Type} (level : Decoder α → Decoder α) : Decoder α :=
  fun depth j => unfolded level depth depth j

end Decode

/-! ### Strict values -/

mutual

/-- The value opens at most `depth` containers within each other, its texts are whole and its numbers are doubles. -/
def isStrict : Nat → Json → Bool
  | _, .null => true
  | _, .bool _ => true
  | _, .number n => ! n.isTooLarge
  | _, .string s => s.isSome
  | 0, .array _ => false
  | depth + 1, .array items => itemsStrict depth items
  | 0, .object _ => false
  | depth + 1, .object members => membersStrict depth members

def itemsStrict : Nat → List Json → Bool
  | _, [] => true
  | depth, x :: xs => isStrict depth x && itemsStrict depth xs

def membersStrict : Nat → List (Option String × Json) → Bool
  | _, [] => true
  | depth, (name, x) :: ms => name.isSome && isStrict depth x && membersStrict depth ms

end

/-- What is wrong with the shape of a value is put into words only if nothing else is wrong with it. -/
instance : Library Decoder where
  print := toPretty
  parse := ofText?
  decode decoder depth j := (decoder depth j).mapError fun e => if isStrict depth j then some e.message else none
  text := Decode.text
  bool := Decode.bool
  uint32 := Decode.uint32
  int32 := Decode.int32
  int64 := Decode.int64
  option := Decode.option
  variant := Decode.variant
  list := Decode.list
  nameMap := Decode.nameMap
  record := Decode.record
  recursive := Decode.recursive

end Metamodel.Json
