/-!
# JSON values

Values as they are written: the members of an object keep their order and their repetitions, a number keeps its digits,
and a text with half of a surrogate pair in it, which no string can hold, is `none`.
-/

namespace Metamodel

/-- A number as written: `whole` holds at least one digit, `fraction` the digits after the point, if there is one. -/
structure Json.Number where
  negative : Bool
  whole : List Char
  fraction : List Char
  exponent : Option Int
deriving DecidableEq

inductive Json where
  | null
  | bool (b : Bool)
  | number (n : Json.Number)
  | string (s : Option String)
  | array (items : List Json)
  | object (members : List (Option String × Json))
deriving Inhabited

namespace Json

def text (s : String) : Json :=
  .string (some s)

/-- An integer, in decimal digits. -/
def int (i : Int) : Json :=
  .number ⟨i < 0, Nat.toDigits 10 i.natAbs, [], none⟩

def nat (n : Nat) : Json :=
  int n

def record (fields : List (String × Json)) : Json :=
  .object (fields.map fun (name, value) => (some name, value))

def list {α : Type} (encode : α → Json) (xs : List α) : Json :=
  .array (xs.map encode)

/-- `null` for nothing. -/
def option {α : Type} (encode : α → Json) : Option α → Json
  | none => .null
  | some a => encode a

/-- The first member of that name; `null` if there is none or the value is no object. -/
def member (j : Json) (name : String) : Json :=
  match j with
  | .object members => (members.lookup (some name)).getD .null
  | _ => .null

end Json

end Metamodel
