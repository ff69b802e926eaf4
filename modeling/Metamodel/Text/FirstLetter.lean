import Metamodel.Text.CaseTable

/-!
# The case of a first letter

Default case mapping of one character, which may give several (`ß` becomes `SS`), and of the first character of a name;
the rest of the name is left alone.
-/

namespace Metamodel.Text

/-- The image of `c` under a case mapping given by runs and sequences. -/
private def mapCase (runs : List (Nat × Nat × Nat × Nat)) (sequences : List (Nat × List Nat)) (c : Char) :
    List Char :=
  let n := c.toNat
  match sequences.lookup n with
  | some ns => ns.map Char.ofNat
  | none =>
    match runs.find? fun (first, last, step, _) => first ≤ n && n ≤ last && (n - first) % step == 0 with
    | some (first, _, _, image) => [Char.ofNat (image + (n - first))]
    | none => [c]

/-- Upper case of one character. -/
def upper (c : Char) : List Char :=
  if c.toNat < 0x80 then [c.toUpper] else mapCase CaseTable.upperRuns CaseTable.upperSequences c

/-- Lower case of one character. -/
def lower (c : Char) : List Char :=
  if c.toNat < 0x80 then [c.toLower] else mapCase CaseTable.lowerRuns CaseTable.lowerSequences c

/-- The name with its first character in upper case. -/
def firstUpper (s : String) : String :=
  match s.toList with
  | [] => ""
  | c :: cs => String.ofList (upper c ++ cs)

/-- The name with its first character in lower case. -/
def firstLower (s : String) : String :=
  match s.toList with
  | [] => ""
  | c :: cs => String.ofList (lower c ++ cs)

end Metamodel.Text
