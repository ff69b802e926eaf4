import Metamodel.Json.Basic

/-!
# Writing JSON text

Two layouts: `compact` without any blank, and `pretty` with one item or member a line and two blanks a level.  Both put
the text of a value in front of a text that follows it.
-/

namespace Metamodel.Json

/-- The characters that a string must not hold as they are are escaped; all others stand for themselves. -/
def escapeChar (c : Char) : List Char :=
  match c with
  | '"' => ['\\', '"']
  | '\\' => ['\\', '\\']
  | '\n' => ['\\', 'n']
  | '\r' => ['\\', 'r']
  | '\t' => ['\\', 't']
  | '\x08' => ['\\', 'b']
  | '\x0c' => ['\\', 'f']
  | c =>
    if c.toNat < 0x20 then
      ['\\', 'u', '0', '0', Nat.digitChar (c.toNat / 16), Nat.digitChar (c.toNat % 16)]
    else [c]

def printString (s : String) (tail : List Char) : List Char :=
  '"' :: (s.toList.flatMap escapeChar ++ '"' :: tail)

def fractionText (ds : List Char) : List Char :=
  if ds.isEmpty then [] else '.' :: ds

def exponentText : Option Int → List Char
  | none => []
  | some e => 'e' :: (toString e).toList

def printNumber (n : Number) (tail : List Char) : List Char :=
  let sign := if n.negative then ['-'] else []
  sign ++ (n.whole ++ (fractionText n.fraction ++ (exponentText n.exponent ++ tail)))

mutual

def compact : Json → List Char → List Char
  | .null, tail => "null".toList ++ tail
  | .bool true, tail => "true".toList ++ tail
  | .bool false, tail => "false".toList ++ tail
  | .number n, tail => printNumber n tail
  | .string s, tail => printString (s.getD "") tail
  | .array [], tail => '[' :: ']' :: tail
  | .array (x :: xs), tail => '[' :: compact x (compactItems xs (']' :: tail))
  | .object [], tail => '\x7b' :: '\x7d' :: tail
  | .object ((name, x) :: ms), tail =>
    '\x7b' :: printString (name.getD "") (':' :: compact x (compactMembers ms ('\x7d' :: tail)))

/-- The items after the first. -/
def compactItems : List Json → List Char → List Char
  | [], tail => tail
  | x :: xs, tail => ',' :: compact x (compactItems xs tail)

/-- The members after the first. -/
def compactMembers : List (Option String × Json) → List Char → List Char
  | [], tail => tail
  | (name, x) :: ms, tail => ',' :: printString (name.getD "") (':' :: compact x (compactMembers ms tail))

end

/-- A line break and the indentation of a level. -/
def newLine (level : Nat) (tail : List Char) : List Char :=
  '\n' :: (List.replicate (2 * level) ' ' ++ tail)

mutual

def pretty (level : Nat) : Json → List Char → List Char
  | .null, tail => "null".toList ++ tail
  | .bool true, tail => "true".toList ++ tail
  | .bool false, tail => "false".toList ++ tail
  | .number n, tail => printNumber n tail
  | .string s, tail => printString (s.getD "") tail
  | .array [], tail => '[' :: ']' :: tail
  | .array (x :: xs), tail =>
    '[' :: newLine (level + 1) (pretty (level + 1) x (prettyItems (level + 1) xs (newLine level (']' :: tail))))
  | .object [], tail => '\x7b' :: '\x7d' :: tail
  | .object ((name, x) :: ms), tail =>
    '\x7b' :: newLine (level + 1) (printString (name.getD "") (':' :: ' ' :: pretty (level + 1) x
      (prettyMembers (level + 1) ms (newLine level ('\x7d' :: tail)))))

/-- The items after the first. -/
def prettyItems (level : Nat) : List Json → List Char → List Char
  | [], tail => tail
  | x :: xs, tail => ',' :: newLine level (pretty level x (prettyItems level xs tail))

/-- The members after the first. -/
def prettyMembers (level : Nat) : List (Option String × Json) → List Char → List Char
  | [], tail => tail
  | (name, x) :: ms, tail =>
    ',' :: newLine level (printString (name.getD "") (':' :: ' ' :: pretty level x (prettyMembers level ms tail)))

end

def toCompact (j : Json) : String :=
  String.ofList (compact j [])

def toPretty (j : Json) : String :=
  String.ofList (pretty 0 j [])

end Metamodel.Json
