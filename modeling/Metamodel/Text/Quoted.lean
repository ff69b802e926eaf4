import Metamodel.Text.EscapeTable

/-!
# Quoted text for messages

A text between double quotes, with every character visible: the quote and the backslash get a backslash, the usual
controls their letter, and any other hidden character its code in hexadecimal.
-/

namespace Metamodel.Text

/-- A character that is not shown as it is. -/
def isHidden (c : Char) : Bool :=
  let n := c.toNat
  n < 0x20 || n == 0x7F || (0x80 ≤ n && EscapeTable.hiddenRanges.any fun (a, b) => a ≤ n && n ≤ b)

private def quoteChar (c : Char) : List Char :=
  match c with
  | '"' => ['\\', '"']
  | '\\' => ['\\', '\\']
  | '\t' => ['\\', 't']
  | '\n' => ['\\', 'n']
  | '\r' => ['\\', 'r']
  | '\x00' => ['\\', '0']
  | c => if isHidden c then '\\' :: 'u' :: '\x7b' :: Nat.toDigits 16 c.toNat ++ ['\x7d'] else [c]

/-- The text in double quotes. -/
def quote (s : String) : String :=
  String.ofList ('"' :: s.toList.flatMap quoteChar ++ ['"'])

end Metamodel.Text
