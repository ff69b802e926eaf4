/-!
# Signed decimal integers

The grammar `[+-]? digit+` over the ASCII digits, and its value when it lies in the range of a two's complement word.
-/

namespace Metamodel.Text

/-- The value of a text that consists of ASCII digits, at least one. -/
def natural? (cs : List Char) : Option Nat :=
  if cs ≠ [] ∧ cs.all Char.isDigit then some (Nat.ofDigitChars 10 cs 0) else none

/-- The value of a signed decimal integer. -/
def integer? : List Char → Option Int
  | '+' :: cs => (natural? cs).map Int.ofNat
  | '-' :: cs => (natural? cs).map (- Int.ofNat ·)
  | cs => (natural? cs).map Int.ofNat

/-- The value of a signed decimal integer that fits a signed word of `bits` bits. -/
def word? (bits : Nat) (cs : List Char) : Option Int :=
  let half : Nat := 1 <<< (bits - 1)
  (integer? cs).filter fun i => - half ≤ i ∧ i < half

end Metamodel.Text
