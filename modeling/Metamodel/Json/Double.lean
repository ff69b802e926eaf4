import Metamodel.Json.Basic

/-!
# Numbers that are not integers

The double that a written number denotes, and the shortest decimal text that reads back as a double.

A number is read as a significand of 64 bits and a power of ten: digits of the whole part that no longer fit only raise
the power, digits of the fraction that no longer fit are dropped, and one multiplication or division by the power gives
the double.  So the result may differ in the last place from the double nearest to the written number.

The text has the fewest digits that read back and, of those, the ones nearest to the value; `digitsAt?` looks at the two
neighbours of the value on a decimal grid, in exact arithmetic.
-/

namespace Metamodel.Json

/-! ### Reading -/

private def maxSignificand : Nat := UInt64.size - 1

/-- Digits taken into the significand `n` as long as it fits, and the digits left over. -/
def takeDigits (n : Nat) : List Char → Nat × List Char
  | [] => (n, [])
  | c :: cs =>
    let m := 10 * n + (c.toNat - '0'.toNat)
    if m ≤ maxSignificand then takeDigits m cs else (n, c :: cs)

/-- `f · 10^e`; `none` when that is too large.  Small powers are reached in steps of `10^-308`. -/
def scaleDouble : Nat → Float → Int → Option Float
  | 0, f, _ => some f
  | steps + 1, f, e =>
    if e.natAbs ≤ 308 then
      let power := Float.ofScientific 1 false e.natAbs
      if 0 ≤ e then
        let g := f * power
        if g.isInf then none else some g
      else some (f / power)
    else if f == 0.0 then some f
    else if 0 ≤ e then none
    else scaleDouble steps (f / Float.ofScientific 1 false 308) (e + 308)

/-- The double that the number denotes, without its sign; `none` when it is too large. -/
def Number.magnitude? (n : Number) : Option Float :=
  let (significand, dropped) := takeDigits 0 n.whole
  let (significand, rest) := takeDigits significand n.fraction
  let e : Int := dropped.length - (n.fraction.length - rest.length : Nat)
  match n.exponent with
  | none => scaleDouble 8 significand.toUInt64.toFloat e
  | some x =>
    if 1 <<< 31 ≤ x.natAbs then if significand ≠ 0 ∧ 0 ≤ x then none else some 0.0
    else scaleDouble (x.natAbs / 308 + 8) significand.toUInt64.toFloat (e + x)

/-- The integer that the number denotes: it has neither point nor exponent, is not `-0`, and fits 64 bits, unsigned or
with a sign. -/
def Number.int? (n : Number) : Option Int :=
  if n.fraction ≠ [] ∨ n.exponent ≠ none then none
  else
    let m := Nat.ofDigitChars 10 n.whole 0
    if n.negative then if 0 < m ∧ m ≤ 1 <<< 63 then some (- m) else none
    else if m < UInt64.size then some m else none

/-- A number beyond the doubles. -/
def Number.isTooLarge (n : Number) : Bool :=
  n.int?.isNone && n.magnitude?.isNone

/-! ### Writing -/

/-- The point nearest to `num / den` on the grid of the multiples of `10^k` among its two neighbours there, if it lies
between `lo / den` and `hi / den`, ends included when `closed`. -/
def digitsAt? (num den lo hi : Nat) (closed : Bool) (k : Int) : Option Nat :=
  let up := Nat.pow 10 (-k).toNat
  let unit := den * Nat.pow 10 k.toNat
  let n := num * up / unit
  let fits (m : Nat) : Bool :=
    if closed then lo * up ≤ m * unit && m * unit ≤ hi * up else lo * up < m * unit && m * unit < hi * up
  let below := num * up - n * unit
  let above := (n + 1) * unit - num * up
  match fits n, fits (n + 1) with
  | true, true => if below < above ∨ (below = above ∧ n % 2 = 0) then some n else some (n + 1)
  | true, false => some n
  | false, true => some (n + 1)
  | false, false => none

/-- The power of ten of the first digit of `num / den`. -/
def leadingPower (num den : Nat) : Int :=
  if den ≤ num then (Nat.toDigits 10 (num / den)).length - 1
  else
    let rec go : Nat → Nat → Int
      | 0, s => - s
      | steps + 1, s => if den ≤ num * Nat.pow 10 s then - s else go steps (s + 1)
    go 400 1

/-- The digits and the power of ten of the shortest decimal that reads back as the positive double with these bits. -/
def shortestDigits (bits : Nat) : Nat × Int :=
  let fraction := bits % (1 <<< 52)
  let biased := (bits >>> 52) % (1 <<< 11)
  let m := if biased = 0 then fraction else (1 <<< 52) + fraction
  let q : Int := (if biased = 0 then 1 else biased : Nat) - 1077
  let up := 1 <<< q.toNat
  let den := 1 <<< (-q).toNat
  let num := 4 * m * up
  let lo := (4 * m - (if fraction = 0 ∧ 1 < biased then 1 else 2)) * up
  let hi := (4 * m + 2) * up
  let top := leadingPower num den + 1
  let rec go : Nat → Int → Nat × Int
    | 0, k => (num * Nat.pow 10 (-k).toNat / (den * Nat.pow 10 k.toNat), k)
    | steps + 1, k =>
      match digitsAt? num den lo hi (m % 2 = 0) k with
      | some n => (n, k)
      | none => go steps (k - 1)
  go 18 top

/-- The text of a finite double.  It always has a point or an exponent, and it is positional when the point falls within
four zeros before the digits or sixteen places after their start; otherwise the exponent has a sign. -/
def doubleText (negative : Bool) (f : Float) : String :=
  let sign := if negative then "-" else ""
  if f == 0.0 then sign ++ "0.0"
  else
    let (n, k) := shortestDigits f.toBits.toNat
    let ds := Nat.toDigits 10 n
    let point := ds.length + k
    let zeros (i : Int) := String.ofList (List.replicate i.toNat '0')
    let body :=
      if 0 ≤ k ∧ point ≤ 16 then String.ofList ds ++ zeros k ++ ".0"
      else if 0 < point ∧ point ≤ 16 then
        String.ofList (ds.take point.toNat) ++ "." ++ String.ofList (ds.drop point.toNat)
      else if -5 < point ∧ point ≤ 0 then "0." ++ zeros (-point) ++ String.ofList ds
      else
        let mantissa := match ds with
          | d :: e :: es => String.ofList (d :: '.' :: e :: es)
          | ds => String.ofList ds
        mantissa ++ (if 0 < point then "e+" else "e") ++ toString (point - 1)
    sign ++ body

end Metamodel.Json
