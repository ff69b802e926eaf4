import Metamodel.Json.Printer
import Metamodel.Json.Reader

/-!
# Texts of strings and numbers

What is written for a string is read as that string, whatever characters it holds (`readString_printed`), and what is
written for a number that the grammar has is read as that number (`readNumber_printNumber`), if the text that follows
does not go on with it.
-/

namespace Metamodel.Json

/-! ### Strings -/

private theorem hexDigit?_digitChar {k : Nat} (hk : k < 16) : hexDigit? (Nat.digitChar k) = some k := by
  revert k
  decide

private theorem readCodes_escape {c : Char} {n : Nat} (hc : escape? c = some n) (seen : List Nat) (rest : List Char) :
    readCodes seen ('\\' :: c :: rest) = readCodes (n :: seen) rest := by
  rw [readCodes]
  · rw [hc]
  · rintro a b d e more rfl
    cases hc

private theorem readCodes_plain {c : Char} (hquote : c ≠ '"') (hslash : c ≠ '\\') (hc : 0x20 ≤ c.toNat)
    (seen : List Nat) (rest : List Char) : readCodes seen (c :: rest) = readCodes (c.toNat :: seen) rest := by
  rw [readCodes, if_neg (Nat.not_lt.2 hc)]
  all_goals simp_all

/-- An escaped character is read as its code. -/
private theorem readCodes_escapeChar (seen : List Nat) (c : Char) (rest : List Char) :
    readCodes seen (escapeChar c ++ rest) = readCodes (c.toNat :: seen) rest := by
  unfold escapeChar
  split
  case h_8 hquote hslash _ _ _ _ _ =>
    split
    · have hfirst := hexDigit?_digitChar (k := c.toNat / 16) (by omega)
      have hsecond := hexDigit?_digitChar (k := c.toNat % 16) (by omega)
      have hcode : 16 * (c.toNat / 16) + c.toNat % 16 = c.toNat := Nat.div_add_mod ..
      have hzero : hexDigit? '0' = some 0 := by decide
      simp only [List.cons_append, List.nil_append]
      rw [readCodes]
      simp [hexDigits?, hzero, hfirst, hsecond, hcode]
    · rename_i hplain
      exact readCodes_plain hquote hslash (Nat.not_lt.1 hplain) seen rest
  all_goals exact readCodes_escape rfl seen rest

private theorem readCodes_flatMap_escapeChar (seen : List Nat) (cs tail : List Char) :
    readCodes seen (cs.flatMap escapeChar ++ '"' :: tail) = some (seen.reverse ++ cs.map Char.toNat, tail) := by
  induction cs generalizing seen with
  | nil => simp [readCodes]
  | cons c cs ih => simp [readCodes_escapeChar, ih]

/-- The code of a character is no half of a surrogate pair. -/
private theorem joinCodes_toNat (cs : List Char) : joinCodes (cs.map Char.toNat) = some cs := by
  induction cs with
  | nil => rfl
  | cons c cs ih =>
    have hvalid : c.toNat < 0xD800 ∨ 0xDFFF < c.toNat ∧ c.toNat < 0x110000 := c.valid
    unfold joinCodes
    rw [List.map_cons]
    dsimp only
    rw [if_neg (by omega), if_neg (by omega), ih, Char.ofNat_toNat]
    rfl

/-- A string is read as it was before it was written, whatever characters it holds. -/
theorem readString_printed (s : String) (tail : List Char) :
    readString (s.toList.flatMap escapeChar ++ '"' :: tail) = some (some s, tail) := by
  rw [readString, readCodes_flatMap_escapeChar]
  simp [joinCodes_toNat]

/-! ### Numbers -/

/-- The number is written as the grammar has it: the whole part is there and has no leading zero. -/
structure Number.WellFormed (n : Number) : Prop where
  whole_ne_nil : n.whole ≠ []
  whole : ∀ c ∈ n.whole, c.isDigit
  leading : n.whole.head? = some '0' → n.whole = ['0']
  fraction : ∀ c ∈ n.fraction, c.isDigit

/-- The text that follows a number does not go on with the number. -/
def Delimits (tail : List Char) : Prop :=
  ∀ c ∈ tail.head?, c.isDigit = false ∧ c ≠ '.' ∧ c ≠ 'e' ∧ c ≠ 'E'

private theorem takeWhile_isDigit {ds tail : List Char} (hds : ∀ c ∈ ds, c.isDigit)
    (htail : ∀ c ∈ tail.head?, c.isDigit = false) :
    (ds ++ tail).takeWhile Char.isDigit = ds ∧ (ds ++ tail).dropWhile Char.isDigit = tail := by
  rw [List.takeWhile_append_of_pos hds, List.dropWhile_append_of_pos hds]
  cases tail with
  | nil => simp
  | cons c tail => simp [htail c rfl]

private theorem head?_toDigits {n : Nat} (hn : n ≠ 0) : (Nat.toDigits 10 n).head? ≠ some '0' := by
  induction n using Nat.strongRecOn with
  | ind n ih =>
    rw [Nat.toDigits_eq_if (by decide)]
    split
    · rename_i hlt
      have hdigit : ∀ k < 10, k ≠ 0 → [Nat.digitChar k].head? ≠ some '0' := by decide
      exact hdigit n hlt hn
    · rename_i hge
      have hfront := ih (n / 10) (by omega) (by omega)
      cases hds : Nat.toDigits 10 (n / 10) with
      | nil => exact absurd hds Nat.toDigits_ne_nil
      | cons d ds =>
        rw [hds] at hfront
        exact hfront

private theorem isDigit_toDigits (m : Nat) : ∀ c ∈ Nat.toDigits 10 m, c.isDigit := fun _ hc =>
  Nat.isDigit_of_mem_toDigits (by decide) (Nat.le_refl 10) hc

theorem wellFormed_toDigits (negative : Bool) (m : Nat) :
    (⟨negative, Nat.toDigits 10 m, [], none⟩ : Number).WellFormed where
  whole_ne_nil := Nat.toDigits_ne_nil
  whole := isDigit_toDigits m
  leading hzero := by
    by_cases hm : m = 0
    · subst hm
      rfl
    · exact absurd hzero (head?_toDigits hm)
  fraction _ hc := absurd hc List.not_mem_nil

private theorem append_ne_cons {ds tail rest : List Char} {c : Char} (hsome : ds ≠ []) (hds : ∀ c ∈ ds, c.isDigit)
    (hc : c.isDigit = false) : ds ++ tail ≠ c :: rest := by
  cases ds with
  | nil => exact absurd rfl hsome
  | cons d ds =>
    intro h
    have hd := hds d List.mem_cons_self
    rw [(List.cons.inj h).1, hc] at hd
    cases hd

private theorem readWhole_printed {n : Number} (hn : n.WellFormed) {tail : List Char}
    (htail : ∀ c ∈ tail.head?, c.isDigit = false) : readWhole (n.whole ++ tail) = some (n.whole, tail) := by
  by_cases hzero : n.whole.head? = some '0'
  · have hnone : tail.head?.any Char.isDigit = false := by
      cases tail with
      | nil => rfl
      | cons c tail => exact htail c rfl
    rw [hn.leading hzero]
    simp [readWhole, hnone]
  · obtain ⟨htake, hdrop⟩ := takeWhile_isDigit hn.whole htail
    cases hds : n.whole with
    | nil => exact absurd hds hn.whole_ne_nil
    | cons c ds =>
      rw [hds] at hzero htake hdrop
      rw [readWhole]
      · rw [htake, hdrop]
      · rintro rest hrest
        exact hzero (by rw [(List.cons.inj hrest).1]; rfl)

private theorem readFraction_fractionText {ds tail : List Char} (hds : ∀ c ∈ ds, c.isDigit)
    (htail : ∀ c ∈ tail.head?, c.isDigit = false ∧ c ≠ '.') :
    readFraction (fractionText ds ++ tail) = some (ds, tail) := by
  cases ds with
  | nil =>
    rw [fractionText, List.isEmpty_nil, if_pos rfl, List.nil_append, readFraction]
    rintro rest rfl
    exact (htail '.' rfl).2 rfl
  | cons c ds =>
    obtain ⟨htake, hdrop⟩ := takeWhile_isDigit hds fun c hc => (htail c hc).1
    rw [List.cons_append] at htake hdrop
    simp only [fractionText, List.isEmpty_cons, Bool.false_eq_true, if_false, List.cons_append]
    rw [readFraction, htake, hdrop]

/-- With a fraction or without, the whole part has come to its end. -/
private theorem not_isDigit_fractionText (ds : List Char) {tail : List Char}
    (htail : ∀ c ∈ tail.head?, c.isDigit = false) : ∀ c ∈ (fractionText ds ++ tail).head?, c.isDigit = false := by
  cases ds with
  | nil => exact htail
  | cons d ds =>
    intro c hc
    obtain rfl : '.' = c := by simpa [fractionText] using hc
    decide

private theorem readExponentDigits_printed (negative : Bool) {ds tail : List Char} (hsome : ds ≠ [])
    (hds : ∀ c ∈ ds, c.isDigit) (htail : ∀ c ∈ tail.head?, c.isDigit = false) :
    readExponentDigits negative (ds ++ tail) =
      some (some (if negative then -(Nat.ofDigitChars 10 ds 0 : Int) else Nat.ofDigitChars 10 ds 0), tail) := by
  obtain ⟨htake, hdrop⟩ := takeWhile_isDigit hds htail
  rw [readExponentDigits, htake, hdrop]
  cases ds with
  | nil => exact absurd rfl hsome
  | cons c cs => rfl

private theorem readExponent_exponentText (e : Option Int) {tail : List Char} (htail : Delimits tail) :
    readExponent (exponentText e ++ tail) = some (e, tail) := by
  have hstop : ∀ c ∈ tail.head?, c.isDigit = false := fun c hc => (htail c hc).1
  cases e with
  | none =>
    cases tail with
    | nil => rfl
    | cons c tail =>
      obtain ⟨-, -, hlower, hupper⟩ := htail c rfl
      simp [exponentText, readExponent, hlower, hupper]
  | some e =>
    cases e with
    | ofNat m =>
      have htext : (toString (Int.ofNat m)).toList = Nat.toDigits 10 m := by
        simp [Int.toString_eq_repr, Int.repr, Nat.repr]
      have hread := readExponentDigits_printed false Nat.toDigits_ne_nil (isDigit_toDigits m) hstop
      rw [Nat.ofDigitChars_ten_toDigits] at hread
      rw [exponentText, htext, List.cons_append, readExponent]
      · simpa using hread
      · exact fun rest => append_ne_cons Nat.toDigits_ne_nil (isDigit_toDigits m) (by decide)
      · exact fun rest => append_ne_cons Nat.toDigits_ne_nil (isDigit_toDigits m) (by decide)
    | negSucc m =>
      have htext : (toString (Int.negSucc m)).toList = '-' :: Nat.toDigits 10 (m + 1) := by
        simp [Int.toString_eq_repr, Int.repr, Nat.repr]
      have hread := readExponentDigits_printed true Nat.toDigits_ne_nil (isDigit_toDigits (m + 1)) hstop
      rw [Nat.ofDigitChars_ten_toDigits] at hread
      rw [exponentText, htext]
      simpa [readExponent, Int.negSucc_eq] using hread

/-- With an exponent or without, the fraction has come to its end. -/
private theorem not_isDigit_exponentText (e : Option Int) {tail : List Char} (htail : Delimits tail) :
    ∀ c ∈ (exponentText e ++ tail).head?, c.isDigit = false ∧ c ≠ '.' := by
  cases e with
  | none => exact fun c hc => ⟨(htail c hc).1, (htail c hc).2.1⟩
  | some e =>
    intro c hc
    obtain rfl : 'e' = c := by simpa [exponentText] using hc
    decide

theorem readNumber_printNumber {n : Number} (hn : n.WellFormed) {tail : List Char} (htail : Delimits tail) :
    readNumber (printNumber n tail) = some (.number n, tail) := by
  have hexponent := not_isDigit_exponentText n.exponent htail
  have hfraction := not_isDigit_fractionText n.fraction fun c hc => (hexponent c hc).1
  have hunsigned (negative : Bool) :
      readUnsigned negative (n.whole ++ (fractionText n.fraction ++ (exponentText n.exponent ++ tail))) =
        some (.number { n with negative := negative }, tail) := by
    simp [readUnsigned, readWhole_printed hn hfraction, readFraction_fractionText hn.fraction hexponent,
      readExponent_exponentText n.exponent htail]
  cases hsign : n.negative with
  | true =>
    simp only [printNumber, hsign, if_true, List.cons_append, List.nil_append]
    rw [readNumber, hunsigned, ← hsign]
  | false =>
    simp only [printNumber, hsign, Bool.false_eq_true, if_false, List.nil_append]
    rw [readNumber, hunsigned, ← hsign]
    exact fun rest => append_ne_cons hn.whole_ne_nil hn.whole (by decide)

end Metamodel.Json
