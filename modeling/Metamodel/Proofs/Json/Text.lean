import Mathlib.Data.List.DropRight
import Metamodel.Proofs.Json.Scalars

/-!
# Texts of JSON values

What is written for a well-formed value, with a line for each item and member, is read as that value
(`ofText?_toPretty`).  Reading stops at the text that follows, and the step bound is not met: every step goes at least
one character further, so that the length of the text is bound enough (`readsValues`).
-/

namespace Metamodel.Json

/-- All texts in the value are whole, and all its numbers are as the grammar has them. -/
inductive WellFormed : Json → Prop
  | null : WellFormed .null
  | bool (b : Bool) : WellFormed (.bool b)
  | number {n : Number} (h : n.WellFormed) : WellFormed (.number n)
  | string (s : String) : WellFormed (.string (some s))
  | array {items : List Json} (h : ∀ x ∈ items, WellFormed x) : WellFormed (.array items)
  | object {members : List (Option String × Json)} (names : ∀ m ∈ members, m.1.isSome)
    (h : ∀ m ∈ members, WellFormed m.2) : WellFormed (.object members)

/-! ### Blanks -/

private theorem skipSpace_cons {c : Char} (hc : isSpace c = false) (cs : List Char) : skipSpace
    (c :: cs) = c :: cs := by
  simp [skipSpace, hc]

@[simp] theorem skipSpace_newLine (level : Nat) (cs : List Char) : skipSpace (newLine level cs) = skipSpace cs := by
  have hblanks : ∀ c ∈ List.replicate (2 * level) ' ', isSpace c := by
    intro c hc
    rw [(List.mem_replicate.1 hc).2]
    rfl
  have hbreak : isSpace '\n' = true := rfl
  rw [newLine, skipSpace, List.dropWhile_cons, if_pos hbreak, List.dropWhile_append_of_pos hblanks]
  rfl

private theorem skipSpace_skipSpace (cs : List Char) : skipSpace (skipSpace cs) = skipSpace cs :=
  List.dropWhile_idempotent isSpace cs

/-- Blanks before a value are skipped. -/
private theorem readValue_congr {cs cs' : List Char} (h : skipSpace cs = skipSpace cs') (steps : Nat) :
    readValue steps cs = readValue steps cs' := by
  cases steps with
  | zero => rfl
  | succ steps => rw [readValue, readValue, h]

private theorem readItems_congr {cs cs' : List Char} (h : skipSpace cs = skipSpace cs') (steps : Nat)
    (seen : List Json) : readItems steps seen cs = readItems steps seen cs' := by
  cases steps with
  | zero => rfl
  | succ steps => rw [readItems, readItems, readValue_congr h]

private theorem readMembers_congr {cs cs' : List Char} (h : skipSpace cs = skipSpace cs') (steps : Nat)
    (seen : List (Option String × Json)) : readMembers steps seen cs = readMembers steps seen cs' := by
  cases steps with
  | zero => rfl
  | succ steps => rw [readMembers, readMembers, h]

/-! ### What follows is kept -/

private theorem suffix_newLine (level : Nat) (tail : List Char) : tail <:+ newLine level tail :=
  ⟨'\n' :: List.replicate (2 * level) ' ', rfl⟩

private theorem suffix_printString (s : String) (tail : List Char) : tail <:+ printString s tail :=
  ⟨'"' :: (s.toList.flatMap escapeChar ++ ['"']), by simp [printString]⟩

private theorem suffix_printNumber (n : Number) (tail : List Char) : tail <:+ printNumber n tail :=
  ((List.suffix_append _ _).trans (List.suffix_append _ _)).trans
    ((List.suffix_append _ _).trans (List.suffix_append _ _))

mutual

private theorem suffix_pretty (level : Nat) : (j : Json) → (tail : List Char) → tail <:+ pretty level j tail
  | .null, tail => List.suffix_append _ _
  | .bool true, tail => List.suffix_append _ _
  | .bool false, tail => List.suffix_append _ _
  | .number n, tail => suffix_printNumber n tail
  | .string s, tail => suffix_printString (s.getD "") tail
  | .array [], tail => List.suffix_append ['[', ']'] tail
  | .array (x :: xs), tail => by
    have hclose := (List.suffix_cons ']' tail).trans (suffix_newLine level _)
    have hitems := hclose.trans (suffix_prettyItems (level + 1) xs _)
    have hfirst := hitems.trans (suffix_pretty (level + 1) x _)
    exact (hfirst.trans (suffix_newLine (level + 1) _)).trans (List.suffix_cons '[' _)
  | .object [], tail => List.suffix_append ['\x7b', '\x7d'] tail
  | .object ((name, x) :: ms), tail => by
    have hclose := (List.suffix_cons '\x7d' tail).trans (suffix_newLine level _)
    have hmembers := hclose.trans (suffix_prettyMembers (level + 1) ms _)
    have hfirst := hmembers.trans (suffix_pretty (level + 1) x _)
    have hname := (hfirst.trans (List.suffix_append [':', ' '] _)).trans (suffix_printString (name.getD "") _)
    exact (hname.trans (suffix_newLine (level + 1) _)).trans (List.suffix_cons '\x7b' _)

private theorem suffix_prettyItems (level : Nat) : (xs : List Json) →
    (tail : List Char) → tail <:+ prettyItems level xs tail
  | [], tail => List.suffix_rfl
  | x :: xs, tail => by
    have hfirst := (suffix_prettyItems level xs tail).trans (suffix_pretty level x _)
    exact (hfirst.trans (suffix_newLine level _)).trans (List.suffix_cons ',' _)

private theorem suffix_prettyMembers (level : Nat) : (ms : List (Option String × Json)) → (tail : List Char) →
    tail <:+ prettyMembers level ms tail
  | [], tail => List.suffix_rfl
  | (name, x) :: ms, tail => by
    have hfirst := (suffix_prettyMembers level ms tail).trans (suffix_pretty level x _)
    have hname := (hfirst.trans (List.suffix_append [':', ' '] _)).trans (suffix_printString (name.getD "") _)
    exact (hname.trans (suffix_newLine level _)).trans (List.suffix_cons ',' _)

end

/-! ### What comes first -/

/-- The text of a number starts with a sign or a digit, and so with no other character that a reader looks for. -/
private theorem exists_printNumber_eq_cons {n : Number} (hn : n.WellFormed) (tail : List Char) :
    ∃ c cs, printNumber n tail = c :: cs ∧ ∀ d, d ≠ '-' → d.isDigit = false → c ≠ d := by
  suffices h : ∃ c cs, printNumber n tail = c :: cs ∧ (c = '-' ∨ c.isDigit) by
    obtain ⟨c, cs, htext, hc⟩ := h
    refine ⟨c, cs, htext, ?_⟩
    rintro d hminus hdigit rfl
    rcases hc with hc | hc
    · exact hminus hc
    · rw [hdigit] at hc
      cases hc
  cases hsign : n.negative with
  | true =>
    refine ⟨'-', n.whole ++ (fractionText n.fraction ++ (exponentText n.exponent ++ tail)), ?_, .inl rfl⟩
    simp [printNumber, hsign]
  | false =>
    cases hwhole : n.whole with
    | nil => exact absurd hwhole hn.whole_ne_nil
    | cons c cs =>
      refine ⟨c, cs ++ (fractionText n.fraction ++ (exponentText n.exponent ++ tail)), ?_, .inr (hn.whole c ?_)⟩
      · simp [printNumber, hsign, hwhole]
      · rw [hwhole]
        exact List.mem_cons_self

private theorem isSpace_eq_false {c : Char} (hc : ∀ d, d ≠ '-' → d.isDigit = false → c ≠ d) : isSpace c = false := by
  have hblank := hc ' ' (by decide) (by decide)
  have htab := hc '\t' (by decide) (by decide)
  have hbreak := hc '\n' (by decide) (by decide)
  have hreturn := hc '\r' (by decide) (by decide)
  simp [isSpace, hblank, htab, hbreak, hreturn]

/-- The text of a value starts with neither a blank nor the end of an array. -/
private theorem exists_pretty_eq_cons {j : Json} (hj : j.WellFormed) (level : Nat) (tail : List Char) :
    ∃ c cs, pretty level j tail = c :: cs ∧ isSpace c = false ∧ c ≠ ']' := by
  cases hj with
  | null => exact ⟨_, _, rfl, by decide, by decide⟩
  | bool b => cases b <;> exact ⟨_, _, rfl, by decide, by decide⟩
  | number hn =>
    obtain ⟨c, cs, htext, hc⟩ := exists_printNumber_eq_cons hn tail
    exact ⟨c, cs, htext, isSpace_eq_false hc, hc ']' (by decide) (by decide)⟩
  | string s => exact ⟨_, _, rfl, by decide, by decide⟩
  | @array items h => cases items <;> exact ⟨_, _, rfl, by decide, by decide⟩
  | @object members names h => cases members <;> exact ⟨_, _, rfl, by decide, by decide⟩

/-! ### Values -/

private theorem readValue_printNumber {n : Number} (hn : n.WellFormed) {tail : List Char} (htail : Delimits tail)
    (steps : Nat) : readValue (steps + 1) (printNumber n tail) = some (.number n, tail) := by
  rw [← readNumber_printNumber hn htail]
  obtain ⟨c, cs, htext, hc⟩ := exists_printNumber_eq_cons hn tail
  rw [htext, readValue, skipSpace_cons (isSpace_eq_false hc)]
  have hother {d : Char} {rest : List Char} (hminus : d ≠ '-') (hdigit : d.isDigit = false) : c :: cs ≠ d :: rest :=
    fun h => hc d hminus hdigit (List.cons.inj h).1
  -- Every other case of the reader starts with a character of its own.
  split
  all_goals
    rename_i h
    first | rfl | exact absurd h (hother (by decide) (by decide))

/-- Reading in so many steps is enough for every text that is not longer. -/
def ReadsValues (steps : Nat) : Prop :=
  ∀ {j : Json}, j.WellFormed → ∀ (level : Nat) {tail : List Char}, Delimits tail →
    (pretty level j tail).length < steps + tail.length → readValue steps (pretty level j tail) = some (j, tail)

private theorem delimits_newLine (level : Nat) (tail : List Char) : Delimits (newLine level tail) := by
  intro c hc
  obtain rfl : '\n' = c := by simpa [newLine] using hc
  decide

private theorem delimits_prettyItems (level : Nat) (xs : List Json) {tail : List Char} (htail : Delimits tail) :
    Delimits (prettyItems level xs tail) := by
  cases xs with
  | nil => exact htail
  | cons x xs =>
    intro c hc
    obtain rfl : ',' = c := by simpa [prettyItems] using hc
    decide

private theorem delimits_prettyMembers (level : Nat) (ms : List (Option String × Json)) {tail : List Char}
    (htail : Delimits tail) : Delimits (prettyMembers level ms tail) := by
  cases ms with
  | nil => exact htail
  | cons m ms =>
    intro c hc
    obtain rfl : ',' = c := by simpa [prettyMembers] using hc
    decide

private theorem length_newLine (level : Nat) (tail : List Char) :
    (newLine level tail).length = 2 * level + tail.length + 1 := by
  simp [newLine]

/-- The end of a container is written before what follows it. -/
private theorem length_lt_newLine (level : Nat) (c : Char) (tail : List Char) :
    tail.length < (newLine level (c :: tail)).length := by
  rw [length_newLine, List.length_cons]
  omega

section

variable {steps : Nat} {cs rest tail : List Char} {x : Json}

private theorem readItems_last (hvalue : readValue steps cs = some (x, rest)) (hrest : skipSpace rest = ']' :: tail)
    (seen : List Json) : readItems (steps + 1) seen cs = some (.array (seen.reverse ++ [x]), tail) := by
  rw [readItems, hvalue]
  dsimp only
  rw [hrest]
  simp

private theorem readItems_more (hvalue : readValue steps cs = some (x, ',' :: rest)) (seen : List Json) :
    readItems (steps + 1) seen cs = readItems steps (x :: seen) rest := by
  rw [readItems, hvalue]
  dsimp only
  rw [skipSpace_cons (by decide)]
  rfl

end

/-- One step fewer is enough for a value in a container, and what is left is enough for the rest. -/
private theorem exists_readValue_pretty {steps : Nat} (hvalues : ∀ fewer < steps, ReadsValues fewer) {x : Json}
    (hx : x.WellFormed) (level : Nat) {rest tail : List Char} (hdelimits : Delimits rest)
    (hrest : tail.length < rest.length) (hsteps : (pretty level x rest).length < steps + tail.length) :
    ∃ fewer, steps = fewer + 1 ∧ readValue fewer (pretty level x rest) = some (x, rest) ∧
      rest.length ≤ fewer + tail.length := by
  have hlength := (suffix_pretty level x rest).length_le
  obtain ⟨fewer, rfl⟩ : ∃ fewer, steps = fewer + 1 := ⟨steps - 1, by omega⟩
  exact ⟨fewer, rfl, hvalues fewer (Nat.lt_succ_self _) hx level hdelimits (by omega), by omega⟩

/-- The items of an array, if values are read. -/
private theorem readItems_pretty {steps : Nat} (hvalues : ∀ fewer < steps, ReadsValues fewer) (level outer : Nat)
    {x : Json} {xs : List Json} (hx : x.WellFormed) (hxs : ∀ y ∈ xs, y.WellFormed) (seen : List Json) {tail : List Char}
    (hsteps : (pretty level x (prettyItems level xs (newLine outer (']' :: tail)))).length < steps + tail.length) :
    readItems steps seen (pretty level x (prettyItems level xs (newLine outer (']' :: tail)))) =
      some (.array (seen.reverse ++ x :: xs), tail) := by
  have hdelimits := delimits_newLine outer (']' :: tail)
  have hclose := length_lt_newLine outer ']' tail
  induction xs generalizing x steps seen with
  | nil =>
    obtain ⟨fewer, rfl, hvalue, -⟩ := exists_readValue_pretty hvalues hx level hdelimits hclose hsteps
    exact readItems_last hvalue ((skipSpace_newLine ..).trans (skipSpace_cons (by decide) tail)) seen
  | cons y ys ih =>
    obtain ⟨hy, hys⟩ := List.forall_mem_cons.1 hxs
    have hrest := Nat.lt_of_lt_of_le hclose (suffix_prettyItems level (y :: ys) _).length_le
    obtain ⟨fewer, rfl, hvalue, hleft⟩ := exists_readValue_pretty hvalues hx level
      (delimits_prettyItems level (y :: ys) hdelimits) hrest hsteps
    rw [prettyItems, List.length_cons, length_newLine] at hleft
    rw [readItems_more hvalue, readItems_congr (skipSpace_newLine level _),
      ih (fun f hf => hvalues f (Nat.lt_succ_of_lt hf)) hy hys (x :: seen) (by omega)]
    simp

section

variable {steps : Nat} {cs rest tail : List Char} {name : String} {x : Json}

private theorem readMembers_last (hvalue : readValue steps cs = some (x, rest))
    (hrest : skipSpace rest = '\x7d' :: tail) (seen : List (Option String × Json)) :
    readMembers (steps + 1) seen (printString name (':' :: cs)) =
      some (.object (seen.reverse ++ [(some name, x)]), tail) := by
  have hquote (text : List Char) : skipSpace ('"' :: text) = '"' :: text := skipSpace_cons (by decide) text
  have hcolon (text : List Char) : skipSpace (':' :: text) = ':' :: text := skipSpace_cons (by decide) text
  simp only [readMembers, printString, hquote, readString_printed, hcolon, hvalue, hrest, List.reverse_cons]

private theorem readMembers_more (hvalue : readValue steps cs = some (x, ',' :: rest))
    (seen : List (Option String × Json)) :
    readMembers (steps + 1) seen (printString name (':' :: cs)) = readMembers steps ((some name, x) :: seen) rest := by
  have hquote (text : List Char) : skipSpace ('"' :: text) = '"' :: text := skipSpace_cons (by decide) text
  have hcolon (text : List Char) : skipSpace (':' :: text) = ':' :: text := skipSpace_cons (by decide) text
  have hcomma : skipSpace (',' :: rest) = ',' :: rest := skipSpace_cons (by decide) rest
  simp only [readMembers, printString, hquote, readString_printed, hcolon, hvalue, hcomma]

end

/-- The members of an object, if values are read. -/
private theorem readMembers_pretty {steps : Nat} (hvalues : ∀ fewer < steps, ReadsValues fewer) (level outer : Nat)
    {name : String} {x : Json} {ms : List (Option String × Json)} (hx : x.WellFormed) (hnames : ∀ m ∈ ms, m.1.isSome)
    (hms : ∀ m ∈ ms, m.2.WellFormed) (seen : List (Option String × Json)) {tail : List Char}
    (hsteps : (pretty level x (prettyMembers level ms (newLine outer ('\x7d' :: tail)))).length <
      steps + tail.length) :
    readMembers steps seen (printString name (':' :: ' ' :: pretty level x
      (prettyMembers level ms (newLine outer ('\x7d' :: tail))))) =
      some (.object (seen.reverse ++ (some name, x) :: ms), tail) := by
  have hdelimits := delimits_newLine outer ('\x7d' :: tail)
  have hclose := length_lt_newLine outer '\x7d' tail
  have hblank (text : List Char) : skipSpace (' ' :: text) = skipSpace text := rfl
  induction ms generalizing name x steps seen with
  | nil =>
    obtain ⟨fewer, rfl, hvalue, -⟩ := exists_readValue_pretty hvalues hx level hdelimits hclose hsteps
    -- The blank after the colon is left to the reader of the value.
    rw [← readValue_congr (hblank _)] at hvalue
    exact readMembers_last hvalue ((skipSpace_newLine ..).trans (skipSpace_cons (by decide) tail)) seen
  | cons m ms ih =>
    obtain ⟨next, y⟩ := m
    obtain ⟨hnext, hnames'⟩ := List.forall_mem_cons.1 hnames
    obtain ⟨next, rfl⟩ := Option.isSome_iff_exists.1 hnext
    obtain ⟨hy, hms'⟩ : y.WellFormed ∧ ∀ m ∈ ms, m.2.WellFormed := List.forall_mem_cons.1 hms
    have hrest := Nat.lt_of_lt_of_le hclose (suffix_prettyMembers level ((some next, y) :: ms) _).length_le
    obtain ⟨fewer, rfl, hvalue, hleft⟩ := exists_readValue_pretty hvalues hx level
      (delimits_prettyMembers level ((some next, y) :: ms) hdelimits) hrest hsteps
    rw [← readValue_congr (hblank _)] at hvalue
    rw [prettyMembers, List.length_cons, length_newLine] at hleft
    have hname := (suffix_printString next (':' :: ' ' :: pretty level y
      (prettyMembers level ms (newLine outer ('\x7d' :: tail))))).length_le
    rw [List.length_cons, List.length_cons] at hname
    rw [Option.getD_some] at hleft
    rw [readMembers_more hvalue, readMembers_congr (skipSpace_newLine level _), Option.getD_some,
      ih (fun f hf => hvalues f (Nat.lt_succ_of_lt hf)) hy hnames' hms' ((some name, x) :: seen) (by omega)]
    simp

/-! ### All values -/

private theorem readValue_printString (s : String) (tail : List Char) (steps : Nat) :
    readValue (steps + 1) (printString s tail) = some (.string (some s), tail) := by
  have hquote (text : List Char) : skipSpace ('"' :: text) = '"' :: text := skipSpace_cons (by decide) text
  simp only [printString, readValue, hquote, readString_printed]
  rfl

private theorem pretty_array_cons (level : Nat) (x : Json) (xs : List Json) (tail : List Char) :
    pretty level (.array (x :: xs)) tail = '[' :: newLine (level + 1)
      (pretty (level + 1) x (prettyItems (level + 1) xs (newLine level (']' :: tail)))) :=
  rfl

private theorem pretty_object_cons (level : Nat) (name : String) (x : Json) (ms : List (Option String × Json))
    (tail : List Char) :
    pretty level (.object ((some name, x) :: ms)) tail = '\x7b' :: newLine (level + 1) (printString name
      (':' :: ' ' :: pretty (level + 1) x (prettyMembers (level + 1) ms (newLine level ('\x7d' :: tail))))) :=
  rfl

/-- An array that is not empty, after its opening bracket. -/
private theorem readValue_openArray {rest : List Char} (hrest : (skipSpace rest).head? ≠ some ']') (steps : Nat) :
    readValue (steps + 1) ('[' :: rest) = readItems steps [] rest := by
  have hopen : skipSpace ('[' :: rest) = '[' :: rest := skipSpace_cons (by decide) rest
  simp only [readValue, hopen]
  split
  · rename_i hend
    rw [hend] at hrest
    exact absurd rfl hrest
  · exact readItems_congr (skipSpace_skipSpace rest) steps []

private theorem readValue_openObject {rest : List Char} (hrest : (skipSpace rest).head? ≠ some '\x7d') (steps : Nat) :
    readValue (steps + 1) ('\x7b' :: rest) = readMembers steps [] rest := by
  have hopen : skipSpace ('\x7b' :: rest) = '\x7b' :: rest := skipSpace_cons (by decide) rest
  simp only [readValue, hopen]
  split
  · rename_i hend
    rw [hend] at hrest
    exact absurd rfl hrest
  · exact readMembers_congr (skipSpace_skipSpace rest) steps []

section

variable {fewer : Nat} (hfewer : ∀ f < fewer, ReadsValues f) (level : Nat) {x : Json} (hx : x.WellFormed)
  {tail : List Char}

include hfewer hx

private theorem readValue_pretty_array {xs : List Json} (hxs : ∀ y ∈ xs, y.WellFormed)
    (hsteps : (pretty level (.array (x :: xs)) tail).length < fewer + 1 + tail.length) :
    readValue (fewer + 1) (pretty level (.array (x :: xs)) tail) = some (.array (x :: xs), tail) := by
  obtain ⟨c, cs, htext, hspace, hc⟩ :=
    exists_pretty_eq_cons hx (level + 1) (prettyItems (level + 1) xs (newLine level (']' :: tail)))
  rw [pretty_array_cons, List.length_cons, length_newLine] at hsteps
  rw [pretty_array_cons, readValue_openArray, readItems_congr (skipSpace_newLine ..),
    readItems_pretty hfewer (level + 1) level hx hxs [] (by omega)]
  · rfl
  · rw [skipSpace_newLine, htext, skipSpace_cons hspace]
    simpa using hc

private theorem readValue_pretty_object {name : String} {ms : List (Option String × Json)}
    (hnames : ∀ m ∈ ms, m.1.isSome) (hms : ∀ m ∈ ms, m.2.WellFormed)
    (hsteps : (pretty level (.object ((some name, x) :: ms)) tail).length < fewer + 1 + tail.length) :
    readValue (fewer + 1) (pretty level (.object ((some name, x) :: ms)) tail) =
      some (.object ((some name, x) :: ms), tail) := by
  have hname := (suffix_printString name (':' :: ' ' :: pretty (level + 1) x
    (prettyMembers (level + 1) ms (newLine level ('\x7d' :: tail))))).length_le
  rw [List.length_cons, List.length_cons] at hname
  rw [pretty_object_cons, List.length_cons, length_newLine] at hsteps
  rw [pretty_object_cons, readValue_openObject, readMembers_congr (skipSpace_newLine ..),
    readMembers_pretty hfewer (level + 1) level hx hnames hms [] (by omega)]
  · rfl
  · rw [skipSpace_newLine, printString, skipSpace_cons (by decide)]
    simp

end

theorem readsValues (steps : Nat) : ReadsValues steps := by
  induction steps using Nat.strongRecOn with
  | ind steps ih =>
    intro j hj level tail htail hsteps
    -- The text is not shorter than what follows it, so that there is a step to take.
    have hlength := (suffix_pretty level j tail).length_le
    obtain ⟨fewer, rfl⟩ : ∃ fewer, steps = fewer + 1 := ⟨steps - 1, by omega⟩
    have hfewer : ∀ f < fewer, ReadsValues f := fun f hf => ih f (Nat.lt_succ_of_lt hf)
    cases hj with
    | null => rfl
    | bool b => cases b <;> rfl
    | number hn => exact readValue_printNumber hn htail fewer
    | string s => exact readValue_printString s tail fewer
    | @array items h =>
      cases items with
      | nil => rfl
      | cons x xs =>
        obtain ⟨hx, hxs⟩ := List.forall_mem_cons.1 h
        exact readValue_pretty_array hfewer level hx hxs hsteps
    | @object members names h =>
      cases members with
      | nil => rfl
      | cons m ms =>
        obtain ⟨name, x⟩ := m
        obtain ⟨hname, hnames⟩ := List.forall_mem_cons.1 names
        obtain ⟨name, rfl⟩ := Option.isSome_iff_exists.1 hname
        obtain ⟨hx, hms⟩ := List.forall_mem_cons.1 h
        exact readValue_pretty_object hfewer level hx hnames hms hsteps

/-- Reading the text of a well-formed value gives the value back. -/
theorem ofText?_toPretty {j : Json} (hj : j.WellFormed) : ofText? j.toPretty = some j := by
  have htext : j.toPretty.toList = pretty 0 j [] := by simp [toPretty]
  have hend : Delimits [] := fun c hc => by cases hc
  have hread := readsValues (2 * (pretty 0 j []).length + 2) hj 0 hend (by rw [List.length_nil]; omega)
  simp only [ofText?, htext, hread]
  rfl

end Metamodel.Json
