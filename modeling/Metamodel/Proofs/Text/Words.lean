import Mathlib.Data.List.TakeWhile
import Metamodel.Text.Blank

/-!
# Words and tokens

Blanks separate words, and otherwise do not count: the words of two texts with a blank between them are those of the
first and those of the second (`words_append_cons`), and a word is what stands between blanks (`words_append`).  A text
spells tokens if it consists of them, in order, and of white space before, between and after them (`Spells`).  Tokens
need no blanks between them, so a word may hold several; but no word ends within a token, and whether a text spells
tokens depends on its words alone (`Spells.of_words_eq`).
-/

namespace Metamodel.Text

variable {a b cs gap left right word : List Char}

def AllBlank (cs : List Char) : Prop :=
  ∀ c ∈ cs, isBlank c = true

def NoBlank (cs : List Char) : Prop :=
  ∀ c ∈ cs, isBlank c = false

instance : Decidable (AllBlank cs) :=
  decidable_of_iff (cs.all isBlank = true) List.all_eq_true

instance : Decidable (NoBlank cs) :=
  decidable_of_iff (cs.any isBlank = false) (by simp [NoBlank])

/-- The text is at its end or goes on with a blank. -/
def EndsWord (cs : List Char) : Prop :=
  ∀ c ∈ cs.head?, isBlank c = true

/-! ### Words -/

theorem words_append_cons (a b : List Char) {c : Char} (hc : isBlank c = true) :
    words (a ++ c :: b) = words a ++ words b := by
  rw [words, List.splitOnP_append_cons _ _ hc, List.filter_append]
  rfl

private theorem words_cons {c : Char} (hc : isBlank c = true) (cs : List Char) : words (c :: cs) = words cs :=
  words_append_cons [] cs hc

theorem words_of_noBlank (hword : NoBlank word) (hne : word ≠ []) : words word = [word] := by
  have hfull : word.isEmpty = false := List.isEmpty_eq_false_iff.2 hne
  simp [words, List.splitOnP_eq_singleton hword, hfull]

private theorem words_append_of_allBlank (hgap : AllBlank gap) (cs : List Char) : words (gap ++ cs) = words cs := by
  induction gap with
  | nil => rfl
  | cons c gap ih =>
    obtain ⟨hc, hgap⟩ := List.forall_mem_cons.1 hgap
    rw [List.cons_append, words_cons hc, ih hgap]

private theorem words_of_allBlank (hgap : AllBlank gap) : words gap = [] := by
  have h := words_append_of_allBlank hgap []
  rwa [List.append_nil] at h

/-- A gap at the end makes no word either. -/
private theorem words_append_gap (cs : List Char) (hgap : AllBlank gap) : words (cs ++ gap) = words cs := by
  cases gap with
  | nil => rw [List.append_nil]
  | cons c gap =>
    obtain ⟨hc, hgap⟩ := List.forall_mem_cons.1 hgap
    rw [words_append_cons _ _ hc, words_of_allBlank hgap, List.append_nil]

/-- What a gap is between are words of their own. -/
theorem words_append_gap_append (a b : List Char) (hgap : AllBlank gap) (hne : gap ≠ []) :
    words (a ++ gap ++ b) = words a ++ words b := by
  cases gap with
  | nil => exact absurd rfl hne
  | cons c gap =>
    obtain ⟨hc, hgap⟩ := List.forall_mem_cons.1 hgap
    rw [List.append_assoc, List.cons_append, words_append_cons _ _ hc, words_append_of_allBlank hgap]

/-- Two texts have their words apart if the second does not go on with the last word of the first. -/
theorem words_append_of_endsWord (a : List Char) (hb : EndsWord b) : words (a ++ b) = words a ++ words b := by
  cases b with
  | nil =>
    rw [List.append_nil]
    exact (List.append_nil _).symm
  | cons c b =>
    have hc : isBlank c = true := hb c rfl
    rw [words_append_cons _ _ hc, words_cons hc]

/-- Likewise if the first does not start the first word of the second. -/
theorem words_append_of_endsWord_reverse (ha : EndsWord a.reverse) (b : List Char) :
    words (a ++ b) = words a ++ words b := by
  rcases List.eq_nil_or_concat a with rfl | ⟨front, c, rfl⟩
  · rfl
  · rw [List.concat_eq_append] at ha ⊢
    have hc : isBlank c = true := ha c (by rw [List.reverse_append]; rfl)
    rw [List.append_assoc, List.singleton_append, words_append_cons _ _ hc, words_append_cons _ _ hc]
    simp [words]

/-- A word ends where a blank follows. -/
theorem words_append (hword : NoBlank word) (hne : word ≠ []) (hcs : EndsWord cs) :
    words (word ++ cs) = word :: words cs := by
  rw [words_append_of_endsWord word hcs, words_of_noBlank hword hne]
  rfl

/-- Only blanks are lost. -/
theorem flatten_words (cs : List Char) : (words cs).flatten = cs.filter (! isBlank ·) := by
  have hpieces : (cs.splitOnP isBlank).flatten = cs.filter (! isBlank ·) := by
    induction cs with
    | nil => rfl
    | cons c cs ih =>
      obtain ⟨word, rest, hsplit⟩ := List.exists_cons_of_ne_nil (List.splitOnP_ne_nil isBlank cs)
      rw [List.splitOnP_cons_eq_if_modifyHead]
      rw [hsplit] at ih ⊢
      by_cases hc : isBlank c = true
      · simp [hc, ← ih]
      · simp [hc, ← ih]
  rw [words, List.flatten_filter_not_isEmpty, hpieces]

theorem mem_of_mem_words (hword : word ∈ words cs) {c : Char} (hc : c ∈ word) : c ∈ cs := by
  have hflatten : c ∈ (words cs).flatten := List.mem_flatten.2 ⟨word, hword, hc⟩
  rw [flatten_words] at hflatten
  exact (List.mem_filter.1 hflatten).1

/-- A text starts with what belongs to one word, and then the word ends. -/
theorem exists_noBlank_append (cs : List Char) :
    ∃ word rest, cs = word ++ rest ∧ NoBlank word ∧ EndsWord rest := by
  refine ⟨cs.takeWhile (! isBlank ·), cs.dropWhile (! isBlank ·), List.takeWhile_append_dropWhile.symm, ?_, ?_⟩
  · intro c hc
    simpa using List.mem_takeWhile_imp hc
  · intro c hc
    have hstop := List.head?_dropWhile_not (! isBlank ·) cs
    rw [Option.mem_def.1 hc] at hstop
    simpa using hstop

/-- Likewise from the other end. -/
theorem exists_append_noBlank (cs : List Char) :
    ∃ rest word, cs = rest ++ word ∧ NoBlank word ∧ EndsWord rest.reverse := by
  obtain ⟨word, rest, heq, hword, hrest⟩ := exists_noBlank_append cs.reverse
  refine ⟨rest.reverse, word.reverse, ?_, fun c hc => hword c (List.mem_reverse.1 hc), by rwa [List.reverse_reverse]⟩
  rw [← List.reverse_append, ← heq, List.reverse_reverse]

private theorem exists_gap_append (cs : List Char) :
    ∃ gap rest, cs = gap ++ rest ∧ AllBlank gap ∧ ∀ c ∈ rest.head?, isBlank c = false := by
  refine ⟨cs.takeWhile isBlank, cs.dropWhile isBlank, List.takeWhile_append_dropWhile.symm, ?_, ?_⟩
  · exact fun c hc => List.mem_takeWhile_imp hc
  · intro c hc
    have hstop := List.head?_dropWhile_not isBlank cs
    rw [Option.mem_def.1 hc] at hstop
    simpa using hstop

/-- A character that is not blank starts a word. -/
private theorem exists_word_append {c : Char} (hc : isBlank c = false) (cs : List Char) :
    ∃ word rest, c :: cs = word ++ rest ∧ EndsWord rest ∧ words (c :: cs) = word :: words rest := by
  obtain ⟨word, rest, heq, hword, hrest⟩ := exists_noBlank_append (c :: cs)
  have hne : word ≠ [] := by
    rintro rfl
    rw [List.nil_append] at heq
    rw [← heq] at hrest
    have hblank := hrest c rfl
    rw [hc] at hblank
    cases hblank
  refine ⟨word, rest, heq, hrest, ?_⟩
  rw [heq, words_append hword hne hrest]

private theorem allBlank_of_words_eq_nil (h : words cs = []) : AllBlank cs := by
  obtain ⟨gap, rest, rfl, hgap, hrest⟩ := exists_gap_append cs
  rw [words_append_of_allBlank hgap] at h
  cases rest with
  | nil => rwa [List.append_nil]
  | cons c rest =>
    obtain ⟨word, tail, -, -, hwords⟩ := exists_word_append (hrest c rfl) rest
    rw [hwords] at h
    cases h

/-- A text with words starts with the first, after a gap, and goes on with the others. -/
private theorem exists_of_words_eq_cons {ws : List (List Char)} (h : words cs = word :: ws) :
    ∃ gap rest, cs = gap ++ (word ++ rest) ∧ AllBlank gap ∧ EndsWord rest ∧ words rest = ws := by
  obtain ⟨gap, rest, rfl, hgap, hrest⟩ := exists_gap_append cs
  rw [words_append_of_allBlank hgap] at h
  cases rest with
  | nil => cases h
  | cons c rest =>
    obtain ⟨first, tail, heq, htail, hwords⟩ := exists_word_append (hrest c rfl) rest
    rw [hwords] at h
    obtain ⟨rfl, rfl⟩ := List.cons.inj h
    exact ⟨gap, tail, by rw [heq], hgap, htail, rfl⟩

/-! ### Trimming -/

theorem trim_of_gaps (hleft : AllBlank left) (hright : AllBlank right) (hfirst : ∀ c ∈ cs.head?, isBlank c = false)
    (hlast : ∀ c ∈ cs.getLast?, isBlank c = false) : trim (left ++ cs ++ right) = cs := by
  have keeps : ∀ cs : List Char, (∀ c ∈ cs.head?, isBlank c = false) → cs.dropWhile isBlank = cs := by
    intro cs h
    cases cs with
    | nil => rfl
    | cons c cs => rw [List.dropWhile_cons_of_neg (by simp [h c rfl])]
  have hreversed : cs.reverse.dropWhile isBlank = cs.reverse := by
    refine keeps _ fun c hc => hlast c ?_
    rwa [List.head?_reverse] at hc
  cases cs with
  | nil =>
    have hnone : (left ++ [] ++ right).dropWhile isBlank = [] := by
      rw [List.append_nil, List.dropWhile_append_of_pos hleft]
      exact List.dropWhile_eq_nil_iff.2 hright
    rw [trim, hnone]
    rfl
  | cons d ds =>
    have hfront : (left ++ d :: ds ++ right).dropWhile isBlank = d :: ds ++ right := by
      rw [List.append_assoc, List.dropWhile_append_of_pos hleft]
      exact keeps _ hfirst
    have hright : ∀ c ∈ right.reverse, isBlank c = true := fun c hc => hright c (List.mem_reverse.1 hc)
    rw [trim, hfront, List.reverse_append, List.dropWhile_append_of_pos hright, hreversed, List.reverse_reverse]

theorem trim_of_noBlank (hleft : AllBlank left) (hcs : NoBlank cs) (hright : AllBlank right) :
    trim (left ++ cs ++ right) = cs :=
  trim_of_gaps hleft hright (fun c hc => hcs c (List.mem_of_mem_head? hc))
    fun c hc => hcs c (List.mem_of_mem_getLast? hc)

/-- The blanks that trimming takes away. -/
theorem exists_eq_trim (cs : List Char) :
    ∃ left right, cs = left ++ trim cs ++ right ∧ AllBlank left ∧ AllBlank right := by
  refine ⟨cs.takeWhile isBlank, ((cs.dropWhile isBlank).reverse.takeWhile isBlank).reverse, ?_, ?_, ?_⟩
  · rw [trim, List.append_assoc, ← List.reverse_append, List.takeWhile_append_dropWhile, List.reverse_reverse,
      List.takeWhile_append_dropWhile]
  · exact fun c hc => List.mem_takeWhile_imp hc
  · exact fun c hc => List.mem_takeWhile_imp (List.mem_reverse.1 hc)

theorem words_trim (cs : List Char) : words (trim cs) = words cs := by
  obtain ⟨left, right, heq, hleft, hright⟩ := exists_eq_trim cs
  calc words (trim cs) = words (left ++ trim cs) := (words_append_of_allBlank hleft _).symm
    _ = words (left ++ trim cs ++ right) := (words_append_gap _ hright).symm
    _ = words cs := congrArg words heq.symm

/-! ### Tokens -/

/-- The text consists of the tokens, in order, with any white space before, between and after them. -/
inductive Spells : List (List Char) → List Char → Prop where
  | nil {gap : List Char} : AllBlank gap → Spells [] gap
  | cons {gap token rest : List Char} {tokens : List (List Char)} :
      AllBlank gap → Spells tokens rest → Spells (token :: tokens) (gap ++ token ++ rest)

variable {tokens : List (List Char)} {token : List Char}

theorem Spells.append {more : List (List Char)} (ha : Spells tokens a) (hb : Spells more b) :
    Spells (tokens ++ more) (a ++ b) := by
  induction ha with
  | nil hgap =>
    cases hb with
    | nil hmore => exact .nil (List.forall_mem_append.2 ⟨hgap, hmore⟩)
    | cons hmore hrest =>
      rw [← List.append_assoc, ← List.append_assoc]
      exact .cons (List.forall_mem_append.2 ⟨hgap, hmore⟩) hrest
  | cons hgap _ ih =>
    rw [List.append_assoc]
    exact .cons hgap ih

theorem spells_self (token : List Char) : Spells [token] token := by
  have hnone : AllBlank [] := fun _ hc => absurd hc List.not_mem_nil
  have h : Spells [token] ([] ++ token ++ []) := .cons hnone (.nil hnone)
  rwa [List.nil_append, List.append_nil] at h

theorem spells_singleton (hleft : AllBlank left) (token : List Char) (hright : AllBlank right) :
    Spells [token] (left ++ token ++ right) :=
  .cons hleft (.nil hright)

/-- The blanks that trimming takes away belong to no token. -/
theorem Spells.of_trim (h : Spells tokens (trim cs)) : Spells tokens cs := by
  obtain ⟨left, right, heq, hleft, hright⟩ := exists_eq_trim cs
  have hall := ((Spells.nil hleft).append h).append (.nil hright)
  rwa [← heq, List.nil_append, List.append_nil] at hall

/-- The last token has a gap behind it. -/
theorem spells_concat_iff :
    Spells (tokens ++ [token]) cs ↔ ∃ front gap, cs = front ++ token ++ gap ∧ Spells tokens front ∧ AllBlank gap := by
  constructor
  · intro h
    induction tokens generalizing cs with
    | nil =>
      cases h with
      | cons hgap hrest =>
        cases hrest with
        | nil hblank => exact ⟨_, _, rfl, .nil hgap, hblank⟩
    | cons first tokens ih =>
      cases h with
      | cons hgap hrest =>
        obtain ⟨front, gap, rfl, hfront, hblank⟩ := ih hrest
        exact ⟨_, gap, by simp only [List.append_assoc], .cons hgap hfront, hblank⟩
  · rintro ⟨front, gap, rfl, hfront, hblank⟩
    rw [List.append_assoc]
    exact hfront.append (spells_singleton (fun _ h => absurd h List.not_mem_nil) token hblank)

/-- A text starts with a blank or as its first token does. -/
theorem Spells.head? {c d : Char} {first : List Char} (h : Spells ((c :: first) :: tokens) (d :: cs)) :
    isBlank d = true ∨ d = c := by
  generalize htext : d :: cs = text at h
  cases h with
  | @cons gap _ _ _ hgap _ =>
    cases gap with
    | nil => exact .inr (List.cons.inj htext).1
    | cons e gap =>
      obtain rfl := (List.cons.inj htext).1
      exact .inl (hgap d List.mem_cons_self)

/-- Every character of the text is blank or belongs to a token. -/
theorem Spells.mem (h : Spells tokens cs) {c : Char} (hc : c ∈ cs) :
    isBlank c = true ∨ ∃ token ∈ tokens, c ∈ token := by
  induction h with
  | nil hgap => exact .inl (hgap c hc)
  | cons hgap _ ih =>
    rcases List.mem_append.1 hc with hc | hc
    · rcases List.mem_append.1 hc with hc | hc
      · exact .inl (hgap c hc)
      · exact .inr ⟨_, List.mem_cons_self, hc⟩
    · exact (ih hc).imp_right fun ⟨token, hmem, hc⟩ => ⟨token, List.mem_cons_of_mem _ hmem, hc⟩

/-- Texts of the same words spell the same tokens. -/
theorem Spells.of_words_eq (h : Spells tokens a) (htokens : ∀ token ∈ tokens, token ≠ [] ∧ NoBlank token)
    (hwords : words b = words a) : Spells tokens b := by
  induction h generalizing b with
  | nil hgap =>
    exact .nil (allBlank_of_words_eq_nil (hwords.trans (words_of_allBlank hgap)))
  | @cons gap token rest tokens hgap _ ih =>
    obtain ⟨⟨hne, htoken⟩, htokens⟩ := List.forall_mem_cons.1 htokens
    -- The word that starts with the token may go on, with `more`; it does so in both texts.
    obtain ⟨more, tail, rfl, hmore, htail⟩ := exists_noBlank_append rest
    have hword : NoBlank (token ++ more) := List.forall_mem_append.2 ⟨htoken, hmore⟩
    rw [List.append_assoc, words_append_of_allBlank hgap, ← List.append_assoc,
      words_append hword (List.append_ne_nil_of_left_ne_nil hne more) htail] at hwords
    obtain ⟨gap', tail', rfl, hgap', htail', hsame⟩ := exists_of_words_eq_cons hwords
    have hrest : words (more ++ tail') = words (more ++ tail) := by
      cases more with
      | nil => exact hsame
      | cons c more =>
        have hcons := List.cons_ne_nil c more
        rw [words_append hmore hcons htail', words_append hmore hcons htail, hsame]
    have hspells : Spells (token :: tokens) (gap' ++ token ++ (more ++ tail')) := .cons hgap' (ih htokens hrest)
    rwa [List.append_assoc, ← List.append_assoc token more tail'] at hspells

end Metamodel.Text
