import Mathlib.Algebra.Group.Nat.Even
import Metamodel.Join.Query
import Metamodel.Proofs.Text.Words

/-!
# Conjuncts of a query

A query is split word by word.  The splitter knows the conjuncts that are finished, the words of the one at hand, and
whether a literal is open (`Splitter`).  A literal is open just if the text so far has an odd number of quotes
(`quoted_run`), so after a text with an even number the next word `and` divides the query, and the two sides are split
like queries of their own (`conjuncts_and`).  Joins add up alike (`append_assoc`), and so the join of a conjunction is
that of its two sides together (`parse_and`).
-/

namespace Metamodel.Join

open Text (AllBlank NoBlank words words_append_gap_append words_of_noBlank flatten_words words_append_cons)

variable {q w : List Char} {ws us : List (List Char)}

/-! ### Quotes -/

theorem togglesQuote_eq_false_iff {cs : List Char} : togglesQuote cs = false ↔ Even (cs.count '\'') := by
  simp [togglesQuote, Nat.even_iff]

theorem togglesQuote_append (a b : List Char) : togglesQuote (a ++ b) = (togglesQuote a ^^ togglesQuote b) := by
  unfold togglesQuote
  rw [List.count_append, Nat.add_mod]
  rcases Nat.mod_two_eq_zero_or_one (a.count '\'') with ha | ha <;>
    rcases Nat.mod_two_eq_zero_or_one (b.count '\'') with hb | hb <;> simp [ha, hb]

theorem togglesQuote_quote (cs : List Char) : togglesQuote ('\'' :: cs) = !togglesQuote cs := by
  rw [← List.singleton_append, togglesQuote_append]
  exact Bool.true_xor _

theorem togglesQuote_of_not_mem (h : '\'' ∉ w) : togglesQuote w = false := by
  rw [togglesQuote, List.count_eq_zero.2 h]
  rfl

/-- The words of a text have all of its quotes. -/
theorem togglesQuote_words (cs : List Char) : togglesQuote (words cs).flatten = togglesQuote cs := by
  rw [flatten_words, togglesQuote, togglesQuote, List.count_filter (by decide)]

private theorem toLower_of_not_upper {c : Char} (h : ¬ (65 ≤ c.toNat ∧ c.toNat ≤ 90)) : c.toLower = c :=
  dif_neg h

private theorem not_upper_of_isBlank {c : Char} (h : Text.isBlank c = true) : ¬ (65 ≤ c.toNat ∧ c.toNat ≤ 90) := by
  simp only [Text.isBlank, Bool.or_eq_true, Bool.and_eq_true, decide_eq_true_eq, beq_iff_eq] at h
  omega

/-- The word `and` is a word, and has no quote. -/
theorem of_isAnd (h : isAnd w = true) : w ≠ [] ∧ NoBlank w ∧ '\'' ∉ w := by
  have hmap : w.map Char.toLower = ['a', 'n', 'd'] := by simpa [isAnd] using h
  have hletter : ∀ c ∈ w, c.toLower ∈ ['a', 'n', 'd'] := fun c hc => hmap ▸ List.mem_map_of_mem hc
  refine ⟨?_, fun c hc => Bool.eq_false_iff.2 fun hblank => ?_, fun hquote => absurd (hletter _ hquote) (by decide)⟩
  · rintro rfl
    cases hmap
  · -- A blank is no capital letter and so its own lower case.
    have hsame := hletter c hc
    rw [toLower_of_not_upper (not_upper_of_isBlank hblank)] at hsame
    have hall : NoBlank ['a', 'n', 'd'] := by decide
    rw [hall c hsame] at hblank
    cases hblank

/-! ### The splitter -/

/-- Where splitting stands after some words. -/
structure Splitter where
  finished : List (List (List Char)) := []
  current : List (List Char) := []
  quoted : Bool := false

namespace Splitter

/-- All conjuncts, if there are no more words. -/
def flush (s : Splitter) : List (List (List Char)) :=
  s.finished ++ if s.current.isEmpty then [] else [s.current]

def step (s : Splitter) (w : List Char) : Splitter :=
  if !s.quoted && isAnd w then { finished := s.flush, current := [], quoted := false }
  else { s with current := s.current ++ [w], quoted := s.quoted ^^ togglesQuote w }

def run (s : Splitter) (ws : List (List Char)) : Splitter :=
  ws.foldl step s

variable (s : Splitter)

theorem run_append (ws us : List (List Char)) : s.run (ws ++ us) = (s.run ws).run us :=
  List.foldl_append

/-- The splitter gives the conjuncts. -/
theorem flush_run (ws : List (List Char)) :
    (s.run ws).flush = s.finished ++ conjunctsFrom s.quoted s.current ws := by
  induction ws generalizing s with
  | nil => rfl
  | cons w ws ih =>
    rw [run, List.foldl_cons, ← run, ih, conjunctsFrom]
    unfold step
    split
    · rename_i hand
      have hopen : s.quoted = false := by
        simp only [Bool.and_eq_true, Bool.not_eq_true'] at hand
        exact hand.1
      rw [flush, hopen, List.append_assoc]
    · rfl

private theorem step_and (hopen : s.quoted = false) (hand : isAnd w = true) :
    s.step w = { finished := s.flush, current := [], quoted := false } := by
  rw [step, hopen, hand]
  rfl

private theorem step_of_not_and (h : s.quoted = false → isAnd w = false) :
    s.step w = { s with current := s.current ++ [w], quoted := s.quoted ^^ togglesQuote w } := by
  rw [step, if_neg]
  simp only [Bool.and_eq_true, Bool.not_eq_true', not_and, Bool.not_eq_true]
  exact h

/-- Words belong to the conjunct at hand as long as none divides the query. -/
theorem run_of_undivided
    (h : ∀ before w after, ws = before ++ w :: after → (s.quoted ^^ togglesQuote before.flatten) = false →
      isAnd w = false) :
    s.run ws = { s with current := s.current ++ ws, quoted := s.quoted ^^ togglesQuote ws.flatten } := by
  induction ws generalizing s with
  | nil => simp [run, togglesQuote]
  | cons w ws ih =>
    have hstep := s.step_of_not_and fun hopen => h [] w ws rfl (by simpa [togglesQuote] using hopen)
    have hrest := ih (s.step w) fun before v after heq hopen => h (w :: before) v after (by rw [heq]; rfl) (by
      rw [hstep] at hopen
      rw [List.flatten_cons, togglesQuote_append, ← Bool.xor_assoc]
      exact hopen)
    rw [run, List.foldl_cons, ← run, hrest, hstep, List.flatten_cons, togglesQuote_append, ← Bool.xor_assoc,
      List.append_assoc]
    rfl

/-! ### Quotes and the splitter -/

private theorem quoted_step (w : List Char) : (s.step w).quoted = (s.quoted ^^ togglesQuote w) := by
  by_cases hand : s.quoted = false ∧ isAnd w = true
  · rw [s.step_and hand.1 hand.2, hand.1, togglesQuote_of_not_mem (of_isAnd hand.2).2.2]
    rfl
  · rw [s.step_of_not_and fun hopen => Bool.eq_false_iff.2 fun hand' => hand ⟨hopen, hand'⟩]

/-- A literal is open after an odd number of quotes. -/
theorem quoted_run (ws : List (List Char)) : (s.run ws).quoted = (s.quoted ^^ togglesQuote ws.flatten) := by
  induction ws generalizing s with
  | nil => simp [run, togglesQuote]
  | cons w ws ih =>
    rw [run, List.foldl_cons, ← run, ih, quoted_step, List.flatten_cons, togglesQuote_append, Bool.xor_assoc]

/-- A literal does not reach over the end of a conjunct: if one is open, it has been opened in the conjunct at hand. -/
structure Balanced (s : Splitter) : Prop where
  quoted : s.quoted = togglesQuote s.current.flatten

variable {s}

theorem Balanced.step (h : s.Balanced) (w : List Char) : (s.step w).Balanced := by
  by_cases hand : s.quoted = false ∧ isAnd w = true
  · rw [s.step_and hand.1 hand.2]
    exact ⟨rfl⟩
  · rw [s.step_of_not_and fun hopen => Bool.eq_false_iff.2 fun hand' => hand ⟨hopen, hand'⟩]
    refine ⟨?_⟩
    rw [List.flatten_append, togglesQuote_append, ← h.quoted, List.flatten_singleton]

theorem Balanced.run (h : s.Balanced) (ws : List (List Char)) : (s.run ws).Balanced :=
  List.foldlRecOn ws Splitter.step (motive := Balanced) h fun _ ht w _ => ht.step w

end Splitter

/-- The conjunct at hand goes on in the same way whatever words it has, if it has some. -/
theorem exists_conjunctsFrom (quoted : Bool) (ws : List (List Char)) :
    ∃ more rest, ∀ current, current ≠ [] → conjunctsFrom quoted current ws = (current ++ more) :: rest := by
  induction ws generalizing quoted with
  | nil =>
    refine ⟨[], [], fun current hne => ?_⟩
    rw [conjunctsFrom, if_neg (by simpa using hne), List.append_nil]
  | cons w ws ih =>
    by_cases hand : (!quoted && isAnd w) = true
    · refine ⟨[], conjunctsFrom quoted [] ws, fun current hne => ?_⟩
      rw [conjunctsFrom, if_pos hand, if_neg (by simpa using hne), List.append_nil]
      rfl
    · obtain ⟨more, rest, hrest⟩ := ih (quoted ^^ togglesQuote w)
      refine ⟨w :: more, rest, fun current hne => ?_⟩
      rw [conjunctsFrom, if_neg hand, hrest _ (List.append_ne_nil_of_right_ne_nil current (List.cons_ne_nil w [])),
        List.append_assoc]
      rfl

/-! ### Conjuncts -/

theorem conjuncts_eq (query : List Char) :
    conjuncts query = ((Splitter.run {} (words query)).flush).map conjunct := by
  rw [Splitter.flush_run]
  rfl

theorem conjunct_singleton (w : List Char) : conjunct [w] = w :=
  List.intercalate_singleton

theorem conjunct_cons (w : List Char) (hws : ws ≠ []) : conjunct (w :: ws) = w ++ ' ' :: conjunct ws := by
  rw [conjunct, List.intercalate_cons_of_ne_nil hws, List.append_assoc]
  rfl

theorem conjunct_append (hws : ws ≠ []) (hus : us ≠ []) :
    conjunct (ws ++ us) = conjunct ws ++ ' ' :: conjunct us := by
  induction ws with
  | nil => exact absurd rfl hws
  | cons w ws ih =>
    by_cases hlast : ws = []
    · subst hlast
      rw [List.singleton_append, conjunct_cons w hus, conjunct_singleton]
    · rw [List.cons_append, conjunct_cons w (List.append_ne_nil_of_left_ne_nil hlast us), ih hlast,
        conjunct_cons w hlast, List.append_assoc]
      rfl

/-- The words of a conjunct are those it is made of. -/
theorem words_conjunct (h : ∀ w ∈ ws, w ≠ [] ∧ NoBlank w) : words (conjunct ws) = ws := by
  induction ws with
  | nil => rfl
  | cons w ws ih =>
    obtain ⟨⟨hne, hw⟩, hws⟩ := List.forall_mem_cons.1 h
    by_cases hlast : ws = []
    · subst hlast
      rw [conjunct_singleton, words_of_noBlank hw hne]
    · rw [conjunct_cons w hlast, words_append_cons _ _ (by decide), ih hws, words_of_noBlank hw hne]
      rfl

/-- A query without a word that divides it is one conjunct, of all its words. -/
theorem conjuncts_of_undivided (hwords : words q ≠ [])
    (h : ∀ before w after, words q = before ++ w :: after → togglesQuote before.flatten = false → isAnd w = false) :
    conjuncts q = [conjunct (words q)] := by
  have hrun := Splitter.run_of_undivided {} fun before w after heq hopen =>
    h before w after heq (by simpa using hopen)
  rw [conjuncts_eq, hrun, Splitter.flush, if_neg (by simpa using hwords)]
  rfl

/-- A word `and` between two texts divides them, if no literal is open. -/
theorem conjuncts_and {q₁ gap₁ gap₂ q₂ : List Char} (hquotes : togglesQuote q₁ = false)
    (hgap₁ : AllBlank gap₁ ∧ gap₁ ≠ []) (hand : isAnd w = true) (hgap₂ : AllBlank gap₂ ∧ gap₂ ≠ []) :
    conjuncts (q₁ ++ gap₁ ++ (w ++ gap₂ ++ q₂)) = conjuncts q₁ ++ conjuncts q₂ := by
  obtain ⟨hne, hw, -⟩ := of_isAnd hand
  have hopen : (Splitter.run {} (words q₁)).quoted = false := by
    rw [Splitter.quoted_run, togglesQuote_words, hquotes]
    rfl
  rw [conjuncts_eq, words_append_gap_append _ _ hgap₁.1 hgap₁.2, words_append_gap_append _ _ hgap₂.1 hgap₂.2,
    words_of_noBlank hw hne, Splitter.run_append, Splitter.run_append, Splitter.flush_run]
  show ((Splitter.step _ w).finished ++ conjunctsFrom (Splitter.step _ w).quoted (Splitter.step _ w).current _).map
    conjunct = _
  rw [Splitter.step_and _ hopen hand, List.map_append, ← conjuncts_eq]
  rfl

/-! ### Joins -/

theorem append_assoc (a b c : Join) : (a.append b).append c = a.append (b.append c) := by
  have hclasses : ∀ as bs cs : List String,
      as ++ bs.filter (! as.contains ·) ++ cs.filter (! (as ++ bs.filter (! as.contains ·)).contains ·) =
        as ++ (bs ++ cs.filter (! bs.contains ·)).filter (! as.contains ·) := by
    intro as bs cs
    rw [List.append_assoc, List.filter_append, List.filter_filter]
    congr 2
    refine List.filter_congr fun x _ => ?_
    by_cases hx : x ∈ as <;> by_cases hx' : x ∈ bs <;> simp [hx, hx']
  simp only [append, List.append_assoc, Bool.or_assoc, ← hclasses]

theorem empty_append (j : Join) : empty.append j = j := by
  have hclasses : j.otherClasses.filter (! [].contains ·) = j.otherClasses := List.filter_eq_self.2 fun _ _ => rfl
  rw [append, empty, hclasses]
  rfl

instance : Std.Associative append :=
  ⟨append_assoc⟩

theorem foldl_append (js ks : List Join) :
    (js ++ ks).foldl append empty = (js.foldl append empty).append (ks.foldl append empty) := by
  have hlater : ks.foldl append ((js.foldl append empty).append empty) =
      (js.foldl append empty).append (ks.foldl append empty) := List.foldl_assoc
  rw [append_empty] at hlater
  rw [List.foldl_append, hlater]

theorem foldl_append_cons (js : List Join) (j : Join) (ks : List Join) :
    (js ++ j :: ks).foldl append empty = (js.foldl append empty).append (j.append (ks.foldl append empty)) := by
  have hone : [j].foldl append empty = j := empty_append j
  rw [foldl_append, ← List.singleton_append, foldl_append, hone]

/-- The join of a conjunction holds the equalities of both sides and the conditions of both sides, in order, and
mentions what one of the sides mentions. -/
theorem parse_and {q₁ gap₁ word gap₂ q₂ : String} (related : String) (heven : Even (q₁.toList.count '\''))
    (hgap₁ : AllBlank gap₁.toList ∧ gap₁.toList ≠ []) (hand : isAnd word.toList = true)
    (hgap₂ : AllBlank gap₂.toList ∧ gap₂.toList ≠ []) :
    let j := parse (q₁ ++ gap₁ ++ (word ++ gap₂ ++ q₂)) related
    let j₁ := parse q₁ related
    let j₂ := parse q₂ related
    j.pairs = j₁.pairs ++ j₂.pairs ∧ j.filters = j₁.filters ++ j₂.filters ∧
      j.referencesThis = (j₁.referencesThis || j₂.referencesThis) ∧
      j.referencesRelated = (j₁.referencesRelated || j₂.referencesRelated) ∧
      j.otherClasses = j₁.otherClasses ++ j₂.otherClasses.filter (· ∉ j₁.otherClasses) := by
  have happend : parse (q₁ ++ gap₁ ++ (word ++ gap₂ ++ q₂)) related = (parse q₁ related).append (parse q₂ related) := by
    simp only [parse, String.toList_append]
    rw [conjuncts_and (togglesQuote_eq_false_iff.2 heven) hgap₁ hand hgap₂, List.map_append, foldl_append]
  rw [happend]
  refine ⟨rfl, rfl, rfl, rfl, ?_⟩
  simp [append]

/-- The first side has a literal with the word `and` and ends in another, both sides mention the class `Desk`, and the
second starts with one more `and`. -/
theorem parse_and_of_stray_words :
    let q₁ := "this.id = Item.owner and Desk.label = 'now and then' and"
    let q₂ := "and Desk.room > this.room"
    let j := parse (q₁ ++ "\t" ++ ("AND" ++ "\n " ++ q₂)) "Item"
    Even (q₁.toList.count '\'') ∧ (AllBlank "\t".toList ∧ "\t".toList ≠ []) ∧ isAnd "AND".toList = true ∧
      (AllBlank "\n ".toList ∧ "\n ".toList ≠ []) ∧
      j.pairs = [⟨"id", "owner"⟩] ∧ j.filters = ["Desk.label = 'now and then'", "Desk.room > this.room"] ∧
      j.referencesThis = true ∧ j.referencesRelated = true ∧ j.otherClasses = ["Desk"] := by
  intro q₁ q₂ j
  have heven : Even (q₁.toList.count '\'') := by decide +kernel
  have htab : AllBlank "\t".toList ∧ "\t".toList ≠ [] := by decide
  have hline : AllBlank "\n ".toList ∧ "\n ".toList ≠ [] := by decide
  have hand : isAnd "AND".toList = true := by decide
  obtain ⟨hpairs, hfilters, hthis, hrelated, hclasses⟩ :=
    @parse_and q₁ "\t" "AND" "\n " q₂ "Item" heven htab hand hline
  refine ⟨heven, htab, hand, hline, hpairs.trans ?_, hfilters.trans ?_, hthis.trans ?_, hrelated.trans ?_,
    hclasses.trans ?_⟩
  all_goals decide +kernel

end Metamodel.Join
