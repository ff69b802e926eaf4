import Metamodel.Proofs.Join.Grammar

/-!
# Literals in a query

What stands in a literal of a query does not count.  The splitter keeps a literal in one conjunct, where only its blanks
change (`exists_words_literal`, `exists_conjuncts_literal`), the mentions of a conjunct leave it out
(`mentions_literal`), and no conjunct with a quote is a pair (`pair?_eq_none_of_quote`).  So two queries that differ in
the text of a literal have joins that differ in the text of their filters at most (`Alike`, `parse_literal`).
-/

namespace Metamodel.Join

open Text (EndsWord NoBlank Spells words words_of_noBlank words_append words_append_of_endsWord
  words_append_of_endsWord_reverse exists_noBlank_append exists_append_noBlank mem_of_mem_words)

variable {ws us : List (List Char)} {a b : List Char}

/-! ### Text outside of quotes -/

private theorem unquoted_append (quoted : Bool) (a b : List Char) :
    unquoted quoted (a ++ b) = unquoted quoted a ++ unquoted (quoted ^^ togglesQuote a) b := by
  induction a generalizing quoted with
  | nil => simp [unquoted, togglesQuote]
  | cons c a ih =>
    rw [← List.singleton_append, togglesQuote_append, ← Bool.xor_assoc]
    by_cases hc : c = '\''
    · subst hc
      have htoggles : togglesQuote ['\''] = true := rfl
      simp [unquoted, ih, htoggles]
    · have htoggles : togglesQuote [c] = false := togglesQuote_of_not_mem (by simpa using Ne.symm hc)
      cases quoted <;> simp [unquoted, ih, htoggles, hc]

private theorem unquoted_of_not_mem (h : '\'' ∉ a) : unquoted true a = [] := by
  induction a with
  | nil => rfl
  | cons c a ih =>
    have hc : c ≠ '\'' := fun hc => h (hc ▸ List.mem_cons_self)
    rw [unquoted, if_neg hc, if_pos rfl, ih fun ha => h (List.mem_cons_of_mem c ha)]

/-- A literal is left out. -/
private theorem unquoted_literal (ha : togglesQuote a = false) {content : List Char} (hcontent : '\'' ∉ content) :
    unquoted false (a ++ '\'' :: (content ++ '\'' :: b)) = unquoted false a ++ unquoted false b := by
  rw [unquoted_append, ha, Bool.xor_false, unquoted, if_pos rfl, unquoted_append, Bool.not_false,
    unquoted_of_not_mem hcontent, togglesQuote_of_not_mem hcontent, Bool.xor_false, unquoted, if_pos rfl]
  rfl

theorem mentions_literal (ha : togglesQuote a = false) {content content' : List Char} (hcontent : '\'' ∉ content)
    (hcontent' : '\'' ∉ content') :
    mentions (a ++ '\'' :: (content ++ '\'' :: b)) = mentions (a ++ '\'' :: (content' ++ '\'' :: b)) := by
  rw [mentions, mentions, unquoted_literal ha hcontent, unquoted_literal ha hcontent']

/-- No token of an equality has a quote. -/
theorem pair?_eq_none_of_quote {related : String} (h : '\'' ∈ a) : pair? related a = none := by
  refine Option.eq_none_iff_forall_ne_some.2 fun p hpair => ?_
  obtain ⟨hthis, hother, n, hspelled⟩ := equates_of_pair? hpair
  have hmention : ∀ {name member : String}, IsMention name member → '\'' ∉ mention name member := by
    intro name member hm hquote
    rcases hm.isPlain_or _ hquote with hplain | hdot
    · exact hplain.ne_quote rfl
    · cases hdot
  have hnone : ∀ {l r : List Char}, '\'' ∉ l → '\'' ∉ r → ¬ Spells (enclosed n [l, ['='], r]) a := by
    intro l r hl hr hspells
    rcases hspells.mem h with hblank | ⟨token, htoken, hquote⟩
    · cases hblank
    · simp only [enclosed, List.mem_append, List.mem_replicate, List.mem_cons, List.not_mem_nil, or_false] at htoken
      rcases htoken with (⟨-, rfl⟩ | rfl | rfl | rfl) | ⟨-, rfl⟩
      · simp at hquote
      · exact hl hquote
      · simp at hquote
      · exact hr hquote
      · simp at hquote
  rcases hspelled with hspells | hspells
  · exact hnone (hmention hthis) (hmention hother) hspells
  · exact hnone (hmention hother) (hmention hthis) hspells

/-! ### Words of a literal -/

private theorem mem_conjunct {c : Char} (h : c ∈ conjunct ws) : c = ' ' ∨ ∃ w ∈ ws, c ∈ w := by
  induction ws with
  | nil => cases h
  | cons w ws ih =>
    by_cases hws : ws = []
    · subst hws
      rw [conjunct_singleton] at h
      exact .inr ⟨w, List.mem_cons_self, h⟩
    · rw [conjunct_cons w hws, List.mem_append, List.mem_cons] at h
      rcases h with h | rfl | h
      · exact .inr ⟨w, List.mem_cons_self, h⟩
      · exact .inl rfl
      · rcases ih h with hblank | ⟨v, hv, hc⟩
        · exact .inl hblank
        · exact .inr ⟨v, List.mem_cons_of_mem w hv, hc⟩

/-- The last word of a conjunct may go on. -/
private theorem conjunct_concat_append (ws : List (List Char)) (a b : List Char) :
    conjunct (ws ++ [a ++ b]) = conjunct (ws ++ [a]) ++ b := by
  by_cases hws : ws = []
  · subst hws
    rw [List.nil_append, List.nil_append, conjunct_singleton, conjunct_singleton]
  · rw [conjunct_append hws (List.cons_ne_nil _ _), conjunct_append hws (List.cons_ne_nil _ _), conjunct_singleton,
      conjunct_singleton, List.append_assoc]
    rfl

/-- The words of a literal that has the text `a` right before it and the text `b` right behind it. -/
inductive IsLiteral (a b : List Char) : List (List Char) → Prop where
  | whole {s : List Char} : '\'' ∉ s → IsLiteral a b [a ++ '\'' :: (s ++ '\'' :: b)]
  | broken {s₁ s₂ : List Char} {inner : List (List Char)} : '\'' ∉ s₁ → (∀ w ∈ inner, '\'' ∉ w) → '\'' ∉ s₂ →
      IsLiteral a b ((a ++ '\'' :: s₁) :: (inner ++ [s₂ ++ '\'' :: b]))

private theorem isLiteral_words (ha : NoBlank a) (hb : NoBlank b) {s : List Char} (hs : '\'' ∉ s) :
    IsLiteral a b (words (a ++ '\'' :: (s ++ '\'' :: b))) := by
  have hquote : NoBlank ['\''] := by decide
  obtain ⟨s₁, rest, rfl, hs₁, hrest⟩ := exists_noBlank_append s
  obtain ⟨inner, s₂, rfl, hs₂, hinner⟩ := exists_append_noBlank rest
  have hfirst : NoBlank (a ++ '\'' :: s₁) :=
    List.forall_mem_append.2 ⟨ha, List.forall_mem_append.2 ⟨hquote, hs₁⟩⟩
  have hlast : NoBlank (s₂ ++ '\'' :: b) := List.forall_mem_append.2 ⟨hs₂, List.forall_mem_append.2 ⟨hquote, hb⟩⟩
  have hfree : '\'' ∉ s₁ ∧ '\'' ∉ inner ∧ '\'' ∉ s₂ := by simpa using hs
  cases inner with
  | nil =>
    -- Nothing is left that could start with a blank.
    obtain rfl : s₂ = [] := by
      cases s₂ with
      | nil => rfl
      | cons c s₂ =>
        have hblank := hrest c rfl
        rw [hs₂ c List.mem_cons_self] at hblank
        cases hblank
    have hword : NoBlank (a ++ '\'' :: s₁ ++ '\'' :: b) := List.forall_mem_append.2 ⟨hfirst, hlast⟩
    have hwords := words_of_noBlank hword (by simp)
    rw [List.append_assoc, List.cons_append] at hwords
    rw [List.append_nil, List.append_nil, hwords]
    exact .whole hfree.1
  | cons c inner =>
    have hends : EndsWord (c :: inner ++ (s₂ ++ '\'' :: b)) := fun d hd => hrest d hd
    have hwords := words_append hfirst (by simp) hends
    rw [words_append_of_endsWord_reverse hinner, words_of_noBlank hlast (by simp)] at hwords
    have hsplit : a ++ '\'' :: (s₁ ++ (c :: inner ++ s₂) ++ '\'' :: b) =
        a ++ '\'' :: s₁ ++ (c :: inner ++ (s₂ ++ '\'' :: b)) := by simp
    rw [hsplit, hwords]
    exact .broken hfree.1 (fun w hw hquote => hfree.2.1 (mem_of_mem_words hw hquote)) hfree.2.2

namespace IsLiteral

variable (h : IsLiteral a b ws)

include h

theorem ne_nil : ws ≠ [] := by
  cases h with
  | whole => exact List.cons_ne_nil _ _
  | broken => exact List.cons_ne_nil _ _

/-- A conjunct has the literal in it, with other blanks. -/
private theorem exists_conjunct : ∃ content, '\'' ∉ content ∧ conjunct ws = a ++ '\'' :: (content ++ '\'' :: b) := by
  cases h with
  | @whole s hs => exact ⟨s, hs, conjunct_singleton _⟩
  | @broken s₁ s₂ inner hs₁ hinner hs₂ =>
    refine ⟨s₁ ++ ' ' :: conjunct (inner ++ [s₂]), fun hquote => ?_, ?_⟩
    · rcases List.mem_append.1 hquote with hquote | hquote
      · exact hs₁ hquote
      · rcases List.mem_cons.1 hquote with hblank | hquote
        · cases hblank
        · rcases mem_conjunct hquote with hblank | ⟨w, hw, hquote⟩
          · cases hblank
          · rcases List.mem_append.1 hw with hw | hw
            · exact hinner w hw hquote
            · exact hs₂ (List.mem_singleton.1 hw ▸ hquote)
    · rw [conjunct_cons _ (by simp), conjunct_concat_append]
      simp

/-- No word of a literal divides a query: it has a quote or comes when the literal is open. -/
private theorem isAnd_eq_false {quoted : Bool} (hopen : (quoted ^^ togglesQuote a) = false)
    {before after : List (List Char)}
    {w : List Char} (heq : ws = before ++ w :: after) (hbefore : (quoted ^^ togglesQuote before.flatten) = false) :
    isAnd w = false := by
  refine Bool.eq_false_iff.2 fun hand => ?_
  have hw : '\'' ∉ w := (of_isAnd hand).2.2
  cases h with
  | whole hs =>
    obtain ⟨-, hcons⟩ | ⟨-, hnil⟩ := List.singleton_eq_append_iff.1 heq
    · obtain ⟨rfl, -⟩ := List.cons.inj hcons
      simp at hw
    · cases hnil
  | @broken s₁ s₂ inner hs₁ hinner hs₂ =>
    cases before with
    | nil =>
      obtain ⟨rfl, -⟩ := List.cons.inj heq
      simp at hw
    | cons first before =>
      obtain ⟨rfl, htail⟩ := List.cons.inj heq
      rcases List.append_eq_append_iff.1 htail with ⟨more, rfl, hmore⟩ | ⟨more, rfl, -⟩
      · obtain ⟨-, hcons⟩ | ⟨-, hnil⟩ := List.singleton_eq_append_iff.1 hmore
        · obtain ⟨rfl, -⟩ := List.cons.inj hcons
          simp at hw
        · cases hnil
      · -- The words before are those within the literal, so it is open.
        have hfree : '\'' ∉ s₁ ++ before.flatten := by
          intro hquote
          rcases List.mem_append.1 hquote with hquote | hquote
          · exact hs₁ hquote
          · obtain ⟨v, hv, hquote⟩ := List.mem_flatten.1 hquote
            exact hinner v (List.mem_append_left _ hv) hquote
        rw [List.flatten_cons, List.append_assoc, togglesQuote_append, ← Bool.xor_assoc, hopen, List.cons_append,
          togglesQuote_quote, togglesQuote_of_not_mem hfree] at hbefore
        cases hbefore

end IsLiteral

/-! ### Conjuncts with a literal -/

private theorem togglesQuote_literal {s : List Char} (hs : '\'' ∉ s) :
    togglesQuote (a ++ '\'' :: (s ++ '\'' :: b)) = (togglesQuote a ^^ togglesQuote b) := by
  rw [togglesQuote_append, togglesQuote_quote, togglesQuote_append, togglesQuote_of_not_mem hs, togglesQuote_quote,
    Bool.false_xor, Bool.not_not]

private theorem togglesQuote_conjunct (ws : List (List Char)) : togglesQuote
    (conjunct ws) = togglesQuote ws.flatten := by
  induction ws with
  | nil => rfl
  | cons w ws ih =>
    by_cases hws : ws = []
    · subst hws
      rw [conjunct_singleton, List.flatten_singleton]
    · rw [conjunct_cons w hws, List.append_cons, togglesQuote_append, ih, togglesQuote_append, List.flatten_cons,
        togglesQuote_append]
      exact congrArg (· ^^ _) (Bool.xor_false _)

/-- Some words of a conjunct have a text around them. -/
private theorem exists_conjunct_append (us vs : List (List Char)) :
    ∃ before after, togglesQuote before = togglesQuote us.flatten ∧
      ∀ ws, ws ≠ [] → conjunct (us ++ (ws ++ vs)) = before ++ (conjunct ws ++ after) := by
  have hbefore : ∃ before, togglesQuote before = togglesQuote us.flatten ∧
      ∀ ws, ws ≠ [] → conjunct (us ++ ws) = before ++ conjunct ws := by
    by_cases hus : us = []
    · subst hus
      exact ⟨[], rfl, fun ws _ => rfl⟩
    · refine ⟨conjunct us ++ [' '], ?_, fun ws hws => by rw [conjunct_append hus hws, List.append_cons]⟩
      rw [togglesQuote_append, togglesQuote_conjunct]
      exact Bool.xor_false _
  have hafter : ∃ after, ∀ ws, ws ≠ [] → conjunct (ws ++ vs) = conjunct ws ++ after := by
    by_cases hvs : vs = []
    · subst hvs
      exact ⟨[], fun ws _ => by rw [List.append_nil, List.append_nil]⟩
    · exact ⟨' ' :: conjunct vs, fun ws hws => conjunct_append hws hvs⟩
  obtain ⟨before, htoggles, hbefore⟩ := hbefore
  obtain ⟨after, hafter⟩ := hafter
  refine ⟨before, after, htoggles, fun ws hws => ?_⟩
  rw [hbefore _ (List.append_ne_nil_of_left_ne_nil hws vs), hafter ws hws]

/-- The text of a literal does not change the conjuncts that it is not in, nor the one that it is in before and behind
it. -/
theorem exists_conjuncts_literal {p : List Char} (hopen : togglesQuote p = false) (r : List Char) :
    ∃ done before after rest, togglesQuote before = false ∧ ∀ s, '\'' ∉ s → ∃ content, '\'' ∉ content ∧
      conjuncts (p ++ '\'' :: (s ++ '\'' :: r)) = done ++ (before ++ '\'' :: (content ++ '\'' :: after)) :: rest := by
  obtain ⟨front, a, rfl, ha, hfront⟩ := exists_append_noBlank p
  obtain ⟨b, back, rfl, hb, hback⟩ := exists_noBlank_append r
  -- Where the splitter stands before the word in which the literal starts.
  let start := Splitter.run {} (words front)
  have hstart : start.quoted = togglesQuote front := by
    rw [Splitter.quoted_run, togglesQuote_words]
    exact Bool.false_xor _
  have hbalanced : start.Balanced := Splitter.Balanced.run ⟨rfl⟩ (words front)
  have hliteral : (start.quoted ^^ togglesQuote a) = false := by rw [hstart, ← togglesQuote_append, hopen]
  obtain ⟨more, rest, hrest⟩ := exists_conjunctsFrom (start.quoted ^^ (togglesQuote a ^^ togglesQuote b)) (words back)
  obtain ⟨before, after, htoggles, haround⟩ := exists_conjunct_append start.current more
  refine ⟨start.finished.map conjunct, before ++ a, b ++ after, rest.map conjunct, ?_, fun s hs => ?_⟩
  · rw [togglesQuote_append, htoggles, ← hbalanced.quoted, hliteral]
  · have hwords := isLiteral_words ha hb hs
    obtain ⟨content, hcontent, hconjunct⟩ := hwords.exists_conjunct
    have hrun : start.run (words (a ++ '\'' :: (s ++ '\'' :: b))) =
        { start with
          current := start.current ++ words (a ++ '\'' :: (s ++ '\'' :: b))
          quoted := start.quoted ^^ (togglesQuote a ^^ togglesQuote b) } := by
      rw [← togglesQuote_literal hs, ← togglesQuote_words]
      exact start.run_of_undivided fun _ _ _ heq hbefore => hwords.isAnd_eq_false hliteral heq hbefore
    have hsplit : front ++ a ++ '\'' :: (s ++ '\'' :: (b ++ back)) =
        front ++ (a ++ '\'' :: (s ++ '\'' :: b) ++ back) := by simp
    have hcurrent := List.append_ne_nil_of_right_ne_nil start.current hwords.ne_nil
    refine ⟨content, hcontent, ?_⟩
    rw [hsplit, conjuncts_eq, words_append_of_endsWord_reverse hfront, words_append_of_endsWord _ hback,
      Splitter.run_append, Splitter.run_append]
    show ((start.run _).run _).flush.map conjunct = _
    rw [hrun, Splitter.flush_run, hrest _ hcurrent, List.map_append, List.map_cons, List.append_assoc,
      haround _ hwords.ne_nil, hconjunct]
    simp

/-! ### Joins -/

/-- The joins differ in the text of their filters at most. -/
structure Alike (j k : Join) : Prop where
  pairs : j.pairs = k.pairs
  filters : j.filters.length = k.filters.length
  referencesThis : j.referencesThis = k.referencesThis
  referencesRelated : j.referencesRelated = k.referencesRelated
  otherClasses : j.otherClasses = k.otherClasses

namespace Alike

theorem refl (j : Join) : Alike j j :=
  ⟨rfl, rfl, rfl, rfl, rfl⟩

theorem append {j k j' k' : Join} (h : Alike j k) (h' : Alike j' k') : Alike (j.append j') (k.append k') where
  pairs := congrArg₂ (· ++ ·) h.pairs h'.pairs
  filters := by simp only [Join.append, List.length_append, h.filters, h'.filters]
  referencesThis := congrArg₂ (· || ·) h.referencesThis h'.referencesThis
  referencesRelated := congrArg₂ (· || ·) h.referencesRelated h'.referencesRelated
  otherClasses := by simp only [Join.append, h.otherClasses, h'.otherClasses]

/-- The join of a conjunct with a literal is that of the conjunct with another literal in its place. -/
theorem ofConjunct {related : String} (ha : togglesQuote a = false) {content content' : List Char}
    (hcontent : '\'' ∉ content) (hcontent' : '\'' ∉ content') :
    Alike (ofConjunct related (a ++ '\'' :: (content ++ '\'' :: b)))
      (ofConjunct related (a ++ '\'' :: (content' ++ '\'' :: b))) := by
  have hmentions := mentions_literal (b := b) ha hcontent hcontent'
  have hpair : ∀ s, pair? related (a ++ '\'' :: (s ++ '\'' :: b)) = none := fun s =>
    pair?_eq_none_of_quote (List.mem_append_right a List.mem_cons_self)
  constructor <;> simp only [Join.ofConjunct, hpair, hmentions]
  rfl

end Alike

/-- Two queries that differ in the text of a literal have the same pairs and mention the same classes, and have as many
filters. -/
theorem parse_literal {p s t : String} (r related : String) (heven : Even (p.toList.count '\''))
    (hs : '\'' ∉ s.toList) (ht : '\'' ∉ t.toList) :
    Alike (parse (p ++ "'" ++ s ++ "'" ++ r) related) (parse (p ++ "'" ++ t ++ "'" ++ r) related) := by
  obtain ⟨done, before, after, rest, hbefore, hconjuncts⟩ :=
    exists_conjuncts_literal (togglesQuote_eq_false_iff.2 heven) r.toList
  obtain ⟨content, hcontent, heq⟩ := hconjuncts s.toList hs
  obtain ⟨content', hcontent', heq'⟩ := hconjuncts t.toList ht
  have hquery : ∀ s : String, (p ++ "'" ++ s ++ "'" ++ r).toList =
      p.toList ++ '\'' :: (s.toList ++ '\'' :: r.toList) := fun s => by simp
  rw [parse, parse, hquery, hquery, heq, heq', List.map_append, List.map_append, List.map_cons, List.map_cons,
    foldl_append_cons, foldl_append_cons]
  exact (Alike.refl _).append ((Alike.ofConjunct hbefore hcontent hcontent').append (Alike.refl _))

/-- A literal that has words, an equality and mentions in it may as well be empty, whatever text it is glued to. -/
theorem parse_literal_of_glued_text :
    let p := "this.id = Item.owner and Note.text = x"
    let s := " this.id = Item.name and Desk.room > 1\n"
    Even (p.toList.count '\'') ∧ '\'' ∉ s.toList ∧ '\'' ∉ "".toList ∧
      Alike (parse (p ++ "'" ++ s ++ "'" ++ "y and this.id = 'b'") "Item")
        (parse (p ++ "'" ++ "" ++ "'" ++ "y and this.id = 'b'") "Item") := by
  intro p s
  have heven : Even (p.toList.count '\'') := by decide +kernel
  have hs : '\'' ∉ s.toList := by decide +kernel
  have ht : '\'' ∉ "".toList := by decide
  exact ⟨heven, hs, ht, parse_literal "y and this.id = 'b'" "Item" heven hs ht⟩

end Metamodel.Join
